import Letterpress.Marker

/-! Splitting a text at its markers. The pieces put together again are the text, and a marker is found
    wherever it stands: what stands before and behind it is split as if it stood alone. Pieces without
    stray braces are found again when they are put together, up to the borders of literal pieces. -/

namespace Letterpress

/-- The text has no brace. -/
def Text.Unbraced (s : String) : Prop :=
  ∀ c ∈ s.toList, c ≠ '{' ∧ c ≠ '}'

-- Not by a search over all characters.
instance (s : String) : Decidable (Text.Unbraced s) :=
  List.decidableBAll (fun c => c ≠ '{' ∧ c ≠ '}') s.toList

theorem Text.Unbraced.append {a b : String} (ha : Text.Unbraced a) (hb : Text.Unbraced b) :
    Text.Unbraced (a ++ b) := by
  intro c hc
  rw [String.toList_append, List.mem_append] at hc
  rcases hc with hc | hc
  · exact ha c hc
  · exact hb c hc

namespace Segment
open Text

/-! ### One step -/

theorem splitFrom_nil (seen : List Char) : splitFrom seen [] = ofLiteral seen.reverse := by
  rw [splitFrom]

theorem splitFrom_of_marker {seen cs inner rest : List Char} (h : marker? cs = some (inner, rest)) :
    splitFrom seen cs = ofLiteral seen.reverse ++ ofInner inner :: splitFrom [] rest := by
  cases cs with
  | nil => cases h
  | cons c after =>
    rw [splitFrom]
    split
    · rename_i inner' rest' h'
      rw [h] at h'
      cases h'
      rfl
    · rename_i h'
      rw [h] at h'
      cases h'

theorem splitFrom_of_none {seen after : List Char} {c : Char} (h : marker? (c :: after) = none) :
    splitFrom seen (c :: after) = splitFrom (c :: seen) after := by
  rw [splitFrom]
  split
  · rename_i inner rest h'
    rw [h] at h'
    cases h'
  · rfl

theorem marker?_of_ne {c : Char} {after : List Char} (h : c ≠ '{') : marker? (c :: after) = none := by
  unfold marker?
  split
  · rename_i heq
    cases heq
    exact absurd rfl h
  · rfl

theorem closing?_of_ne {c : Char} {rest : List Char} (h : c ≠ '}') :
    closing? (c :: rest) = (closing? rest).map fun (inner, rest) => (c :: inner, rest) := by
  rw [closing?]
  rintro r hc -
  exact h hc

/-- What has no closing brace in it is passed over. -/
theorem closing?_append {inner rest : List Char} (h : ∀ c ∈ inner, c ≠ '}') :
    closing? (inner ++ '}' :: '}' :: rest) = some (inner, rest) := by
  induction inner with
  | nil => rfl
  | cons c inner ih =>
    have ih' := ih fun d hd => h d (List.mem_cons_of_mem _ hd)
    rw [List.cons_append, closing?_of_ne (h c List.mem_cons_self), ih']
    rfl

theorem isInner_of_marker? {cs inner rest : List Char} (h : marker? cs = some (inner, rest)) :
    isInner inner = true := by
  unfold marker? at h
  split at h
  · split at h
    · split at h
      · rename_i hi
        cases h
        exact hi
      · cases h
    · cases h
  · cases h

theorem isInner_iff {inner : List Char} :
    isInner inner = true ↔ (∀ c ∈ inner, c ≠ '{' ∧ c ≠ '}') ∧ inner.all isBlank = false := by
  simp [isInner]

/-- The source of a marker with this between its braces. -/
def markerChars (inner : List Char) : List Char :=
  '{' :: '{' :: inner ++ ['}', '}']

theorem marker?_markerChars {inner rest : List Char} (h : isInner inner = true) :
    marker? (markerChars inner ++ rest) = some (inner, rest) := by
  have hc : closing? (inner ++ '}' :: '}' :: rest) = some (inner, rest) :=
    closing?_append fun c hc => ((isInner_iff.mp h).1 c hc).2
  simp [markerChars, marker?, hc, h]

/-! ### Pieces put together -/

/-- The characters of a literal piece. -/
def literal? : Segment → Option String
  | .literal text => some text
  | .marker _ _ => none

/-- The text of a piece as it is written. -/
def source : Segment → String
  | .literal text => text
  | .marker raw _ => raw

/-- The text of some pieces. -/
def join : List Segment → String
  | [] => ""
  | segment :: segments => segment.source ++ join segments

@[simp] theorem join_append (a b : List Segment) : join (a ++ b) = join a ++ join b := by
  induction a with
  | nil => simp [join]
  | cons segment a ih => simp [join, ih, String.append_assoc]

theorem toList_join_ofLiteral (cs : List Char) : (join (ofLiteral cs)).toList = cs := by
  cases cs <;> simp [ofLiteral, join, source]

theorem toList_join_splitFrom (seen cs : List Char) : (join (splitFrom seen cs)).toList = seen.reverse ++ cs := by
  fun_induction splitFrom seen cs with
  | case1 seen => simp [toList_join_ofLiteral]
  | case2 seen c after inner rest h _ ih =>
    rw [join_append, String.toList_append, toList_join_ofLiteral]
    simp [join, source, ofInner, ih, marker?_eq h]
  | case3 seen c after h ih => simpa using ih

theorem join_split (text : String) : join (split text) = text := by
  rw [← String.toList_inj]
  simpa [split] using toList_join_splitFrom [] text.toList

theorem mem_splitFrom_marker {seen cs : List Char} {raw formula : String}
    (h : .marker raw formula ∈ splitFrom seen cs) :
    ∃ inner, isInner inner = true ∧ .marker raw formula = ofInner inner := by
  fun_induction splitFrom seen cs with
  | case1 seen => cases hs : seen.reverse <;> simp [ofLiteral, hs] at h
  | case2 seen c after inner rest hm _ ih =>
    rcases List.mem_append.mp h with h | h
    · cases hs : seen.reverse <;> simp [ofLiteral, hs] at h
    · rcases List.mem_cons.mp h with h | h
      · exact ⟨inner, isInner_of_marker? hm, h⟩
      · exact ih h
  | case3 seen c after hm ih => exact ih h

/-! ### Around a marker

A marker begins with two opening braces, and no marker before it can reach over them. -/

theorem mem_of_closing?_append {cs rest inner after : List Char} (hn : closing? cs = none)
    (h : closing? (cs ++ '{' :: rest) = some (inner, after)) : '{' ∈ inner := by
  fun_induction closing? cs generalizing inner after with
  | case1 r => cases hn
  | case2 c r hne ih =>
    rw [List.cons_append, closing?] at h
    · obtain ⟨⟨i, r'⟩, hr, he⟩ := Option.map_eq_some_iff.mp h
      cases he
      exact List.mem_cons_of_mem _ (ih (Option.map_eq_none_iff.mp hn) hr)
    · -- A closing brace before the opening one closes nothing either: what follows it is none.
      rintro r'' rfl hr''
      cases r with
      | nil => cases hr''
      | cons d r =>
        cases hr''
        exact hne _ rfl rfl
  | case3 =>
    rw [List.nil_append, closing?_of_ne (by decide)] at h
    obtain ⟨⟨i, r⟩, -, he⟩ := Option.map_eq_some_iff.mp h
    cases he
    exact List.mem_cons_self

theorem closing?_append_of_some {cs rest inner after : List Char} (h : closing? cs = some (inner, after)) :
    closing? (cs ++ rest) = some (inner, after ++ rest) := by
  fun_induction closing? cs generalizing inner after with
  | case1 r =>
    cases h
    rfl
  | case2 c r hne ih =>
    obtain ⟨⟨i, r'⟩, hr, he⟩ := Option.map_eq_some_iff.mp h
    cases he
    rw [List.cons_append, closing?, ih hr]
    · rfl
    · rintro r'' rfl hr''
      cases r with
      | nil => cases hr
      | cons d r =>
        cases hr''
        exact hne _ rfl rfl
  | case3 => cases h

theorem not_isInner_of_mem {inner : List Char} (h : '{' ∈ inner) : isInner inner = false := by
  rw [← Bool.not_eq_true, isInner_iff]
  rintro ⟨hall, -⟩
  exact (hall _ h).1 rfl

theorem marker?_append_of_some {cs rest inner after : List Char} (h : marker? cs = some (inner, after)) :
    marker? (cs ++ rest) = some (inner, after ++ rest) := by
  have hi := isInner_of_marker? h
  have heq := marker?_eq h
  subst heq
  have := @marker?_markerChars inner (after ++ rest) hi
  simpa [markerChars] using this

theorem marker?_append_of_none {c : Char} {after rest : List Char} (h : marker? (c :: after) = none) :
    marker? (c :: after ++ '{' :: '{' :: rest) = none := by
  by_cases hc : c = '{'
  · subst hc
    -- A cut that reaches what is added has an opening brace inside, so it is no marker.
    have refuse : ∀ {cs inner tail : List Char}, closing? cs = some (inner, tail) → '{' ∈ inner →
        marker? ('{' :: '{' :: cs) = none := fun hcl hm => by
      simp [marker?, hcl, not_isInner_of_mem hm]
    have refuse_none : ∀ {cs : List Char}, closing? cs = none → marker? ('{' :: '{' :: cs) = none := fun hcl => by
      simp [marker?, hcl]
    cases after with
    | nil =>
      show marker? ('{' :: '{' :: '{' :: rest) = none
      cases hcl : closing? ('{' :: rest) with
      | none => exact refuse_none hcl
      | some cut => exact refuse hcl (@mem_of_closing?_append [] _ _ _ rfl hcl)
    | cons d after =>
      by_cases hd : d = '{'
      · subst hd
        cases hcl : closing? after with
        | none =>
          cases hcl' : closing? (after ++ '{' :: '{' :: rest) with
          | none => exact refuse_none hcl'
          | some cut => exact refuse hcl' (mem_of_closing?_append hcl hcl')
        | some cut =>
          have hi : isInner cut.1 = false := by
            simpa [marker?, hcl] using h
          have hcl' : closing? (after ++ '{' :: '{' :: rest) = some (cut.1, cut.2 ++ '{' :: '{' :: rest) :=
            closing?_append_of_some hcl
          simp [marker?, hcl', hi]
      · unfold marker?
        split
        · rename_i heq
          simp only [List.cons_append, List.cons.injEq] at heq
          exact absurd heq.2.1 hd
        · rfl
  · rw [List.cons_append]
    exact marker?_of_ne hc

theorem splitFrom_append_marker {seen cs inner rest : List Char} (hi : isInner inner = true) :
    splitFrom seen (cs ++ (markerChars inner ++ rest)) =
      splitFrom seen cs ++ ofInner inner :: splitFrom [] rest := by
  fun_induction splitFrom seen cs with
  | case1 seen => exact splitFrom_of_marker (marker?_markerChars hi)
  | case2 seen c after inner' rest' h _ ih =>
    rw [splitFrom_of_marker (marker?_append_of_some h), ih]
    simp
  | case3 seen c after h ih =>
    have hn : marker? (c :: after ++ (markerChars inner ++ rest)) = none := marker?_append_of_none h
    rw [List.cons_append] at hn ⊢
    rw [splitFrom_of_none hn, ih]

/-- A marker is found wherever it stands, and the text before and behind it is split on its own. -/
theorem split_marker {a b : String} {inner : List Char} (hi : isInner inner = true) :
    split (a ++ String.ofList (markerChars inner) ++ b) = split a ++ ofInner inner :: split b := by
  simp only [split, String.toList_append, String.toList_ofList, List.append_assoc]
  exact splitFrom_append_marker hi

/-! ### Pieces without stray braces -/

/-- A literal piece without braces, or a marker that is written as one. -/
def Clean : Segment → Prop
  | .literal text => Unbraced text
  | .marker raw formula => ∃ inner, isInner inner = true ∧ .marker raw formula = ofInner inner

/-- Outside its markers the text has no brace. -/
def Tidy (text : String) : Prop :=
  ∀ literal, .literal literal ∈ split text → Unbraced literal

instance (text : String) : Decidable (Tidy text) :=
  decidable_of_iff (∀ segment ∈ split text, ∀ literal ∈ segment.literal?, Unbraced literal) <| by
    constructor
    · exact fun h literal hl => h (.literal literal) hl literal rfl
    · intro h segment hs literal hl
      cases segment with
      | literal text =>
        cases hl
        exact h literal hs
      | marker raw formula => cases hl

theorem Tidy.clean {text : String} (h : Tidy text) : ∀ segment ∈ split text, segment.Clean := by
  intro segment hs
  cases segment with
  | literal literal => exact h literal hs
  | marker raw formula => exact mem_splitFrom_marker hs

/-- The pieces with neighbouring literals put together, behind the characters `seen`, which come last
    first. -/
def merge (seen : List Char) : List Segment → List Segment
  | [] => ofLiteral seen.reverse
  | .literal text :: segments => merge (text.toList.reverse ++ seen) segments
  | .marker raw formula :: segments => ofLiteral seen.reverse ++ .marker raw formula :: merge [] segments

theorem splitFrom_unbraced {seen cs rest : List Char} (h : ∀ c ∈ cs, c ≠ '{') :
    splitFrom seen (cs ++ rest) = splitFrom (cs.reverse ++ seen) rest := by
  induction cs generalizing seen with
  | nil => rfl
  | cons c cs ih =>
    have hn : marker? (c :: (cs ++ rest)) = none := marker?_of_ne (h c List.mem_cons_self)
    rw [List.cons_append, splitFrom_of_none hn, ih fun d hd => h d (List.mem_cons_of_mem _ hd)]
    simp

theorem split_unbraced {text : String} (h : Unbraced text) : split text = ofLiteral text.toList := by
  have := @splitFrom_unbraced [] text.toList [] fun c hc => (h c hc).1
  simpa [split, splitFrom_nil] using this

theorem markers_of_unbraced {text : String} (h : Unbraced text) : markers text = [] := by
  rw [markers, split_unbraced h]
  cases text.toList with
  | nil => rfl
  | cons c cs => rfl

theorem not_mem_split_of_no_marker {text : String} (h : markers text = []) (raw formula : String) :
    .marker raw formula ∉ split text := by
  intro hm
  have hbad : some raw = none := List.filterMap_eq_nil_iff.mp h _ hm
  cases hbad

theorem splitFrom_join {seen : List Char} {segments : List Segment} (h : ∀ s ∈ segments, s.Clean) :
    splitFrom seen (join segments).toList = merge seen segments := by
  induction segments generalizing seen with
  | nil => simp [join, splitFrom_nil, merge]
  | cons segment segments ih =>
    have ih' := fun {seen} => @ih seen fun s hs => h s (List.mem_cons_of_mem _ hs)
    have hclean := h segment List.mem_cons_self
    cases segment with
    | literal text =>
      rw [join, String.toList_append, source, splitFrom_unbraced fun c hc => (hclean c hc).1, ih', merge]
    | marker raw formula =>
      obtain ⟨inner, hi, heq⟩ := hclean
      have hraw : raw.toList = markerChars inner := by
        cases heq
        simp [markerChars]
      rw [join, String.toList_append, source, hraw, splitFrom_of_marker (marker?_markerChars hi), ih', merge, heq]

/-- Pieces without stray braces are found again, up to the borders of literals. -/
theorem split_join {segments : List Segment} (h : ∀ s ∈ segments, s.Clean) :
    split (join segments) = merge [] segments :=
  splitFrom_join h

end Segment
end Letterpress
