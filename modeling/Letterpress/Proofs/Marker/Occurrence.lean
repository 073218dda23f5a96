import Letterpress.Proofs.Marker.Split
import Mathlib.Data.List.Chain
import Mathlib.Data.List.Infix

/-! Where the markers of a text stand. Markers do not overlap, and the split finds every one of them and
    nothing else: a marker is a piece of its own, and what stands before, between and behind the
    markers is a literal piece unless it is empty. -/

namespace Letterpress
namespace Segment
open Text

/-- A text between two opening and two closing braces. -/
def braced (inner : String) : String :=
  "\x7b\x7b" ++ inner ++ "\x7d\x7d"

/-- In the text a marker begins at the offset, with this text between its braces. -/
structure MarkerAt (text : String) (offset : Nat) (inner : String) : Prop where
  unbraced : Unbraced inner
  not_blank : allBlank inner = false
  stands : ∃ before after, text = before ++ braced inner ++ after ∧ before.length = offset

theorem isInner_toList {inner : String} :
    isInner inner.toList = true ↔ Unbraced inner ∧ allBlank inner = false :=
  isInner_iff

theorem ofInner_eq (inner : String) : ofInner inner.toList = .marker (braced inner) (trim inner) := by
  have hraw : String.ofList ('{' :: '{' :: inner.toList ++ ['}', '}']) = braced inner := by
    rw [← String.toList_inj]
    simp [braced]
  rw [ofInner, hraw, trim]

/-- A marker stands where one is read off the front. -/
theorem markerAt_iff {text inner : String} {offset : Nat} :
    MarkerAt text offset inner ↔ ∃ rest, marker? (text.toList.drop offset) = some (inner.toList, rest) := by
  constructor
  · rintro ⟨hu, hb, before, after, rfl, rfl⟩
    have hm := @marker?_markerChars inner.toList after.toList (isInner_toList.mpr ⟨hu, hb⟩)
    have hdrop : (before ++ braced inner ++ after).toList.drop before.length =
        markerChars inner.toList ++ after.toList := by
      simp [markerChars, braced, ← String.length_toList]
    exact ⟨after.toList, hdrop ▸ hm⟩
  · rintro ⟨rest, h⟩
    obtain ⟨hu, hb⟩ := isInner_toList.mp (isInner_of_marker? h)
    have hsource := marker?_eq h
    have hle : offset ≤ text.toList.length := by
      by_contra hlt
      rw [List.drop_eq_nil_of_le (by omega)] at hsource
      cases hsource
    refine ⟨hu, hb, String.ofList (text.toList.take offset), String.ofList rest, ?_, ?_⟩
    · rw [← String.toList_inj]
      conv_lhs => rw [← List.take_append_drop offset text.toList, hsource]
      simp [braced]
    · rw [← String.length_toList, String.toList_ofList, List.length_take, Nat.min_eq_left hle]

theorem MarkerAt.inner_eq {text v w : String} {offset : Nat} (hv : MarkerAt text offset v)
    (hw : MarkerAt text offset w) : v = w := by
  obtain ⟨_, hv⟩ := markerAt_iff.mp hv
  obtain ⟨_, hw⟩ := markerAt_iff.mp hw
  rw [hv] at hw
  exact String.toList_inj.mp (Prod.mk.inj (Option.some.inj hw)).1

/-- The characters of a marker: two opening braces, and then none. -/
theorem MarkerAt.braces {text inner : String} {offset : Nat} (h : MarkerAt text offset inner) :
    text.toList[offset]? = some '{' ∧ text.toList[offset + 1]? = some '{' ∧
      ∀ k, offset + 2 ≤ k → k < offset + (inner.length + 4) → text.toList[k]? ≠ some '{' := by
  obtain ⟨rest, hm⟩ := markerAt_iff.mp h
  have hsource := marker?_eq hm
  have hat : ∀ k, text.toList[offset + k]? = ('{' :: '{' :: (inner.toList ++ '}' :: '}' :: rest))[k]? := by
    intro k
    rw [← List.getElem?_drop, hsource]
    rfl
  refine ⟨hat 0, hat 1, ?_⟩
  intro k hlow hhigh hk
  obtain ⟨j, rfl⟩ := Nat.exists_eq_add_of_le hlow
  rw [Nat.add_assoc, hat, Nat.add_comm 2 j, List.getElem?_cons_succ, List.getElem?_cons_succ] at hk
  by_cases hj : j < inner.toList.length
  · rw [List.getElem?_append_left hj] at hk
    exact (h.unbraced '{' (List.mem_of_getElem? hk)).1 rfl
  · rw [List.getElem?_append_right (by omega)] at hk
    rw [← String.length_toList] at hhigh
    have hend : j - inner.toList.length = 0 ∨ j - inner.toList.length = 1 := by omega
    rcases hend with hend | hend <;> simp [hend] at hk

/-- A marker that begins behind the beginning of another begins behind its end. -/
theorem MarkerAt.end_le {text v w : String} {i j : Nat} (hv : MarkerAt text i v) (hw : MarkerAt text j w)
    (hij : i < j) : i + (v.length + 4) ≤ j := by
  obtain ⟨-, -, hnone⟩ := hv.braces
  obtain ⟨hfirst, hsecond, -⟩ := hw.braces
  by_contra hlt
  by_cases hj : j = i + 1
  · -- Its second brace would be the character behind the opening braces of the other.
    exact hnone (j + 1) (by omega) (by omega) hsecond
  · exact hnone j (by omega) (by omega) hfirst

/-- What is a marker in a part of the text is one in the text, and it ends within the part. -/
theorem MarkerAt.of_extract {text inner : String} {start stop offset : Nat}
    (h : MarkerAt (String.ofList (text.toList.extract start stop)) offset inner) :
    MarkerAt text (start + offset) inner ∧ start + offset + (inner.length + 4) ≤ stop := by
  obtain ⟨rest, hm⟩ := markerAt_iff.mp h
  rw [String.toList_ofList] at hm
  obtain ⟨more, hmore⟩ : (text.toList.extract start stop).drop offset <+: text.toList.drop (start + offset) := by
    rw [← List.drop_drop]
    exact List.IsPrefix.drop (List.take_prefix _ _) offset
  constructor
  · exact markerAt_iff.mpr ⟨rest ++ more, hmore ▸ marker?_append_of_some hm⟩
  · have hlen := congrArg List.length (marker?_eq hm)
    simp only [List.extract_eq_take_drop, List.length_drop, List.length_take, List.length_append, List.length_cons,
      String.length_toList] at hlen
    omega

/-! ### The pieces around the markers -/

/-- The text from one offset to another as a literal piece, unless it is empty. -/
def stretch (text : String) (start stop : Nat) : List Segment :=
  ofLiteral (text.toList.extract start stop)

/-- The text from the offset on, cut at these markers: each is a piece, and so is every stretch between
    them that is not empty. -/
def pieces (text : String) (start : Nat) : List (Nat × String) → List Segment
  | [] => stretch text start text.length
  | (offset, inner) :: found =>
    stretch text start offset ++
      .marker (braced inner) (trim inner) :: pieces text (offset + (inner.length + 4)) found

/-- These are the markers that begin at the offset or behind it, in order and apart from each other. -/
structure Listed (text : String) (start : Nat) (found : List (Nat × String)) : Prop where
  mem_iff : ∀ offset inner, (offset, inner) ∈ found ↔ start ≤ offset ∧ MarkerAt text offset inner
  apart : found.Pairwise fun a b => a.1 + (a.2.length + 4) ≤ b.1

theorem Listed.tail {text inner : String} {start offset : Nat} {found : List (Nat × String)}
    (h : Listed text start ((offset, inner) :: found)) : Listed text (offset + (inner.length + 4)) found := by
  obtain ⟨hbehind, hapart⟩ := List.pairwise_cons.mp h.apart
  refine ⟨fun j w => ⟨?_, ?_⟩, hapart⟩
  · intro hj
    exact ⟨hbehind (j, w) hj, ((h.mem_iff j w).mp (List.mem_cons_of_mem _ hj)).2⟩
  · rintro ⟨hle, hw⟩
    have hstart := ((h.mem_iff offset inner).mp List.mem_cons_self).1
    rcases List.mem_cons.mp ((h.mem_iff j w).mpr ⟨by omega, hw⟩) with heq | hj
    · cases heq
      omega
    · exact hj

theorem Listed.nil {text : String} {start : Nat} (h : ∀ offset inner, MarkerAt text offset inner → offset < start) :
    Listed text start [] where
  mem_iff offset inner := by
    simp only [List.not_mem_nil, false_iff, not_and]
    exact fun hle hm => absurd (h offset inner hm) (by omega)
  apart := .nil

/-- A marker comes first if none begins before it. -/
theorem Listed.cons {text inner : String} {start offset : Nat} {found : List (Nat × String)}
    (h : Listed text (offset + (inner.length + 4)) found) (hat : MarkerAt text offset inner) (hle : start ≤ offset)
    (hfirst : ∀ j w, MarkerAt text j w → start ≤ j → offset ≤ j) : Listed text start ((offset, inner) :: found) where
  mem_iff j w := by
    rw [List.mem_cons, h.mem_iff]
    constructor
    · rintro (heq | ⟨hlej, hw⟩)
      · cases heq
        exact ⟨hle, hat⟩
      · exact ⟨by omega, hw⟩
    · rintro ⟨hlej, hw⟩
      rcases Nat.eq_or_lt_of_le (hfirst j w hw hlej) with rfl | hlt
      · exact Or.inl (by rw [hw.inner_eq hat])
      · exact Or.inr ⟨hat.end_le hw hlt, hw⟩
  apart := List.pairwise_cons.mpr ⟨fun b hb => ((h.mem_iff b.1 b.2).mp hb).1, h.apart⟩

/-- The split from an offset on, when `seen` stands there, last character first, and no marker begins
    in it. -/
theorem splitFrom_eq_pieces {text : String} {seen cs : List Char} {start : Nat}
    (htext : text.toList.drop start = seen.reverse ++ cs)
    (hseen : ∀ offset inner, MarkerAt text offset inner → start ≤ offset → start + seen.length ≤ offset) :
    ∃ found, Listed text start found ∧ splitFrom seen cs = pieces text start found := by
  have hrest : text.toList.drop (start + seen.length) = cs := by
    rw [← List.drop_drop, htext, ← List.length_reverse, List.drop_left]
  fun_induction splitFrom seen cs generalizing start with
  | case1 seen =>
    -- Nothing is left of the text, so no marker can begin here or later.
    refine ⟨[], .nil fun offset inner h => ?_, ?_⟩
    · by_contra hge
      obtain ⟨rest, hm⟩ := markerAt_iff.mp h
      obtain ⟨k, rfl⟩ := Nat.exists_eq_add_of_le (hseen offset inner h (by omega))
      rw [← List.drop_drop, hrest] at hm
      simp [marker?] at hm
    · rw [List.append_nil] at htext
      rw [pieces, stretch, List.extract_eq_take_drop, htext, List.take_of_length_le]
      rw [← htext, List.length_drop, String.length_toList]
  | case2 seen c after inner rest hm _ ih =>
    -- A marker begins here, and what has been seen is the literal text in front of it.
    have hat : MarkerAt text (start + seen.length) (String.ofList inner) := by
      refine markerAt_iff.mpr ⟨rest, ?_⟩
      rw [hrest, hm, String.toList_ofList]
    have hbehind : text.toList.drop (start + seen.length + ((String.ofList inner).length + 4)) = rest := by
      rw [← List.drop_drop, hrest, marker?_eq hm]
      simp
    obtain ⟨found, hfound, hpieces⟩ := ih hbehind (fun offset v _ hle => hle) hbehind
    refine ⟨_, hfound.cons hat (Nat.le_add_right ..) hseen, ?_⟩
    have hseenPart : text.toList.extract start (start + seen.length) = seen.reverse := by
      rw [List.extract_eq_take_drop, htext, Nat.add_sub_cancel_left, ← List.length_reverse, List.take_left]
    have hmarker := ofInner_eq (String.ofList inner)
    rw [String.toList_ofList] at hmarker
    rw [pieces, stretch, hseenPart, hpieces, hmarker]
  | case3 seen c after hm ih =>
    -- None begins here, so the character joins what has been seen.
    refine ih (by simpa using htext) ?_ ?_
    · intro offset inner h hle
      have hlow := hseen offset inner h hle
      rcases Nat.eq_or_lt_of_le hlow with rfl | hlt
      · obtain ⟨_, h⟩ := markerAt_iff.mp h
        rw [hrest, hm] at h
        cases h
      · simp only [List.length_cons]
        omega
    · rw [List.length_cons, ← Nat.add_assoc, ← List.drop_drop, hrest]
      rfl

/-- The split cuts the text at its markers. -/
theorem exists_listed (text : String) : ∃ found, Listed text 0 found ∧ split text = pieces text 0 found :=
  splitFrom_eq_pieces rfl fun _ _ _ hle => hle

theorem literal_of_mem_stretch {text literal : String} {start stop : Nat}
    (h : .literal literal ∈ stretch text start stop) :
    literal ≠ "" ∧ literal = String.ofList (text.toList.extract start stop) := by
  rw [stretch] at h
  cases hcs : text.toList.extract start stop with
  | nil => simp [hcs, ofLiteral] at h
  | cons c cs =>
    simp only [hcs, ofLiteral, List.mem_singleton, Segment.literal.injEq] at h
    refine ⟨?_, h⟩
    rw [h, ne_eq, ← String.toList_inj]
    simp

theorem Listed.literal {text literal : String} {start : Nat} {found : List (Nat × String)}
    (hfound : Listed text start found) (h : .literal literal ∈ pieces text start found) :
    literal ≠ "" ∧ ∀ offset inner, ¬MarkerAt literal offset inner := by
  induction found generalizing start with
  | nil =>
    obtain ⟨hne, rfl⟩ := literal_of_mem_stretch h
    refine ⟨hne, fun offset inner hm => ?_⟩
    obtain ⟨hm, -⟩ := hm.of_extract
    cases (hfound.mem_iff _ _).mpr ⟨Nat.le_add_right start offset, hm⟩
  | cons first found ih =>
    obtain ⟨stop, v⟩ := first
    rw [pieces, List.mem_append, List.mem_cons] at h
    rcases h with h | h | h
    · obtain ⟨hne, rfl⟩ := literal_of_mem_stretch h
      refine ⟨hne, fun offset inner hm => ?_⟩
      -- It would be listed, but the first one of the list begins behind it.
      obtain ⟨hm, hend⟩ := hm.of_extract
      have hlisted := (hfound.mem_iff _ _).mpr ⟨Nat.le_add_right start offset, hm⟩
      rcases List.mem_cons.mp hlisted with heq | hlater
      · cases heq
        omega
      · have hapart := (List.pairwise_cons.mp hfound.apart).1 _ hlater
        simp only at hapart
        omega
    · cases h
    · exact ih hfound.tail h

/-- The pieces are not two literals. -/
def NotBothLiteral (a b : Segment) : Prop :=
  a.literal? = none ∨ b.literal? = none

theorem isChain_pieces (text : String) (start : Nat) (found : List (Nat × String)) :
    (pieces text start found).IsChain NotBothLiteral := by
  have hstretch : ∀ start stop, (stretch text start stop).IsChain NotBothLiteral := by
    intro start stop
    rw [stretch]
    cases text.toList.extract start stop <;> simp [ofLiteral]
  induction found generalizing start with
  | nil => exact hstretch start text.length
  | cons first found ih =>
    refine List.isChain_append.mpr ⟨hstretch start first.1, List.isChain_cons.mpr ⟨?_, ih _⟩, ?_⟩
    · intro b _
      exact Or.inl rfl
    · intro a _ b hb
      cases hb
      exact Or.inr rfl

/-- The split finds exactly the markers of a text. They do not overlap; they are the marker pieces of
    the split, in order, with a literal piece for each stretch around them that is not empty. So the
    pieces put together are the text, no literal is empty or has a marker in it, and no two literals
    are neighbours. -/
theorem split_finds_markers (text : String) :
    (∀ i v j w, MarkerAt text i v → MarkerAt text j w →
      (i = j ∧ v = w) ∨ i + (v.length + 4) ≤ j ∨ j + (w.length + 4) ≤ i) ∧
    (∃ found : List (Nat × String), (∀ offset inner, (offset, inner) ∈ found ↔ MarkerAt text offset inner) ∧
      (found.Pairwise fun a b => a.1 + (a.2.length + 4) ≤ b.1) ∧ split text = pieces text 0 found) ∧
    join (split text) = text ∧
    (∀ literal, .literal literal ∈ split text →
      literal ≠ "" ∧ ∀ offset inner, ¬MarkerAt literal offset inner) ∧
    (split text).IsChain NotBothLiteral := by
  obtain ⟨found, hfound, hsplit⟩ := exists_listed text
  refine ⟨?_, ⟨found, ?_, hfound.apart, hsplit⟩, join_split text, ?_, ?_⟩
  · intro i v j w hv hw
    rcases Nat.lt_trichotomy i j with hlt | rfl | hgt
    · exact Or.inr (Or.inl (hv.end_le hw hlt))
    · exact Or.inl ⟨rfl, hv.inner_eq hw⟩
    · exact Or.inr (Or.inr (hw.end_le hv hgt))
  · intro offset inner
    rw [hfound.mem_iff, and_iff_right (Nat.zero_le offset)]
  · intro literal h
    rw [hsplit] at h
    exact hfound.literal h
  · rw [hsplit]
    exact isChain_pieces text 0 found

/-- Braces around a blank are literal, also next to a marker. -/
theorem blank_braces_are_literal :
    MarkerAt "{{ }}{{a}}" 5 "a" ∧ split "{{ }}{{a}}" = [.literal "{{ }}", .marker "{{a}}" "a"] ∧
      ∀ offset inner, ¬MarkerAt "{{ }}" offset inner := by
  have hmarker : MarkerAt "{{ }}{{a}}" 5 "a" := ⟨by decide, by decide, "{{ }}", "", by decide, by decide⟩
  have hsplit : split "{{ }}{{a}}" = [.literal "{{ }}", .marker "{{a}}" "a"] := by decide +kernel
  obtain ⟨-, -, -, hliteral, -⟩ := split_finds_markers "{{ }}{{a}}"
  have hblank := hliteral "{{ }}" (by simp [hsplit])
  exact ⟨hmarker, hsplit, hblank.2⟩

end Segment
end Letterpress
