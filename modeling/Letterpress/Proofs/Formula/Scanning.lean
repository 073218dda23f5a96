import Letterpress.Formula.Basic
import Letterpress.Formula.Token
import Letterpress.Proofs.Decimal.Numeral

/-! Tokens as they are written. Whatever is scanned is well formed: a path of name segments, a number, or a run of
    operator characters. Well-formed tokens with a blank between neighbours are found again, since no token
    reaches over a blank: a name and a number end where no character continues them, and so does a
    run of operator characters. -/

namespace Letterpress
namespace Token
open Text (isBlank)

/-! ### Well-formed tokens -/

/-- The characters are a segment of a name. -/
def IsSegment : List Char → Prop
  | [] => False
  | c :: cs => isNameStart c = true ∧ ∀ d ∈ cs, isNameChar d = true

/-- The characters write a number: a numeral, or a point and digits. -/
inductive IsNumber : List Char → Prop
  | numeral {cs : List Char} (h : Decimal.Numeral cs) : IsNumber cs
  | fraction {places : List Char} (hne : places ≠ []) (hp : ∀ c ∈ places, c.isDigit = true) : IsNumber ('.' :: places)

/-- The token can be written so that it is scanned again. -/
def WellFormed : Token → Prop
  | name path => path ≠ [] ∧ ∀ segment ∈ path, IsSegment segment.toList
  | number digits => IsNumber digits.toList
  | symbol s => s ≠ "" ∧ ∀ c ∈ s.toList, isSymbolChar c = true

/-! ### What is scanned -/

theorem isSegment_of_segment? {cs segment rest : List Char} (h : segment? cs = some (segment, rest)) :
    IsSegment segment := by
  cases cs with
  | nil => cases h
  | cons c cs =>
    simp only [segment?] at h
    split at h
    · rename_i hc
      cases h
      exact ⟨hc, List.all_eq_true.mp List.all_takeWhile⟩
    · cases h

theorem isSegment_of_mem_moreSegments {cs : List Char} : ∀ segment ∈ (moreSegments cs).1, IsSegment segment := by
  fun_induction moreSegments cs with
  | case1 after segment rest h _ segments rest' hs ih =>
    rw [hs] at ih
    exact List.forall_mem_cons.mpr ⟨isSegment_of_segment? h, ih⟩
  | case2 => exact List.forall_mem_nil _
  | case3 => exact List.forall_mem_nil _

theorem wellFormed_of_name? {cs rest : List Char} {token : Token} (h : name? cs = some (token, rest)) :
    token.WellFormed := by
  unfold name? at h
  split at h
  · cases h
  · rename_i segment after hs
    cases h
    refine ⟨List.cons_ne_nil _ _, fun text ht => ?_⟩
    obtain ⟨chars, hchars, rfl⟩ := List.mem_map.mp ht
    rw [String.toList_ofList]
    rcases List.mem_cons.mp hchars with rfl | hchars
    · exact isSegment_of_segment? hs
    · exact isSegment_of_mem_moreSegments _ hchars

theorem isNumber_of_numberChars? {cs text rest : List Char} (h : numberChars? cs = some (text, rest)) :
    IsNumber text := by
  have hdigits : ∀ cs : List Char, ∀ c ∈ (run Char.isDigit cs).1, c.isDigit = true :=
    fun _ => List.all_eq_true.mp List.all_takeWhile
  unfold numberChars? at h
  split at h
  · cases h
  · rename_i c after
    split at h
    · rename_i hc
      -- The first digit belongs to the run, which is therefore not empty.
      have hne : (run Char.isDigit (c :: after)).1 ≠ [] := by simp [run, hc]
      have hd := hdigits (c :: after)
      split at h
      · rename_i whole places heq
        cases h
        rw [heq] at hne hd
        exact .numeral (.point hne hd (hdigits places))
      · cases h
        exact .numeral (.whole hne hd)
    · split at h
      · have hd := hdigits after
        split at h
        · cases h
        · rename_i fraction rest' hne heq
          cases h
          rw [heq] at hd
          exact .fraction hne hd
      · cases h

theorem wellFormed_of_symbol? {cs rest : List Char} {token : Token} (h : symbol? cs = some (token, rest)) :
    token.WellFormed := by
  unfold symbol? at h
  split at h
  · cases h
  · rename_i text after hne heq
    cases h
    have hrun : text = (run isSymbolChar cs).1 := by rw [heq]
    refine ⟨fun hempty => hne (String.ofList_eq_empty_iff.mp hempty), ?_⟩
    rw [String.toList_ofList, hrun]
    exact List.all_eq_true.mp List.all_takeWhile

theorem wellFormed_of_number? {cs rest : List Char} {token : Token} (h : number? cs = some (token, rest)) :
    token.WellFormed := by
  obtain ⟨⟨text, rest'⟩, hchars, he⟩ := Option.map_eq_some_iff.mp h
  cases he
  show IsNumber (String.ofList text).toList
  rw [String.toList_ofList]
  exact isNumber_of_numberChars? hchars

/-- A token is a name, a number or a run of operator characters. -/
theorem next?_eq_some {cs : List Char} {cut : Token × List Char} (h : next? cs = some cut) :
    name? cs = some cut ∨ number? cs = some cut ∨ symbol? cs = some cut := by
  simp only [next?, Option.orElse_eq_orElse, Option.orElse_eq_or, Option.or_eq_some_iff] at h
  exact h.imp_right fun h => h.2.imp_right And.right

theorem wellFormed_of_next? {cs rest : List Char} {token : Token} (h : next? cs = some (token, rest)) :
    token.WellFormed := by
  rcases next?_eq_some h with h | h | h
  · exact wellFormed_of_name? h
  · exact wellFormed_of_number? h
  · exact wellFormed_of_symbol? h

/-- Every token of a scanned text is well formed. -/
theorem wellFormed_of_scan {cs : List Char} {tokens : List Token} (h : scan cs = some tokens) :
    ∀ token ∈ tokens, token.WellFormed := by
  fun_induction scan cs generalizing tokens with
  | case1 cs hnil =>
    cases h
    exact nofun
  | case2 cs hnil hnone => cases h
  | case3 cs hnil token rest hnext _ ih =>
    obtain ⟨more, hmore, rfl⟩ := Option.map_eq_some_iff.mp h
    exact List.forall_mem_cons.mpr ⟨wellFormed_of_next? hnext, ih hmore⟩

/-! ### What ends a token -/

/-- The blank characters. -/
def blankPoints : List Nat :=
  [0x09, 0x0A, 0x0B, 0x0C, 0x0D, 0x20, 0x85, 0xA0, 0x1680, 0x2000, 0x2001, 0x2002, 0x2003, 0x2004, 0x2005, 0x2006,
    0x2007, 0x2008, 0x2009, 0x200A, 0x2028, 0x2029, 0x202F, 0x205F, 0x3000]

theorem mem_blankPoints {c : Char} (h : isBlank c = true) : c.toNat ∈ blankPoints := by
  simp only [isBlank, Bool.or_eq_true, Bool.and_eq_true, decide_eq_true_eq, beq_iff_eq] at h
  simp only [blankPoints, List.mem_cons, List.not_mem_nil, or_false]
  omega

/-- The character belongs to no token. -/
theorem not_token_of_isBlank {c : Char} (h : isBlank c = true) :
    isNameChar c = false ∧ c.isDigit = false ∧ isSymbolChar c = false ∧ c ≠ '.' := by
  have hall : ∀ n ∈ blankPoints, isNameChar (Char.ofNat n) = false ∧ (Char.ofNat n).isDigit = false ∧
      isSymbolChar (Char.ofNat n) = false ∧ Char.ofNat n ≠ '.' := by decide +kernel
  simpa only [Char.ofNat_toNat] using hall _ (mem_blankPoints h)

theorem isNameStart_of_isDigit {c : Char} (h : c.isDigit = true) : isNameStart c = false := by
  have hc : c.toNat ∈ List.range' 48 10 := by
    have : 48 ≤ c.toNat ∧ c.toNat ≤ 57 := by simpa [Char.isDigit, UInt32.le_iff_toNat_le] using h
    rw [List.mem_range'_1]
    omega
  have hall : ∀ n ∈ List.range' 48 10, isNameStart (Char.ofNat n) = false := by decide +kernel
  simpa only [Char.ofNat_toNat] using hall _ hc

theorem not_operand_of_isSymbolChar {c : Char} (h : isSymbolChar c = true) :
    isNameStart c = false ∧ c.isDigit = false ∧ isBlank c = false ∧ c ≠ '.' := by
  have hall : ("^*/+-%=!".toList.all fun c => !isNameStart c && !c.isDigit && !isBlank c && c != '.') = true := by
    decide +kernel
  have hc := List.all_eq_true.mp hall c (List.contains_iff_mem.mp h)
  simpa only [Bool.and_eq_true, Bool.not_eq_true', bne_iff_ne, and_assoc] using hc

theorem isNameChar_of_isNameStart {c : Char} (h : isNameStart c = true) : isNameChar c = true := by
  unfold isNameStart at h
  unfold isNameChar Text.isAlphanumeric
  rcases Bool.or_eq_true_iff.mp h with h | h <;> simp [h]

theorem isBlank_of_isNameChar {c : Char} (h : isNameChar c = true) : isBlank c = false :=
  Bool.eq_false_iff.mpr fun hb => Bool.false_ne_true ((not_token_of_isBlank hb).1.symm.trans h)

/-- Nothing follows, or a blank. -/
def Ends (rest : List Char) : Prop :=
  ∀ c ∈ rest.head?, isBlank c = true

/-! ### What is written is scanned -/

theorem run_of_append {p : Char → Bool} {cs rest : List Char} (h : ∀ c ∈ cs, p c = true)
    (hr : ∀ c ∈ rest.head?, p c = false) : run p (cs ++ rest) = (cs, rest) := by
  have hstop : rest.takeWhile p = [] ∧ rest.dropWhile p = rest := by
    cases rest with
    | nil => exact ⟨rfl, rfl⟩
    | cons c rest => simp [hr c rfl]
  rw [run, List.takeWhile_append_of_pos h, List.dropWhile_append_of_pos h, hstop.1, hstop.2, List.append_nil]

theorem segment?_append {segment rest : List Char} (h : IsSegment segment) (hr : ∀ c ∈ rest.head?, isNameChar c = false) :
    segment? (segment ++ rest) = some (segment, rest) := by
  cases segment with
  | nil => exact h.elim
  | cons c cs =>
    obtain ⟨hc, hcs⟩ := h
    simp only [List.cons_append, segment?, hc, if_true, run_of_append hcs hr]

/-- A segment ends before a dot and before what ends the token. -/
theorem not_nameChar_of_dotted {segments : List (List Char)} {rest : List Char} (hr : Ends rest) :
    ∀ c ∈ (segments.flatMap ('.' :: ·) ++ rest).head?, isNameChar c = false := by
  cases segments with
  | nil => exact fun c hc => (not_token_of_isBlank (hr c hc)).1
  | cons segment segments =>
    rintro c ⟨⟩
    decide +kernel

theorem moreSegments_append {segments : List (List Char)} (h : ∀ segment ∈ segments, IsSegment segment)
    {rest : List Char} (hr : Ends rest) :
    moreSegments (segments.flatMap ('.' :: ·) ++ rest) = (segments, rest) := by
  induction segments with
  | nil =>
    rw [List.flatMap_nil, List.nil_append]
    unfold moreSegments
    split
    · exact absurd rfl (not_token_of_isBlank (hr _ rfl)).2.2.2
    · rfl
  | cons segment segments ih =>
    obtain ⟨hsegment, hsegments⟩ := List.forall_mem_cons.mp h
    have hnext := segment?_append hsegment (@not_nameChar_of_dotted segments rest hr)
    rw [List.flatMap_cons, List.append_assoc, List.cons_append, moreSegments]
    split
    · rename_i found rest' hs
      rw [hnext] at hs
      cases hs
      rw [ih hsegments]
    · rename_i hs
      rw [hnext] at hs
      cases hs

theorem name?_append {segment : List Char} {segments : List (List Char)} (h : IsSegment segment)
    (hs : ∀ segment ∈ segments, IsSegment segment) {rest : List Char} (hr : Ends rest) :
    name? (segment ++ segments.flatMap ('.' :: ·) ++ rest) =
      some (.name ((segment :: segments).map String.ofList), rest) := by
  rw [List.append_assoc, name?, segment?_append h (not_nameChar_of_dotted hr)]
  simp only [moreSegments_append hs hr]

theorem name?_of_not_start {c : Char} {cs : List Char} (h : isNameStart c = false) : name? (c :: cs) = none := by
  simp [name?, segment?, h]

theorem numberChars?_append {cs : List Char} (h : IsNumber cs) {rest : List Char} (hr : Ends rest) :
    numberChars? (cs ++ rest) = some (cs, rest) := by
  have hstop : ∀ c ∈ rest.head?, c.isDigit = false := fun c hc => (not_token_of_isBlank (hr c hc)).2.1
  cases h with
  | numeral h =>
    obtain ⟨c, more, rfl, hc⟩ := h.exists_digit
    simp only [List.cons_append, numberChars?, hc, if_true]
    generalize hcs : c :: more = cs at h
    rw [← List.cons_append, hcs]
    cases h with
    | whole hne hd =>
      rw [run_of_append hd hstop]
      split
      · rename_i heq
        cases heq
        exact absurd rfl (not_token_of_isBlank (hr _ rfl)).2.2.2
      · rfl
    | point hne hd hp =>
      rw [List.append_assoc, List.cons_append, run_of_append hd (by rintro c ⟨⟩; rfl)]
      simp only [run_of_append hp hstop]
  | @fraction places hne hp =>
    have hpoint : ('.').isDigit = false := rfl
    simp only [List.cons_append, numberChars?, hpoint, Bool.false_eq_true, if_false, if_true, run_of_append hp hstop]

theorem IsNumber.exists_start {cs : List Char} (h : IsNumber cs) :
    ∃ c rest, cs = c :: rest ∧ isNameStart c = false ∧ isBlank c = false := by
  cases h with
  | numeral h =>
    obtain ⟨c, rest, rfl, hc⟩ := h.exists_digit
    exact ⟨c, rest, rfl, isNameStart_of_isDigit hc, Decimal.isBlank_of_isDigit hc⟩
  | @fraction places => exact ⟨'.', places, rfl, by decide +kernel, by decide⟩

theorem exists_start_of_symbol {s : String} (h : (symbol s).WellFormed) :
    ∃ c rest, s.toList = c :: rest ∧ isSymbolChar c = true := by
  obtain ⟨hne, hs⟩ := h
  obtain ⟨c, rest, hcs⟩ := List.exists_cons_of_ne_nil fun hnil => hne (String.toList_eq_nil_iff.mp hnil)
  exact ⟨c, rest, hcs, hs c (hcs ▸ List.mem_cons_self)⟩

theorem toList_text_name (segment : String) (path : List String) :
    (name (segment :: path)).text.toList = segment.toList ++ (path.map String.toList).flatMap ('.' :: ·) := by
  show (String.intercalate "." (segment :: path)).toList = _
  induction path generalizing segment with
  | nil => simp
  | cons next path ih =>
    rw [String.intercalate_cons_cons, String.toList_append, ih next, String.toList_append, List.map_cons,
      List.flatMap_cons, List.append_assoc]
    rfl

/-- A well-formed token is found where nothing or a blank follows it. -/
theorem next?_append {token : Token} (h : token.WellFormed) {rest : List Char} (hr : Ends rest) :
    next? (token.text.toList ++ rest) = some (token, rest) := by
  cases token with
  | name path =>
    obtain ⟨hne, hsegments⟩ := h
    obtain ⟨segment, path, rfl⟩ := List.exists_cons_of_ne_nil hne
    obtain ⟨hsegment, hpath⟩ := List.forall_mem_cons.mp hsegments
    have hname := name?_append hsegment (List.forall_mem_map.mpr hpath) hr
    rw [next?, toList_text_name, hname]
    simp [Function.comp_def]
  | number digits =>
    obtain ⟨c, cs, hcs, hc, -⟩ := h.exists_start
    have hname : name? (digits.toList ++ rest) = none := by
      rw [hcs]
      exact name?_of_not_start hc
    simp only [text, next?, hname, number?, numberChars?_append h hr, Option.map_some, String.ofList_toList]
    rfl
  | symbol s =>
    -- Neither a name nor a number begins as a symbol does, so their readers take nothing.
    obtain ⟨c, cs, hcs, hc⟩ := exists_start_of_symbol h
    obtain ⟨hstart, hdigit, -, hpoint⟩ := not_operand_of_isSymbolChar hc
    have hname : name? (s.toList ++ rest) = none := by
      rw [hcs]
      exact name?_of_not_start hstart
    have hnumber : number? (s.toList ++ rest) = none := by
      simp [hcs, number?, numberChars?, hdigit, hpoint]
    have hrun : run isSymbolChar (s.toList ++ rest) = (s.toList, rest) :=
      run_of_append h.2 fun c hc => (not_token_of_isBlank (hr c hc)).2.2.1
    have hsymbol : symbol? (s.toList ++ rest) = some (symbol s, rest) := by
      rw [symbol?, hrun]
      split
      · rename_i heq
        rw [hcs] at heq
        cases heq
      · rename_i heq
        cases heq
        rw [String.ofList_toList]
    simp only [text, next?, hname, hnumber, hsymbol]
    rfl

theorem WellFormed.exists_start {token : Token} (h : token.WellFormed) :
    ∃ c rest, token.text.toList = c :: rest ∧ isBlank c = false := by
  cases token with
  | name path =>
    obtain ⟨hne, hsegments⟩ := h
    obtain ⟨segment, path, rfl⟩ := List.exists_cons_of_ne_nil hne
    have hsegment := hsegments segment List.mem_cons_self
    rw [toList_text_name]
    cases hcs : segment.toList with
    | nil =>
      rw [hcs] at hsegment
      exact hsegment.elim
    | cons c cs =>
      rw [hcs] at hsegment
      exact ⟨c, _, rfl, isBlank_of_isNameChar (isNameChar_of_isNameStart hsegment.1)⟩
  | number digits =>
    obtain ⟨c, rest, hcs, -, hc⟩ := IsNumber.exists_start h
    exact ⟨c, rest, hcs, hc⟩
  | symbol s =>
    obtain ⟨c, rest, hcs, hc⟩ := exists_start_of_symbol h
    exact ⟨c, rest, hcs, (not_operand_of_isSymbolChar hc).2.2.1⟩

/-! ### Tokens with blanks between them -/

theorem scan_cons {cs rest : List Char} {token : Token} (hne : cs ≠ [])
    (h : next? (cs.dropWhile isBlank) = some (token, rest)) :
    scan cs = (scan (rest.dropWhile isBlank)).map (token :: ·) := by
  rw [scan, if_neg (by simpa using hne)]
  split
  · rename_i hn
    rw [h] at hn
    cases hn
  · rename_i hn
    rw [h] at hn
    cases hn
    rfl

/-- The characters are those of well-formed tokens, with one or more blanks between neighbours. -/
inductive Spaced : List Token → List Char → Prop
  | one {token : Token} (h : token.WellFormed) : Spaced [token] token.text.toList
  | more {token : Token} {tokens : List Token} {gap cs : List Char} (h : token.WellFormed) (hne : gap ≠ [])
      (hg : ∀ c ∈ gap, isBlank c = true) (rest : Spaced tokens cs) :
      Spaced (token :: tokens) (token.text.toList ++ (gap ++ cs))

namespace Spaced

variable {tokens more : List Token} {cs cs' gap : List Char}

theorem append (h : Spaced tokens cs) (hne : gap ≠ []) (hg : ∀ c ∈ gap, isBlank c = true) (h' : Spaced more cs') :
    Spaced (tokens ++ more) (cs ++ (gap ++ cs')) := by
  induction h with
  | one h => exact .more h hne hg h'
  | more h hne' hg' _ ih =>
    rw [List.append_assoc, List.append_assoc]
    exact .more h hne' hg' ih

theorem exists_start (h : Spaced tokens cs) : ∃ c rest, cs = c :: rest ∧ isBlank c = false := by
  cases h with
  | one h => exact h.exists_start
  | more h =>
    obtain ⟨c, rest, hcs, hc⟩ := h.exists_start
    exact ⟨c, rest ++ _, by rw [hcs]; rfl, hc⟩

theorem ne_nil (h : Spaced tokens cs) : cs ≠ [] := by
  obtain ⟨c, rest, rfl, -⟩ := h.exists_start
  exact List.cons_ne_nil c rest

theorem dropWhile_isBlank (h : Spaced tokens cs) : cs.dropWhile isBlank = cs := by
  obtain ⟨c, rest, rfl, hc⟩ := h.exists_start
  exact List.dropWhile_cons_of_neg (by simp [hc])

/-- The tokens are found again. -/
theorem scan_eq (h : Spaced tokens cs) : scan cs = some tokens := by
  induction h with
  | @one token h =>
    have hs := Spaced.one h
    have hnext := @next?_append token h [] nofun
    rw [List.append_nil, ← hs.dropWhile_isBlank] at hnext
    rw [scan_cons hs.ne_nil hnext, List.dropWhile_nil, scan]
    rfl
  | @more token tokens gap cs h hne hg hrest ih =>
    have hs := Spaced.more h hne hg hrest
    have hends : Ends (gap ++ cs) := by
      obtain ⟨c, gap, rfl⟩ := List.exists_cons_of_ne_nil hne
      rintro d ⟨⟩
      exact hg c List.mem_cons_self
    have hnext := next?_append h hends
    rw [← hs.dropWhile_isBlank] at hnext
    rw [scan_cons hs.ne_nil hnext, List.dropWhile_append_of_pos hg, hrest.dropWhile_isBlank, ih]
    rfl

end Spaced
end Token
end Letterpress
