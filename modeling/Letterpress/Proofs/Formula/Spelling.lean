import Letterpress.Proofs.Formula.Scanning

/-! Tokens and the texts that they are scanned from. Scanning leaves nothing out but blanks: one behind the other, its
    tokens are the text without them. In turn any blanks between neighbours keep well-formed tokens apart. -/

namespace Letterpress
namespace Token
open Text (isBlank)

variable {cs rest segment text : List Char} {token : Token} {tokens : List Token}

/-! ### What is taken off the front -/

theorem append_of_segment? (h : segment? cs = some (segment, rest)) : segment ++ rest = cs := by
  cases cs with
  | nil => cases h
  | cons c cs =>
    simp only [segment?] at h
    split at h
    · cases h
      exact congrArg (c :: ·) (run_append isNameChar cs)
    · cases h

theorem append_moreSegments (cs : List Char) : (moreSegments cs).1.flatMap ('.' :: ·) ++ (moreSegments cs).2 = cs := by
  fun_induction moreSegments cs with
  | case1 after segment rest h _ segments rest' hs ih =>
    rw [hs] at ih
    rw [List.flatMap_cons, List.append_assoc, ih, List.cons_append, append_of_segment? h]
  | case2 => rfl
  | case3 => rfl

theorem append_of_name? (h : name? cs = some (token, rest)) : token.text.toList ++ rest = cs := by
  unfold name? at h
  split at h
  · cases h
  · rename_i segment after hs
    cases h
    have hstrings : String.toList ∘ String.ofList = id := funext fun _ => String.toList_ofList
    rw [List.map_cons, toList_text_name, String.toList_ofList, List.map_map, hstrings, List.map_id, List.append_assoc,
      append_moreSegments, append_of_segment? hs]

theorem append_of_numberChars? (h : numberChars? cs = some (text, rest)) : text ++ rest = cs := by
  unfold numberChars? at h
  split at h
  · cases h
  · rename_i c after
    split at h
    · have hrun := run_append Char.isDigit (c :: after)
      split at h
      · rename_i whole places heq
        cases h
        rw [heq] at hrun
        rw [List.append_assoc, List.cons_append, List.takeWhile_append_dropWhile]
        exact hrun
      · cases h
        exact hrun
    · split at h
      · rename_i hpoint
        have hrun := run_append Char.isDigit after
        split at h
        · cases h
        · rename_i fraction rest' _ heq
          cases h
          rw [heq] at hrun
          rw [hpoint, List.cons_append, hrun]
      · cases h

theorem append_of_number? (h : number? cs = some (token, rest)) : token.text.toList ++ rest = cs := by
  obtain ⟨⟨text, rest'⟩, hchars, he⟩ := Option.map_eq_some_iff.mp h
  cases he
  show (String.ofList text).toList ++ rest = cs
  rw [String.toList_ofList, append_of_numberChars? hchars]

theorem append_of_symbol? (h : symbol? cs = some (token, rest)) : token.text.toList ++ rest = cs := by
  unfold symbol? at h
  split at h
  · cases h
  · rename_i text after _ heq
    cases h
    have hrun := run_append isSymbolChar cs
    rw [heq] at hrun
    show (String.ofList text).toList ++ rest = cs
    rw [String.toList_ofList]
    exact hrun

/-- A token is what stands at the front, as it is written there. -/
theorem append_of_next? (h : next? cs = some (token, rest)) : token.text.toList ++ rest = cs := by
  rcases next?_eq_some h with h | h | h
  · exact append_of_name? h
  · exact append_of_number? h
  · exact append_of_symbol? h

/-! ### Blanks -/

theorem not_blank_of_isSegment (h : IsSegment segment) : ∀ c ∈ segment, isBlank c = false := by
  cases segment with
  | nil => exact h.elim
  | cons first more =>
    refine List.forall_mem_cons.mpr ⟨isBlank_of_isNameChar (isNameChar_of_isNameStart h.1), fun c hc => ?_⟩
    exact isBlank_of_isNameChar (h.2 c hc)

theorem not_blank_of_isNumber (h : IsNumber cs) : ∀ c ∈ cs, isBlank c = false := by
  have hdigit : ∀ c : Char, c.isDigit = true ∨ c = '.' → isBlank c = false := by
    rintro c (hc | rfl)
    · exact Decimal.isBlank_of_isDigit hc
    · decide
  cases h with
  | numeral h => exact fun c hc => hdigit c (h.isDigit_or_point c hc)
  | fraction _ hp =>
    exact List.forall_mem_cons.mpr ⟨hdigit _ (Or.inr rfl), fun c hc => hdigit c (Or.inl (hp c hc))⟩

/-- There is no blank in a token. -/
theorem WellFormed.not_blank (h : token.WellFormed) : ∀ c ∈ token.text.toList, isBlank c = false := by
  cases token with
  | name path =>
    obtain ⟨hne, hsegments⟩ := h
    obtain ⟨first, path, rfl⟩ := List.exists_cons_of_ne_nil hne
    obtain ⟨hfirst, hpath⟩ := List.forall_mem_cons.mp hsegments
    rw [toList_text_name, List.forall_mem_append]
    refine ⟨not_blank_of_isSegment hfirst, fun c hc => ?_⟩
    obtain ⟨dotted, hdotted, hc⟩ := List.mem_flatMap.mp hc
    obtain ⟨segment, hsegment, rfl⟩ := List.mem_map.mp hdotted
    rcases List.mem_cons.mp hc with rfl | hc
    · decide
    · exact not_blank_of_isSegment (hpath segment hsegment) c hc
  | number digits => exact not_blank_of_isNumber h
  | symbol s => exact fun c hc => (not_operand_of_isSymbolChar (h.2 c hc)).2.2.1

/-- The characters without the blank ones. -/
def dense (cs : List Char) : List Char :=
  cs.filter (!isBlank ·)

theorem dense_append (front rest : List Char) : dense (front ++ rest) = dense front ++ dense rest :=
  List.filter_append ..

theorem dense_of_blank (h : ∀ c ∈ cs, isBlank c = true) : dense cs = [] :=
  List.filter_eq_nil_iff.mpr fun c hc => by simp [h c hc]

theorem WellFormed.dense_text (h : token.WellFormed) : dense token.text.toList = token.text.toList :=
  List.filter_eq_self.mpr fun c hc => by simp [h.not_blank c hc]

theorem dense_dropWhile (cs : List Char) : dense (cs.dropWhile isBlank) = dense cs := by
  have hfront : ∀ c ∈ cs.takeWhile isBlank, isBlank c = true := List.all_eq_true.mp List.all_takeWhile
  conv_rhs => rw [← List.takeWhile_append_dropWhile (p := isBlank) (l := cs)]
  rw [dense_append, dense_of_blank hfront, List.nil_append]

/-- The tokens of a text are all of it but the blanks. -/
theorem text_of_scan (h : scan cs = some tokens) : tokens.flatMap (·.text.toList) = dense cs := by
  fun_induction scan cs generalizing tokens with
  | case1 cs hnil =>
    cases h
    rw [List.isEmpty_iff.mp hnil]
    rfl
  | case2 cs hnil hnone => cases h
  | case3 cs hnil token rest hnext _ ih =>
    obtain ⟨more, hmore, rfl⟩ := Option.map_eq_some_iff.mp h
    rw [List.flatMap_cons, ih hmore, dense_dropWhile, ← dense_dropWhile cs, ← append_of_next? hnext, dense_append,
      (wellFormed_of_next? hnext).dense_text]

/-! ### Tokens and gaps -/

/-- The tokens as they are written, with the next of the gaps behind each but the last. -/
def spread : (Nat → List Char) → List Token → List Char
  | _, [] => []
  | _, [token] => token.text.toList
  | gaps, token :: tokens => token.text.toList ++ (gaps 0 ++ spread (fun n => gaps (n + 1)) tokens)

theorem spaced_spread {gaps : Nat → List Char} (hg : ∀ n, gaps n ≠ [] ∧ ∀ c ∈ gaps n, isBlank c = true)
    (hne : tokens ≠ []) (h : ∀ token ∈ tokens, token.WellFormed) : Spaced tokens (spread gaps tokens) := by
  induction tokens generalizing gaps with
  | nil => exact absurd rfl hne
  | cons token tokens ih =>
    obtain ⟨htoken, htokens⟩ := List.forall_mem_cons.mp h
    cases tokens with
    | nil => exact .one htoken
    | cons next tokens =>
      exact .more htoken (hg 0).1 (hg 0).2 (ih (fun n => hg (n + 1)) (List.cons_ne_nil _ _) htokens)

/-- The tokens of any text are well formed, and written one behind the other they are the text without its blanks.
    Well-formed tokens with one or more blanks between neighbours are the tokens of the text that they make. -/
theorem scan_inverts_writing :
    (∀ cs tokens, scan cs = some tokens →
      (∀ token ∈ tokens, token.WellFormed) ∧ tokens.flatMap (·.text.toList) = cs.filter (!isBlank ·)) ∧
    ∀ (tokens : List Token) (gaps : Nat → List Char), (∀ token ∈ tokens, token.WellFormed) →
      (∀ n, gaps n ≠ [] ∧ ∀ c ∈ gaps n, isBlank c = true) → scan (spread gaps tokens) = some tokens := by
  refine ⟨fun cs tokens h => ⟨wellFormed_of_scan h, text_of_scan h⟩, fun tokens gaps h hg => ?_⟩
  by_cases hne : tokens = []
  · subst hne
    rw [spread, scan]
    rfl
  · exact (spaced_spread hg hne h).scan_eq

/-- Without the gaps the hyphen would go on with the name, and the point of the first number would stand alone. -/
def rate : List Token :=
  [.name ["net", "rate"], .symbol "-", .number "1.", .number ".5"]

theorem rate_scanned_and_spread :
    scan " net.rate -1.\t.5 ".toList = some rate ∧ rate.flatMap (·.text.toList) = "net.rate-1..5".toList ∧
      scan "net.rate-1..5".toList = none ∧
      spread (fun n => List.replicate (n + 1) ' ') rate = "net.rate -  1.   .5".toList ∧
      scan (spread (fun n => List.replicate (n + 1) ' ') rate) = some rate := by
  have hscan : scan " net.rate -1.\t.5 ".toList = some rate := by decide +kernel
  obtain ⟨hwell, htext⟩ := scan_inverts_writing.1 _ _ hscan
  have hgaps : ∀ n, List.replicate (n + 1) ' ' ≠ [] ∧ ∀ c ∈ List.replicate (n + 1) ' ', isBlank c = true :=
    fun n => ⟨List.cons_ne_nil _ _, fun c hc => (List.mem_replicate.mp hc).2 ▸ rfl⟩
  exact ⟨hscan, htext.trans (by decide), by decide +kernel, by decide, scan_inverts_writing.2 rate _ hwell hgaps⟩

end Token
end Letterpress
