import Letterpress.Proofs.Formula.Outcome
import Letterpress.Proofs.Formula.Precedence
import Letterpress.Proofs.Formula.Scanning
import Letterpress.Proofs.Param.Validation
import Letterpress.Proofs.Template.FormulaTable

/-! Formulas over numbers. An operation makes a number of two numbers, and its text reads as a number again; only a
    comparison makes a truth value, with which nothing can be computed or compared. Comparisons bind the least,
    so that one stands at the root of its formula or as the left operand of another one: a formula over
    numbers comes to a text as long as it compares at most once. -/

namespace Letterpress

/-- The token is one of the two operators that compare. -/
def Token.isComparison : Token → Bool
  | symbol s => s == "==" || s == "!="
  | _ => false

theorem Token.isComparison_operator (op : Operator) : (symbol op.symbol).isComparison = op.compares := by
  cases op <;> decide

namespace Operator

theorem precedence_of_compares {op : Operator} (h : op.compares = true) : op.precedence = 5 := by
  cases op <;> first | rfl | cases h

theorem lt_precedence_of_not_compares {op : Operator} (h : op.compares = false) : 5 < op.precedence := by
  cases op <;> first | decide | cases h

theorem le_precedence (op : Operator) : 5 ≤ op.precedence := by
  cases op <;> decide

end Operator

/-! ### Texts that are numbers -/

namespace Decimal

/-- A number token reads as a number. -/
theorem numeric_of_isNumber {text : String} (h : Token.IsNumber text.toList) : Numeric text := by
  generalize hcs : text.toList = cs at h
  rw [← String.ofList_toList (s := text), hcs]
  cases h with
  | numeral h =>
    exact (numeric_of_magnitude (signed_of_numeral h) (magnitude?_of_numeral h) fun _ => isBlank_of_mem_numeral h).1
  | @fraction places hne hp =>
    refine (numeric_of_magnitude rfl (magnitude?_of_fraction hne hp) ?_).1
    exact List.forall_mem_cons.mpr ⟨by decide, fun c hc => isBlank_of_isDigit (hp c hc)⟩

/-- A whole number reads as a number. -/
theorem isSome_read?_of_readInt64? {text : String} (h : (readInt64? text).isSome = true) : (read? text).isSome = true := by
  obtain ⟨n, hn⟩ := Option.isSome_iff_exists.mp h
  have hn := (Option.filter_eq_some_iff.mp hn).1
  unfold readInt? at hn
  unfold read?
  dsimp only at hn ⊢
  split at hn
  · rename_i hd
    rw [areDigits, Bool.and_eq_true, Bool.not_eq_true', List.isEmpty_eq_false_iff, List.all_eq_true] at hd
    rw [Option.isSome_map]
    exact magnitude?_of_numeral (.whole hd.1 hd.2)
  · cases hn

end Decimal

namespace Param

/-- The text is the content of an element that an integer or a float parameter accepts. -/
def TakesNumber (text : String) : Prop :=
  ∃ ctx name required form e value, (form = .integer ∨ form = .float) ∧ plainText e = .ok text ∧
    (Param.text name required form).validate ctx e = .ok value

/-- Integers are numbers, and a float parameter accepts every number. -/
theorem takesNumber_iff {text : String} : TakesNumber text ↔ Decimal.Numeric text := by
  constructor
  · rintro ⟨ctx, name, required, form, e, value, hform, htext, hvalid⟩
    obtain ⟨content, hcontent, hread⟩ := validate_text_eq_ok.mp hvalid
    rw [htext] at hcontent
    cases hcontent
    rcases hform with rfl | rfl
    · cases readText_eq_ok.mp hread with
      | integer hint => exact Decimal.isSome_read?_of_readInt64? hint
    · cases readText_eq_ok.mp hread with
      | float hfloat => exact hfloat
  · intro h
    exact ⟨emptySite, "n", true, .float, ⟨{ name := "n" }, [.text text]⟩, .text (Text.trim text), Or.inr rfl, rfl,
      validate_text_eq_ok.mpr ⟨text, rfl, readText_eq_ok.mpr (.float h)⟩⟩

end Param

namespace Formula
open Decimal (Numeric)

variable {scope : Scope}

/-! ### Where comparisons stand -/

/-- How many of the tokens compare. -/
def comparisons (tokens : List Token) : Nat :=
  tokens.countP Token.isComparison

theorem comparisons_binary (op : Operator) (left right : Formula) :
    comparisons (binary op left right).tokens =
      comparisons left.tokens + comparisons right.tokens + op.compares.toNat := by
  rw [tokens, comparisons, List.countP_append, List.countP_cons, Token.isComparison_operator]
  simp only [comparisons]
  cases op.compares with
  | false => simp
  | true =>
    simp
    omega

/-- An operation that binds more tightly than comparisons has none inside it. -/
theorem comparisons_eq_zero {e : Formula} (he : e.IsPrecedenceTree) (hroot : ∀ o ∈ e.root?, 5 < o.precedence) :
    comparisons e.tokens = 0 := by
  refine List.countP_eq_zero.mpr fun token ht hc => ?_
  obtain ⟨op, rfl⟩ : ∃ op : Operator, token = .symbol op.symbol := by
    cases token with
    | symbol s =>
      rcases Bool.or_eq_true_iff.mp hc with h | h
      · exact ⟨.equal, congrArg _ (beq_iff_eq.mp h)⟩
      · exact ⟨.notEqual, congrArg _ (beq_iff_eq.mp h)⟩
    | _ => cases hc
  rw [Token.isComparison_operator] at hc
  have hle : 6 ≤ op.precedence := le_precedence_of_mem he hroot ht
  rw [Operator.precedence_of_compares hc] at hle
  omega

/-- What stands behind an operator is free of comparisons. -/
theorem comparisons_right {op : Operator} {left right : Formula} (h : (binary op left right).IsPrecedenceTree) :
    comparisons right.tokens = 0 :=
  comparisons_eq_zero h.2.2.2 fun o ho => Nat.lt_of_le_of_lt op.le_precedence (h.2.1 o ho)

/-- What stands before an operator that does not compare is free of comparisons, too. -/
theorem comparisons_left {op : Operator} {left right : Formula} (h : (binary op left right).IsPrecedenceTree)
    (hop : op.compares = false) : comparisons left.tokens = 0 :=
  comparisons_eq_zero h.2.2.1 fun o ho => Nat.lt_of_lt_of_le (Operator.lt_precedence_of_not_compares hop) (h.1 o ho)

/-! ### What a formula over numbers comes to -/

/-- Every variable of the formula stands for a number, and so does every constant. -/
structure OverNumbers (scope : Scope) (f : Formula) : Prop where
  vars : ∀ path, var path ∈ f.parts →
    ∃ value text, scope.lookup? path = some value ∧ value.render = .ok text ∧ Numeric text
  constants : ∀ text, constant text ∈ f.parts → Numeric text

theorem OverNumbers.operands {op : Operator} {left right : Formula} (h : OverNumbers scope (binary op left right)) :
    OverNumbers scope left ∧ OverNumbers scope right where
  left := ⟨fun path hm => h.vars path (mem_parts_binary.mpr (Or.inr (Or.inl hm))),
    fun text hm => h.constants text (mem_parts_binary.mpr (Or.inr (Or.inl hm)))⟩
  right := ⟨fun path hm => h.vars path (mem_parts_binary.mpr (Or.inr (Or.inr hm))),
    fun text hm => h.constants text (mem_parts_binary.mpr (Or.inr (Or.inr hm)))⟩

/-- What is known of a formula over numbers with so many comparisons. -/
def Verdict.ofComparisons : Nat → Verdict
  | 0 => number
  | 1 => words
  | _ => fails

namespace Verdict

theorem ofComparisons_eq_fails {n : Nat} : ofComparisons n = fails ↔ 2 ≤ n := by
  match n with
  | 0 | 1 => simp [ofComparisons]
  | n + 2 => simp [ofComparisons]

theorem ofComparisons_eq_text {n : Nat} : ofComparisons n = words ∨ ofComparisons n = number ↔ n ≤ 1 := by
  match n with
  | 0 | 1 => simp [ofComparisons]
  | n + 2 => simp [ofComparisons]

theorem ofComparisons_ne_waits (n : Nat) : ofComparisons n ≠ waits := by
  match n with
  | 0 | 1 | n + 2 => nofun

/-- What one more operation with a number makes of the verdict. -/
theorem combine_number {op : Operator} (n : Nat) (h : op.compares = false → n = 0) :
    combine op (ofComparisons n) number = ofComparisons (n + op.compares.toNat) := by
  cases hc : op.compares with
  | false =>
    rw [h hc]
    simp [ofComparisons, combine, hc]
  | true =>
    rcases n with - | - | n
    · simp [ofComparisons, combine, hc]
    · rfl
    · rfl

end Verdict

theorem verdict_of_comparisons {f : Formula} (htree : f.IsPrecedenceTree) (h : OverNumbers scope f) :
    Verdict.of (f.eval scope) = Verdict.ofComparisons (comparisons f.tokens) := by
  induction f with
  | var path =>
    obtain ⟨value, text, hl, hr, hn⟩ := h.vars path (self_mem_parts _)
    have heval : (var path).eval scope = .ok (.resolved text) := by simp only [eval, hl, hr]
    rw [heval, of_eq_number.mpr hn]
    rfl
  | constant text => exact of_eq_number.mpr (h.constants text (self_mem_parts _))
  | binary op left right ihl ihr =>
    rw [verdict_binary, ihl htree.2.2.1 h.operands.1, ihr htree.2.2.2 h.operands.2, comparisons_binary,
      comparisons_right htree]
    exact Verdict.combine_number _ (comparisons_left htree)

/-! ### Formulas that have been read -/

theorem token_of_mem_parts {f : Formula} {text : String} (h : constant text ∈ f.parts) : .number text ∈ f.tokens := by
  induction f with
  | var path => simp [parts] at h
  | constant other =>
    cases List.mem_singleton.mp h
    exact List.mem_singleton.mpr rfl
  | binary op left right ihl ihr =>
    rw [tokens, List.mem_append, List.mem_cons]
    rcases mem_parts_binary.mp h with heq | hm | hm
    · cases heq
    · exact Or.inl (ihl hm)
    · exact Or.inr (Or.inr (ihr hm))

/-- A marker whose formula has numbers for its variables comes to a text if the formula compares at most once; with
    more comparisons it is an error, and it never waits. -/
theorem evaluate_over_numbers {t : Template} (ht : t.Loaded) {text : String} {formula : Formula}
    (hread : parse text = .ok formula)
    (hvars : ∀ path, var path ∈ formula.parts →
      ∃ value shown, scope.lookup? path = some value ∧ value.render = .ok shown ∧ Param.TakesNumber shown) :
    ∃ tokens, Token.scan text.toList = some tokens ∧
      ((∃ result, Expansion.evaluate t scope text = .ok (.resolved result)) ↔ comparisons tokens ≤ 1) ∧
      (2 ≤ comparisons tokens →
        ∃ fault : EvaluationFault, Expansion.evaluate t scope text = .error (.formula text fault)) ∧
      Expansion.evaluate t scope text ≠ .ok .deferred := by
  have heval : Expansion.evaluate t scope text = (formula.eval scope).mapError (.formula text) := by
    rw [Expansion.evaluate, ht.formula?_eq, hread]
    rfl
  unfold parse at hread
  split at hread
  · cases hread
  rename_i tokens hscan
  obtain ⟨rfl, htree⟩ := ofTokens_sound hread
  -- The variables stand for numbers by the hypothesis, and the constants are numbers as they have been scanned.
  have hover : OverNumbers scope formula := by
    refine ⟨fun path hm => ?_, fun constant hm => ?_⟩
    · obtain ⟨value, shown, hl, hr, hn⟩ := hvars path hm
      exact ⟨value, shown, hl, hr, Param.takesNumber_iff.mp hn⟩
    · exact Decimal.numeric_of_isNumber (Token.wellFormed_of_scan hscan _ (token_of_mem_parts hm))
  have hverdict := verdict_of_comparisons htree hover
  refine ⟨_, hscan, ?_, fun h => ?_, fun h => ?_⟩
  · simp only [heval, mapError_eq_ok]
    rw [← Verdict.of_eq_text, hverdict]
    exact Verdict.ofComparisons_eq_text
  · obtain ⟨fault, hfault⟩ := Verdict.of_eq_fails.mp (hverdict.trans (Verdict.ofComparisons_eq_fails.mpr h))
    refine ⟨⟨fault, ne_unreadable_of_eval hfault⟩, ?_⟩
    rw [heval, hfault]
    rfl
  · rw [heval, mapError_eq_ok, ← Verdict.of_eq_waits, hverdict] at h
    exact Verdict.ofComparisons_ne_waits _ h

/-- The price stands between blanks, and the discount is without a bound. -/
def priceScope : Scope :=
  Scope.ofParams [("price", .text " 7 "), ("discount", .record [("unit", .text "EUR"), ("text", .text "-inf")])]

theorem priceScope_numbers : ∀ path ∈ [["price"], ["discount"]],
    ∃ value shown, priceScope.lookup? path = some value ∧ value.render = .ok shown ∧ Param.TakesNumber shown := by
  intro path hm
  rcases List.mem_pair.mp hm with rfl | rfl
  · exact ⟨_, " 7 ", rfl, rfl, Param.takesNumber_iff.mpr (by decide +kernel)⟩
  · exact ⟨_, "-inf", rfl, rfl, Param.takesNumber_iff.mpr (by decide +kernel)⟩

theorem price_compares_once_or_fails :
    (∃ result, Expansion.evaluate Template.invoice priceScope "price - discount==.5*price" = .ok (.resolved result)) ∧
    ∃ fault : EvaluationFault, Expansion.evaluate Template.invoice priceScope "price==7. != discount % 2" =
      .error (.formula "price==7. != discount % 2" fault) := by
  have hloaded := Template.invoice_ofFile.loaded
  have honce : parse "price - discount==.5*price" =
      .ok (.binary .equal (.binary .minus (.var ["price"]) (.var ["discount"]))
        (.binary .times (.constant ".5") (.var ["price"]))) := by decide +kernel
  have htwice : parse "price==7. != discount % 2" =
      .ok (.binary .notEqual (.binary .equal (.var ["price"]) (.constant "7."))
        (.binary .modulo (.var ["discount"]) (.constant "2"))) := by decide +kernel
  obtain ⟨tokens, hscan, hone, -, -⟩ := evaluate_over_numbers hloaded honce fun path hm =>
    priceScope_numbers path (by simpa [parts, or_comm, or_left_comm] using hm)
  obtain ⟨tokens', hscan', -, htwo, -⟩ := evaluate_over_numbers hloaded htwice fun path hm =>
    priceScope_numbers path (by simpa [parts] using hm)
  have hcount : (Token.scan "price - discount==.5*price".toList).map comparisons = some 1 := by decide +kernel
  have hcount' : (Token.scan "price==7. != discount % 2".toList).map comparisons = some 2 := by decide +kernel
  rw [hscan, Option.map_some, Option.some.injEq] at hcount
  rw [hscan', Option.map_some, Option.some.injEq] at hcount'
  exact ⟨hone.mpr (by omega), htwo (by omega)⟩

end Formula
end Letterpress
