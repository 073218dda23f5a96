import Letterpress.Formula.Evaluation
import Letterpress.Proofs.Decimal.Numeral
import Letterpress.Proofs.Formula.Outcome
import Letterpress.Proofs.Formula.Precedence
import Letterpress.Proofs.Formula.Scanning
import Letterpress.Proofs.Marker.Split
import Letterpress.Template.Loading

/-! Formulas bring no brace into a text: the constants of a formula that has been read are digits and
    points, and numbers and truth values are written without braces. So what a formula comes to has a brace
    only if a value it looks up has one. -/

namespace Letterpress
open Text

/-! ### Numbers and truth values -/

theorem Text.unbraced_ofList {cs : List Char} (h : ∀ c ∈ cs, c ≠ '{' ∧ c ≠ '}') : Unbraced (String.ofList cs) := by
  intro c hc
  rw [String.toList_ofList] at hc
  exact h c hc

theorem Text.not_brace_of_isDigit {c : Char} (h : c.isDigit = true) : c ≠ '{' ∧ c ≠ '}' := by
  constructor
  · rintro rfl
    cases h
  · rintro rfl
    cases h

theorem Text.unbraced_toString (n : Nat) : Unbraced (toString n) := by
  rw [Nat.toString_eq_ofList_toDigits]
  exact unbraced_ofList fun c hc => not_brace_of_isDigit (Nat.isDigit_of_mem_toDigits (by decide) (by decide) hc)

theorem Text.unbraced_toString_int (n : Int) : Unbraced (toString n) := by
  cases n with
  | ofNat n => exact Text.unbraced_toString n
  | negSucc n =>
    have hsign : Unbraced "-" := by decide
    exact hsign.append (Text.unbraced_toString (n + 1))

namespace Decimal

theorem Numeral.not_brace {cs : List Char} (h : Numeral cs) : ∀ c ∈ cs, c ≠ '{' ∧ c ≠ '}' := by
  intro c hc
  rcases h.isDigit_or_point c hc with hd | rfl
  · exact not_brace_of_isDigit hd
  · decide

theorem unbraced_render (x : Float) : Unbraced (render x) := by
  unfold render
  split
  · decide
  · have digits : ∀ c ∈ (if x.isInf then "inf".toList else magnitude x.toBits), c ≠ '{' ∧ c ≠ '}' := by
      intro c hc
      split at hc
      · exact (show Unbraced "inf" by decide) c hc
      · exact (numeral_magnitude x.toBits).not_brace c hc
    dsimp only
    refine unbraced_ofList fun c hc => ?_
    split at hc
    · rcases List.mem_cons.mp hc with rfl | hc
      · decide
      · exact digits c hc
    · exact digits c hc

end Decimal

namespace Operator

theorem unbraced_truth (b : Bool) : Unbraced (truth b) := by
  cases b <;> decide

theorem unbraced_apply (op : Operator) (a b : Float) : Unbraced (op.apply a b) := by
  cases op with
  | equal => exact unbraced_truth _
  | notEqual => exact unbraced_truth _
  | _ => exact Decimal.unbraced_render _

end Operator

/-! ### Constants -/

namespace Token

theorem IsNumber.not_brace {cs : List Char} (h : IsNumber cs) : ∀ c ∈ cs, c ≠ '{' ∧ c ≠ '}' := by
  cases h with
  | numeral h => exact h.not_brace
  | fraction _ hp => exact List.forall_mem_cons.mpr ⟨by decide, fun c hc => not_brace_of_isDigit (hp c hc)⟩

theorem unbraced_of_mem_scan {cs : List Char} {tokens : List Token} {text : String} (h : scan cs = some tokens)
    (hm : .number text ∈ tokens) : Unbraced text :=
  IsNumber.not_brace (wellFormed_of_scan h _ hm)

end Token

namespace Formula

/-- The constants of a formula that is read have no brace. -/
theorem unbraced_of_parse {source text : String} {formula : Formula} (h : parse source = .ok formula)
    (hm : .number text ∈ formula.tokens) : Unbraced text := by
  unfold parse at h
  split at h
  · cases h
  · rename_i tokens hs
    rw [(ofTokens_sound h).1] at hm
    exact Token.unbraced_of_mem_scan hs hm

/-- What a formula comes to has no brace if neither the values in the scope nor the constants have one. -/
theorem unbraced_of_eval {scope : Scope} {formula : Formula} {text : String}
    (hs : ∀ path value text, scope.lookup? path = some value → value.render = .ok text → Unbraced text)
    (hc : ∀ text, .number text ∈ formula.tokens → Unbraced text)
    (h : formula.eval scope = .ok (.resolved text)) : Unbraced text := by
  cases formula with
  | var path =>
    unfold eval at h
    split at h
    · cases h
    · rename_i value hl
      split at h
      · rename_i hr
        cases h
        exact hs path value text hl hr
      · cases h
  | constant content =>
    cases h
    exact hc text (List.mem_singleton.mpr rfl)
  | binary op left right =>
    obtain ⟨a, -, h⟩ := bind_eq_ok.mp h
    obtain ⟨b, -, h⟩ := bind_eq_ok.mp h
    obtain ⟨-, -, x, y, -, -, -, -, rfl⟩ := combine_eq_resolved.mp h
    exact Operator.unbraced_apply op x y

end Formula
end Letterpress
