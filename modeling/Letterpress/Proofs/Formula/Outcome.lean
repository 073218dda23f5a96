import Letterpress.Formula.Evaluation
import Letterpress.Proofs.Decimal.Numeral
import Letterpress.Proofs.Result

/-! Which of its three outcomes a formula has: an error, nothing yet, or a text. That hangs only on which of
    its variables are bound to what can stand in text and on which of its operands are numbers, so the
    order of operands makes no difference. An error anywhere in the formula wins over a variable that
    waits anywhere in it, on whichever side of an operation they stand. -/

namespace Letterpress

namespace Operator
open Decimal (Numeric)

theorem not_numeric_truth (b : Bool) : ¬Numeric (truth b) := by
  cases b with
  | false => decide +kernel
  | true => decide +kernel

/-- The operation compares, so that what it makes is a truth value and no number. -/
def compares : Operator → Bool
  | equal | notEqual => true
  | _ => false

theorem numeric_apply (op : Operator) (a b : Float) : Numeric (op.apply a b) ↔ op.compares = false := by
  have number : ∀ x : Float, Numeric (Decimal.render x) ↔ (false : Bool) = false :=
    fun x => iff_of_true (Decimal.numeric_render x) rfl
  have comparison : ∀ b : Bool, Numeric (truth b) ↔ true = false := fun b => iff_of_false (not_numeric_truth b) nofun
  cases op with
  | equal => exact comparison _
  | notEqual => exact comparison _
  | _ => exact number _

end Operator

namespace Formula
open Decimal (Numeric)

variable {scope : Scope}

/-! ### Parts -/

/-- The formula and all formulas inside it. -/
def parts : Formula → List Formula
  | var path => [var path]
  | constant text => [constant text]
  | binary op left right => binary op left right :: (left.parts ++ right.parts)

theorem self_mem_parts (f : Formula) : f ∈ f.parts := by
  cases f <;> exact List.mem_cons_self

theorem mem_parts_binary {op : Operator} {left right g : Formula} :
    g ∈ (binary op left right).parts ↔ g = binary op left right ∨ g ∈ left.parts ∨ g ∈ right.parts := by
  rw [parts, List.mem_cons, List.mem_append]

/-- Some variable of the formula is bound to a value that cannot stand in text. -/
def Unrenderable (scope : Scope) (f : Formula) : Prop :=
  ∃ path value fault, var path ∈ f.parts ∧ scope.lookup? path = some value ∧ value.render = .error fault

/-- Some operation of the formula has a text for both of its operands, and not both are numbers. -/
def Mismatched (scope : Scope) (f : Formula) : Prop :=
  ∃ op left right a b, binary op left right ∈ f.parts ∧ left.eval scope = .ok (.resolved a) ∧
    right.eval scope = .ok (.resolved b) ∧ (¬Numeric a ∨ ¬Numeric b)

/-- Some variable of the formula is bound to nothing. -/
def Waits (scope : Scope) (f : Formula) : Prop :=
  ∃ path, var path ∈ f.parts ∧ scope.lookup? path = none

/-! ### Operations -/

theorem operand_eq_ok {text : String} : (∃ x, operand text = .ok x) ↔ Numeric text := by
  unfold operand Numeric
  split
  · rename_i x hx
    simp [hx]
  · rename_i hx
    simp [hx]

/-- What is known of a result for the operation around it. -/
inductive Verdict where
  | fails
  | waits
  | words
  | number
  deriving DecidableEq

namespace Verdict

/-- What is known of the result of a formula. -/
def of : Except FormulaFault Outcome → Verdict
  | .error _ => fails
  | .ok .deferred => waits
  | .ok (.resolved text) => if Numeric text then number else words

/-- What the operands let be known of an operation. -/
def combine (op : Operator) : Verdict → Verdict → Verdict
  | fails, _ | _, fails => fails
  | waits, _ | _, waits => waits
  | number, number => if op.compares then words else number
  | _, _ => fails

theorem combine_comm (op : Operator) (a b : Verdict) : combine op a b = combine op b a := by
  cases a <;> cases b <;> rfl

theorem of_eq_fails {result : Except FormulaFault Outcome} : of result = fails ↔ ∃ fault, result = .error fault := by
  unfold of
  split
  · simp
  · simp
  · split <;> simp

theorem of_eq_waits {result : Except FormulaFault Outcome} : of result = waits ↔ result = .ok .deferred := by
  unfold of
  split
  · simp
  · simp
  · split <;> simp

theorem of_resolved (text : String) : of (.ok (.resolved text)) = if Numeric text then number else words := rfl

theorem of_eq_text {result : Except FormulaFault Outcome} :
    of result = words ∨ of result = number ↔ ∃ text, result = .ok (.resolved text) := by
  unfold of
  split
  · simp
  · simp
  · split <;> simp

end Verdict

/-- An operation comes to a text if its operands come to numbers. -/
theorem combine_eq_resolved {op : Operator} {a b : Outcome} {text : String} :
    combine op a b = .ok (.resolved text) ↔ ∃ left right x y, a = .resolved left ∧ b = .resolved right ∧
      operand left = .ok x ∧ operand right = .ok y ∧ text = op.apply x y := by
  constructor
  · intro h
    unfold combine at h
    split at h
    · obtain ⟨x, y, hx, hy, heq⟩ := bind_both_eq_ok.mp h
      exact ⟨_, _, x, y, rfl, rfl, hx, hy, Outcome.resolved.inj heq⟩
    · cases h
  · rintro ⟨left, right, x, y, rfl, rfl, hx, hy, rfl⟩
    exact bind_both_eq_ok.mpr ⟨x, y, hx, hy, rfl⟩

theorem combine_numbers {op : Operator} {a b : String} (ha : Numeric a) (hb : Numeric b) :
    ∃ x y, combine op (.resolved a) (.resolved b) = .ok (.resolved (op.apply x y)) := by
  obtain ⟨x, hx⟩ := operand_eq_ok.mpr ha
  obtain ⟨y, hy⟩ := operand_eq_ok.mpr hb
  exact ⟨x, y, by rw [combine, hx, hy]; rfl⟩

theorem combine_words {op : Operator} {a b : String} (h : ¬Numeric a ∨ ¬Numeric b) :
    ∃ fault, combine op (.resolved a) (.resolved b) = .error fault := by
  cases ha : operand a with
  | error fault => exact ⟨fault, by rw [combine, ha]; rfl⟩
  | ok x =>
    cases hb : operand b with
    | error fault => exact ⟨fault, by rw [combine, ha, hb]; rfl⟩
    | ok y =>
      rcases h with h | h
      · exact absurd (operand_eq_ok.mp ⟨x, ha⟩) h
      · exact absurd (operand_eq_ok.mp ⟨y, hb⟩) h

theorem verdict_combine (op : Operator) (a b : Outcome) :
    Verdict.of (combine op a b) = Verdict.combine op (.of (.ok a)) (.of (.ok b)) := by
  cases a with
  | deferred =>
    cases b with
    | deferred => rfl
    | resolved text =>
      rw [Verdict.of_resolved]
      split <;> rfl
  | resolved left =>
    cases b with
    | deferred =>
      rw [Verdict.of_resolved]
      split <;> rfl
    | resolved right =>
      rw [Verdict.of_resolved, Verdict.of_resolved]
      -- Two numbers have a result, and anything else a fault, whatever the operation is.
      by_cases h : Numeric left ∧ Numeric right
      · obtain ⟨x, y, hxy⟩ := @combine_numbers op _ _ h.1 h.2
        rw [hxy, Verdict.of_resolved, if_pos h.1, if_pos h.2, Verdict.combine]
        simp only [Operator.numeric_apply]
        cases op.compares <;> rfl
      · obtain ⟨fault, hf⟩ := @combine_words op left right (not_and_or.mp h)
        rw [hf]
        rcases not_and_or.mp h with h | h
        · rw [if_neg h]
          split <;> rfl
        · rw [if_neg h]
          split <;> rfl

/-- What is known of an operation hangs on its operands only through what is known of these. -/
theorem verdict_binary (scope : Scope) (op : Operator) (left right : Formula) :
    Verdict.of ((binary op left right).eval scope) =
      Verdict.combine op (.of (left.eval scope)) (.of (right.eval scope)) := by
  rw [eval]
  cases left.eval scope with
  | error fault => rfl
  | ok a =>
    cases right.eval scope with
    | error fault =>
      rw [Verdict.combine_comm]
      rfl
    | ok b => exact verdict_combine op a b

/-! ### Errors -/

theorem unrenderable_binary {op : Operator} {left right : Formula} :
    Unrenderable scope (binary op left right) ↔ Unrenderable scope left ∨ Unrenderable scope right := by
  simp only [Unrenderable, mem_parts_binary, reduceCtorEq, false_or, or_and_right, exists_or]

theorem waits_binary {op : Operator} {left right : Formula} :
    Waits scope (binary op left right) ↔ Waits scope left ∨ Waits scope right := by
  simp only [Waits, mem_parts_binary, reduceCtorEq, false_or, or_and_right, exists_or]

theorem mismatched_binary {op : Operator} {left right : Formula} :
    Mismatched scope (binary op left right) ↔ (Mismatched scope left ∨ Mismatched scope right) ∨
      ∃ a b, left.eval scope = .ok (.resolved a) ∧ right.eval scope = .ok (.resolved b) ∧
        (¬Numeric a ∨ ¬Numeric b) := by
  constructor
  · rintro ⟨op', left', right', a, b, hm, h⟩
    rcases mem_parts_binary.mp hm with heq | hm | hm
    · cases heq
      exact Or.inr ⟨a, b, h⟩
    · exact Or.inl (Or.inl ⟨op', left', right', a, b, hm, h⟩)
    · exact Or.inl (Or.inr ⟨op', left', right', a, b, hm, h⟩)
  · rintro ((⟨op', left', right', a, b, hm, h⟩ | ⟨op', left', right', a, b, hm, h⟩) | ⟨a, b, h⟩)
    · exact ⟨op', left', right', a, b, mem_parts_binary.mpr (Or.inr (Or.inl hm)), h⟩
    · exact ⟨op', left', right', a, b, mem_parts_binary.mpr (Or.inr (Or.inr hm)), h⟩
    · exact ⟨op, left, right, a, b, self_mem_parts _, h⟩

theorem Verdict.combine_eq_fails {op : Operator} {a b : Verdict} : combine op a b = fails ↔
    a = fails ∨ b = fails ∨ (a = words ∨ a = number) ∧ (b = words ∨ b = number) ∧ (a ≠ number ∨ b ≠ number) := by
  cases a <;> cases b <;> simp [combine]
  split <;> nofun

theorem of_eq_number {text : String} : Verdict.of (.ok (.resolved text)) = .number ↔ Numeric text := by
  rw [Verdict.of_resolved]
  split <;> simp [*]

theorem Verdict.texts_mismatched {x y : Except FormulaFault Outcome} :
    (of x = words ∨ of x = number) ∧ (of y = words ∨ of y = number) ∧ (of x ≠ number ∨ of y ≠ number) ↔
      ∃ a b, x = .ok (.resolved a) ∧ y = .ok (.resolved b) ∧ (¬Numeric a ∨ ¬Numeric b) := by
  rw [of_eq_text, of_eq_text]
  constructor
  · rintro ⟨⟨a, rfl⟩, ⟨b, rfl⟩, h⟩
    rw [ne_eq, ne_eq, of_eq_number, of_eq_number] at h
    exact ⟨a, b, rfl, rfl, h⟩
  · rintro ⟨a, b, rfl, rfl, h⟩
    rw [ne_eq, ne_eq, of_eq_number, of_eq_number]
    exact ⟨⟨a, rfl⟩, ⟨b, rfl⟩, h⟩

/-- A formula fails if a value in it cannot stand in text or an operation in it lacks a number, and only then. -/
theorem verdict_fails_iff (scope : Scope) (f : Formula) :
    Verdict.of (f.eval scope) = .fails ↔ Unrenderable scope f ∨ Mismatched scope f := by
  induction f with
  | var path =>
    rw [Verdict.of_eq_fails, eval]
    simp only [Unrenderable, Mismatched, parts, List.mem_singleton, reduceCtorEq, false_and, exists_false, or_false,
      var.injEq]
    constructor
    · rintro ⟨fault, h⟩
      split at h
      · cases h
      · rename_i value hl
        split at h
        · cases h
        · rename_i cause hr
          exact ⟨path, value, cause, rfl, hl, hr⟩
    · rintro ⟨found, value, cause, rfl, hl, hr⟩
      exact ⟨.notRenderable found cause, by simp only [hl, hr]⟩
  | constant text =>
    rw [Verdict.of_eq_fails, eval]
    simp [Unrenderable, Mismatched, parts]
  | binary op left right ihl ihr =>
    rw [verdict_binary, Verdict.combine_eq_fails, Verdict.texts_mismatched, ihl, ihr, unrenderable_binary,
      mismatched_binary, ← or_assoc, or_or_or_comm, or_assoc]

theorem fails_of_mem_parts {f g : Formula} (hm : g ∈ f.parts) (hg : Verdict.of (g.eval scope) = .fails) :
    Verdict.of (f.eval scope) = .fails := by
  induction f with
  | var path => exact List.mem_singleton.mp hm ▸ hg
  | constant text => exact List.mem_singleton.mp hm ▸ hg
  | binary op left right ihl ihr =>
    rcases mem_parts_binary.mp hm with rfl | hm | hm
    · exact hg
    · rw [verdict_binary, ihl hm]
      rfl
    · rw [verdict_binary, Verdict.combine_comm, ihr hm]
      rfl

/-- The faults of a formula that has been read. -/
abbrev EvaluationFault :=
  { fault : FormulaFault // ∀ cause, fault ≠ .unreadable cause }

theorem ne_unreadable_of_eval {f : Formula} {fault : FormulaFault} (h : f.eval scope = .error fault)
    (cause : Fault) : fault ≠ .unreadable cause := by
  have hoperand : ∀ text, operand text = .error fault → fault ≠ .unreadable cause := by
    intro text h
    unfold operand at h
    split at h
    · cases h
    · cases h
      exact nofun
  induction f with
  | var path =>
    unfold eval at h
    split at h
    · cases h
    · split at h
      · cases h
      · cases h
        exact nofun
  | constant text => cases h
  | binary op left right ihl ihr =>
    rcases bind_eq_error.mp h with h | ⟨a, -, h⟩
    · exact ihl h
    rcases bind_eq_error.mp h with h | ⟨b, -, h⟩
    · exact ihr h
    unfold combine at h
    split at h
    · rcases bind_eq_error.mp h with h | ⟨x, -, h⟩
      · exact hoperand _ h
      rcases bind_eq_error.mp h with h | ⟨y, -, h⟩
      · exact hoperand _ h
      cases h
    · cases h

/-! ### Waiting -/

theorem Verdict.combine_eq_waits {op : Operator} {a b : Verdict} (h : combine op a b ≠ fails) :
    combine op a b = waits ↔ a = waits ∨ b = waits := by
  revert h
  cases a <;> cases b <;> simp [combine]
  split <;> nofun

/-- A formula that does not fail waits as long as one of its variables does. -/
theorem verdict_waits_iff {f : Formula} (hf : Verdict.of (f.eval scope) ≠ .fails) :
    Verdict.of (f.eval scope) = .waits ↔ Waits scope f := by
  induction f with
  | var path =>
    rw [Verdict.of_eq_waits, eval]
    simp only [Waits, parts, List.mem_singleton, var.injEq, exists_eq_left]
    split
    · rename_i hl
      simp [hl]
    · rename_i value hl
      rw [hl]
      split <;> simp
  | constant text => simp [Verdict.of_eq_waits, eval, Waits, parts]
  | binary op left right ihl ihr =>
    have hl : Verdict.of (left.eval scope) ≠ .fails := fun h =>
      hf (fails_of_mem_parts (mem_parts_binary.mpr (Or.inr (Or.inl (self_mem_parts left)))) h)
    have hr : Verdict.of (right.eval scope) ≠ .fails := fun h =>
      hf (fails_of_mem_parts (mem_parts_binary.mpr (Or.inr (Or.inr (self_mem_parts right)))) h)
    rw [verdict_binary] at hf ⊢
    rw [Verdict.combine_eq_waits hf, ihl hl, ihr hr, waits_binary]

/-! ### Order of operands -/

/-- The second formula is the first one with the operands of some of its operations in the other order. -/
inductive Swapped : Formula → Formula → Prop
  | var (path : List String) : Swapped (.var path) (.var path)
  | constant (text : String) : Swapped (.constant text) (.constant text)
  | kept {op : Operator} {left left' right right' : Formula} (hl : Swapped left left') (hr : Swapped right right') :
      Swapped (.binary op left right) (.binary op left' right')
  | swapped {op : Operator} {left left' right right' : Formula} (hl : Swapped left left') (hr : Swapped right right') :
      Swapped (.binary op left right) (.binary op right' left')

theorem Swapped.verdict_eq {f g : Formula} (h : Swapped f g) :
    Verdict.of (g.eval scope) = Verdict.of (f.eval scope) := by
  induction h with
  | var path => rfl
  | constant text => rfl
  | kept _ _ ihl ihr => rw [verdict_binary, verdict_binary, ihl, ihr]
  | swapped _ _ ihl ihr => rw [verdict_binary, verdict_binary, ihl, ihr, Verdict.combine_comm]

/-- Which of its outcomes a formula has follows from its parts alone: it fails if one of them does, waits if
    none does but a variable is unbound, and comes to a text otherwise, whatever the order of operands. -/
theorem outcome_of_parts (scope : Scope) (f : Formula) :
    ((∃ fault, f.eval scope = .error fault) ↔ Unrenderable scope f ∨ Mismatched scope f) ∧
    (f.eval scope = .ok .deferred ↔ ¬(Unrenderable scope f ∨ Mismatched scope f) ∧ Waits scope f) ∧
    ((∃ text, f.eval scope = .ok (.resolved text)) ↔
      ¬(Unrenderable scope f ∨ Mismatched scope f) ∧ ¬Waits scope f) ∧
    (∀ g ∈ f.parts, ∀ fault, g.eval scope = .error fault → ∃ fault', f.eval scope = .error fault') ∧
    ∀ g, Swapped f g →
      ((∃ fault, g.eval scope = .error fault) ↔ ∃ fault, f.eval scope = .error fault) ∧
      (g.eval scope = .ok .deferred ↔ f.eval scope = .ok .deferred) ∧
      ((∃ text, g.eval scope = .ok (.resolved text)) ↔ ∃ text, f.eval scope = .ok (.resolved text)) := by
  -- What neither fails nor waits comes to a text.
  have hthree : ∀ v : Verdict, v = .words ∨ v = .number ↔ v ≠ .fails ∧ v ≠ .waits := by
    intro v
    cases v <;> simp
  simp only [← Verdict.of_eq_fails, ← Verdict.of_eq_waits, ← Verdict.of_eq_text]
  refine ⟨verdict_fails_iff scope f, ?_, ?_, ?_, ?_⟩
  · rw [← verdict_fails_iff]
    constructor
    · intro h
      have hne : Verdict.of (f.eval scope) ≠ .fails := by simp [h]
      exact ⟨hne, (verdict_waits_iff hne).mp h⟩
    · exact fun ⟨hne, hw⟩ => (verdict_waits_iff hne).mpr hw
  · rw [← verdict_fails_iff, hthree]
    exact and_congr_right fun hne => not_congr (verdict_waits_iff hne)
  · exact fun g hm fault hg => fails_of_mem_parts hm (Verdict.of_eq_fails.mpr ⟨fault, hg⟩)
  · intro g hs
    rw [hs.verdict_eq]
    exact ⟨Iff.rfl, Iff.rfl, Iff.rfl⟩

/-- The height has no value yet, and the colour never gives a number. -/
def areaScope : Scope :=
  Scope.ofParams [("width", .text "3"), ("colour", .text "red")]

def area : Formula :=
  .binary .plus (.var ["height"]) (.binary .times (.var ["width"]) (.var ["colour"]))

def areaSwapped : Formula :=
  .binary .plus (.binary .times (.var ["colour"]) (.var ["width"])) (.var ["height"])

theorem area_fails_either_way : Waits areaScope area ∧
    .binary .times (.var ["width"]) (.var ["colour"]) ∈ area.parts ∧ Swapped area areaSwapped ∧
    (∃ fault, area.eval areaScope = .error fault) ∧ ∃ fault, areaSwapped.eval areaScope = .error fault := by
  have hwaits : Waits areaScope area := ⟨["height"], by decide, rfl⟩
  have hpart : .binary .times (.var ["width"]) (.var ["colour"]) ∈ area.parts := by decide
  have hswapped : Swapped area areaSwapped := .swapped (.var _) (.swapped (.var _) (.var _))
  obtain ⟨-, -, -, hparts, hswap⟩ := outcome_of_parts areaScope area
  have hfails := hparts _ hpart (.notANumber "red") rfl
  exact ⟨hwaits, hpart, hswapped, hfails, (hswap _ hswapped).1.mpr hfails⟩

end Formula
end Letterpress
