import Letterpress.Decimal.Number
import Letterpress.Error
import Letterpress.Scope

/-! The value of a formula in a scope. A variable that nothing is bound to defers the whole formula, which
    then stays as it is written; operands have to be numbers. -/

namespace Letterpress

/-- What a formula comes to: a text, or nothing yet. -/
inductive Outcome where
  | resolved (text : String)
  | deferred
  deriving Repr, DecidableEq

namespace Outcome

/-- The text, or another one if there is none yet. -/
def textOr (fallback : String) : Outcome → String
  | resolved text => text
  | deferred => fallback

end Outcome

namespace Operator

/-- The text of a truth value. -/
def truth (b : Bool) : String :=
  if b then "True" else "False"

/-- The text of what the operation makes of two numbers. -/
def apply (op : Operator) (a b : Float) : String :=
  match op with
  | power => Decimal.render (a.pow b)
  | times => Decimal.render (a * b)
  | divide => Decimal.render (a / b)
  | floorDivide => Decimal.render (a / b).floor
  | plus => Decimal.render (a + b)
  | minus => Decimal.render (a - b)
  | modulo => Decimal.render (Decimal.remainder a b)
  | equal => truth (a == b)
  | notEqual => truth (a != b)

end Operator

namespace Formula

/-- The number that a text writes between blanks. -/
def operand (text : String) : Except FormulaFault Float :=
  match Decimal.read? (Text.trim text) with
  | some x => .ok x
  | none => .error (.notANumber text)

/-- What the operation makes of what its operands come to. -/
def combine (op : Operator) : Outcome → Outcome → Except FormulaFault Outcome
  | .resolved left, .resolved right => do
    let a ← operand left
    let b ← operand right
    return .resolved (op.apply a b)
  | _, _ => .ok .deferred

/-- What the formula comes to in the scope. Of two faults the left one counts. -/
def eval (scope : Scope) : Formula → Except FormulaFault Outcome
  | var path =>
    match scope.lookup? path with
    | none => .ok .deferred
    | some value =>
      match value.render with
      | .ok text => .ok (.resolved text)
      | .error fault => .error (.notRenderable path fault)
  | constant text => .ok (.resolved text)
  | binary op left right => do
    let a ← left.eval scope
    let b ← right.eval scope
    combine op a b

end Formula
end Letterpress
