import Letterpress.Formula.Basic
import Letterpress.Formula.Token

/-! Reading a formula: operands and operators take turns. Both wait on a stack until the next operator
    shows what belongs together: an operator that does not bind tighter than the one before it takes
    everything read so far that binds at least as tightly as its left operand. -/

namespace Letterpress
namespace Formula

/-- Why a text is no formula. -/
inductive Fault where
  | noToken
  | unknownOperator (symbol : String)
  | secondValue (value : Formula)
  | operatorFirst (op : Operator)
  | operatorAgain (op : Operator)
  | operatorLast (op : Operator)
  | empty
  deriving Repr, DecidableEq

/-- The fault in words. -/
def Fault.message : Fault → String
  | noToken => "found a character that starts no token"
  | unknownOperator symbol => s!"unrecognized operator '{symbol}'"
  | secondValue value => s!"unexpected value '{value.render}' after a complete formula"
  | operatorFirst op => s!"operator '{op.symbol}' before any value"
  | operatorAgain op => s!"operator '{op.symbol}' follows another operator"
  | operatorLast op => s!"operator '{op.symbol}' has no right operand"
  | empty => "empty formula"

/-- What a token stands for in a formula. -/
inductive Item where
  | value (formula : Formula)
  | operation (op : Operator)
  deriving Repr, DecidableEq

/-- What the token stands for; an unknown run of operator characters stands for nothing. -/
def Item.ofToken : Token → Except Fault Item
  | .name path => .ok (.value (.var path))
  | .number text => .ok (.value (.constant text))
  | .symbol text =>
    match Operator.ofSymbol? text with
    | some op => .ok (.operation op)
    | none => .error (.unknownOperator text)

/-- The operands and operators that wait for their operations, each the latest first. -/
structure Stack where
  operands : List Formula := []
  operators : List Operator := []
  deriving Repr, DecidableEq

namespace Stack

/-- An operand has to come next: every operand so far is followed by an operator. -/
def expectsOperand (s : Stack) : Bool :=
  s.operands.length == s.operators.length

/-- Makes one operation of the latest operator and the two latest operands. What a stack without them
    has on top is lost. -/
def reduce : Stack → Stack
  | ⟨right :: left :: operands, op :: operators⟩ => ⟨.binary op left right :: operands, operators⟩
  | s => ⟨s.operands.drop 2, s.operators.drop 1⟩

@[simp] theorem operators_reduce (s : Stack) : s.reduce.operators = s.operators.drop 1 := by
  unfold reduce
  split <;> rfl

/-- Makes operations as long as the latest operator is one of these. -/
def unwind (ready : Operator → Bool) (s : Stack) : Stack :=
  match _h : s.operators with
  | [] => s
  | op :: _ => if ready op then s.reduce.unwind ready else s
  termination_by s.operators.length
  decreasing_by simp [_h]

/-- Adds an operand. -/
def pushOperand (s : Stack) (operand : Formula) : Except Fault Stack :=
  if s.expectsOperand then .ok { s with operands := operand :: s.operands }
  else .error (.secondValue operand)

/-- Adds an operator, once the operators before it that bind at least as tightly have their operations. -/
def pushOperator (s : Stack) (op : Operator) : Except Fault Stack :=
  if s.operands.isEmpty then .error (.operatorFirst op)
  else if s.expectsOperand then .error (.operatorAgain op)
  else
    let unwound := s.unwind (op.precedence ≤ ·.precedence)
    .ok { unwound with operators := op :: unwound.operators }

/-- Adds what a token stands for. -/
def push (s : Stack) (token : Token) : Except Fault Stack :=
  match Item.ofToken token with
  | .error fault => .error fault
  | .ok (.value operand) => s.pushOperand operand
  | .ok (.operation op) => s.pushOperator op

/-- Adds what the tokens stand for. The first token out of place is the fault. -/
def read (s : Stack) : List Token → Except Fault Stack
  | [] => .ok s
  | token :: tokens =>
    match s.push token with
    | .error fault => .error fault
    | .ok s => s.read tokens

/-- The formula that is left when all operations are made. -/
def finish (s : Stack) : Except Fault Formula :=
  if s.operands.isEmpty then .error .empty
  else
    match s.expectsOperand, s.operators with
    | true, op :: _ => .error (.operatorLast op)
    | _, _ =>
      match (s.unwind fun _ => true).operands with
      | formula :: _ => .ok formula
      | [] => .error .empty

end Stack

/-- The formula of a list of tokens. -/
def ofTokens (tokens : List Token) : Except Fault Formula :=
  match ({} : Stack).read tokens with
  | .error fault => .error fault
  | .ok s => s.finish

/-- Reads the text of a formula, blanks and all. -/
def parse (text : String) : Except Fault Formula :=
  match Token.scan text.toList with
  | none => .error .noToken
  | some tokens => ofTokens tokens

end Formula
end Letterpress
