/-! Formulas of the template language. A formula is a variable, a constant or an operation on two
    formulas. It is written without parentheses, so the shape of its tree follows from the precedence
    of its operators alone. -/

namespace Letterpress

/-- The operations a formula can ask for. -/
inductive Operator where
  | power
  | times
  | divide
  | floorDivide
  | plus
  | minus
  | modulo
  | equal
  | notEqual
  deriving Repr, DecidableEq

namespace Operator

/-- How the operator is written. -/
def symbol : Operator → String
  | power => "^"
  | times => "*"
  | divide => "/"
  | floorDivide => "//"
  | plus => "+"
  | minus => "-"
  | modulo => "%"
  | equal => "=="
  | notEqual => "!="

/-- The operators in the order of their precedence, the tightest first. -/
def all : List Operator :=
  [power, times, divide, floorDivide, plus, minus, modulo, equal, notEqual]

/-- The operator that is written so. -/
def ofSymbol? (text : String) : Option Operator :=
  all.find? (·.symbol == text)

/-- How tightly the operator binds. Among equals the one on the left binds first. -/
def precedence : Operator → Nat
  | power => 100
  | times | divide | floorDivide => 50
  | plus | minus => 20
  | modulo => 10
  | equal | notEqual => 5

theorem symbol_injective {a b : Operator} (h : a.symbol = b.symbol) : a = b := by
  cases a <;> cases b <;> first | rfl | exact absurd h (by decide)

theorem ofSymbol?_symbol (op : Operator) : ofSymbol? op.symbol = some op := by
  cases op <;> decide

theorem symbol_of_ofSymbol? {text : String} {op : Operator} (h : ofSymbol? text = some op) :
    op.symbol = text := by
  unfold ofSymbol? at h
  simpa using List.find?_some h

end Operator

/-- A formula. A variable is a dotted path of names, and a constant keeps the text it was written as. -/
inductive Formula where
  | var (path : List String)
  | constant (text : String)
  | binary (op : Operator) (left right : Formula)
  deriving Repr, DecidableEq

namespace Formula

/-- The written form of a dotted path. -/
def pathText (path : List String) : String :=
  String.intercalate "." path

/-- The formula on one line, with a blank on both sides of each operator. -/
def render : Formula → String
  | var path => pathText path
  | constant text => text
  | binary op left right => left.render ++ " " ++ op.symbol ++ " " ++ right.render

end Formula
end Letterpress
