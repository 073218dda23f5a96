import Letterpress.Value

/-! Scopes: a stack of layers that bind names to values. A name stands for what the innermost layer that
    binds it says. The outermost layer holds the parameters of the template and is never dropped. -/

namespace Letterpress

/-- The bindings of one layer, the latest first. -/
abbrev Layer := List (String × Value)

/-- A stack of layers: those above the outermost one, the innermost first, and the outermost one. -/
structure Scope where
  inner : List Layer := []
  outermost : Layer := []
  deriving Repr

namespace Scope

/-- The scope with one layer. -/
def ofParams (params : Layer) : Scope :=
  ⟨[], params⟩

/-- The layers, the innermost first. -/
def layers (s : Scope) : List Layer :=
  s.inner ++ [s.outermost]

/-- The number of layers. -/
def depth (s : Scope) : Nat :=
  s.layers.length

/-- The scope with a new innermost layer. -/
def push (s : Scope) : Scope :=
  { s with inner := [] :: s.inner }

/-- The scope without its innermost layer, unless that is the outermost one too. -/
def pop (s : Scope) : Scope :=
  { s with inner := s.inner.tail }

/-- Binds a name in the innermost layer. -/
def bind (s : Scope) (name : String) (value : Value) : Scope :=
  match s.inner with
  | layer :: layers => { s with inner := ((name, value) :: layer) :: layers }
  | [] => { s with outermost := (name, value) :: s.outermost }

/-- What the name stands for. -/
def get? (s : Scope) (name : String) : Option Value :=
  s.layers.findSome? (·.lookup name)

/-- What a dotted path stands for: a name and then fields of records. -/
def lookup? (s : Scope) : List String → Option Value
  | [] => none
  | name :: fields => (s.get? name).bind (·.descend? fields)

end Scope
end Letterpress
