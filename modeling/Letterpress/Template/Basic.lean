import Letterpress.Error
import Letterpress.Marker
import Letterpress.Param.Basic

/-! Template definitions: a name, declared parameters, a body, and the formulas of the markers in that
    body. -/

namespace Letterpress

/-- A template. The parameters come in the order of their declaration, under distinct names; a formula is
    kept under its text. -/
structure Template where
  name : String
  params : List Param
  content : Markup.Element
  formulas : List (String × Formula)
  deriving Repr, DecidableEq

namespace Template

open Markup (Node Head Element)

/-- The parameter of this name. -/
def param? (t : Template) (name : String) : Option Param :=
  t.params.find? (·.name == name)

/-- The formula that a marker of the body has under this text. -/
def formula? (t : Template) (text : String) : Option Formula :=
  t.formulas.lookup text

/-- The declaration that a dotted path leads to. It starts at the parameter of the first name, or else at
    the first declaration of that name inside a parameter, and goes on through fields. -/
def declaration? (t : Template) : List String → Option Param
  | [] => none
  | name :: fields =>
    match t.param? name with
    | some param => param.descend? fields
    | none => (Param.findIn? name t.params).bind (·.descend? fields)

/-- The texts in which markers count: the attribute values of an element. -/
def attributeTexts (head : Head) : List String :=
  head.attributes.map (·.2)

mutual

/-- The texts of a node in which markers count, an element's attributes before its children. -/
def textsOf : Node → List String
  | .element head children => attributeTexts head ++ textsIn children
  | .text content | .cdata content => [content]
  | .comment _ | .instruction _ _ => []

/-- The texts of some nodes in which markers count. -/
def textsIn : List Node → List String
  | [] => []
  | node :: nodes => textsOf node ++ textsIn nodes

end

/-- The texts of an element in which markers count. -/
def textsOfElement (e : Element) : List String :=
  attributeTexts e.head ++ textsIn e.children

/-- The formulas of the markers of a text. -/
def formulaTexts (text : String) : List String :=
  (Segment.split text).filterMap fun
    | .literal _ => none
    | .marker _ formula => some formula

end Template
end Letterpress
