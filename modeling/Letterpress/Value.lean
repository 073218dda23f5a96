import Letterpress.Markup.Writer

/-! Values of template parameters: text, markup, lists and records with named fields. Text, markup and a
    record with a field `text` can stand in text; a list cannot, it has to be iterated. -/

namespace Letterpress

/-- A value that a name stands for in a template. The fields of a record have distinct names. -/
inductive Value where
  | text (content : String)
  | markup (element : Markup.Element)
  | list (items : List Value)
  | record (fields : List (String × Value))
  deriving Repr

namespace Value

/-- Why a value cannot stand in text. -/
inductive Fault where
  | noTextField
  | listAsText
  deriving Repr, DecidableEq

/-- The fault in words. -/
def Fault.message : Fault → String
  | noTextField => "struct value without a 'text' field cannot be rendered as text"
  | listAsText => "list value cannot be rendered as text; iterate it with ForEach"

/-- The name of the kind of a value. -/
def typeName : Value → String
  | text _ => "text"
  | markup _ => "xml"
  | list _ => "list"
  | record _ => "struct"

/-- The field of this name. -/
def field? (name : String) : Value → Option Value
  | record fields => fields.lookup name
  | _ => none

mutual

/-- The value as text. -/
def render : Value → Except Fault String
  | text content => .ok content
  | markup element => .ok element.inner
  | list _ => .error .listAsText
  | record fields => renderFields fields

/-- The first field named `text` as text. -/
def renderFields : List (String × Value) → Except Fault String
  | [] => .error .noTextField
  | (name, value) :: fields => if name = "text" then value.render else renderFields fields

end

/-- Follows the names of fields into a value. -/
def descend? (value : Value) : List String → Option Value
  | [] => some value
  | name :: names =>
    match value.field? name with
    | some inner => inner.descend? names
    | none => none

end Value
end Letterpress
