/-! Declared parameters of a template: text in one of several forms, markup, lists of items and records of
    fields. A declaration is a tree, and every part of it has a name. -/

namespace Letterpress

/-- The forms of text that a parameter can ask for. -/
inductive TextForm where
  | generic
  | integer
  | float
  | file
  | date
  | markdown
  deriving Repr, DecidableEq

namespace TextForm

/-- The name of the form. -/
def name : TextForm → String
  | generic => "generic"
  | integer => "integer"
  | float => "float"
  | file => "file"
  | date => "date"
  | markdown => "markdown"

/-- The form of this name or short name in lower case. -/
def ofName? : String → Option TextForm
  | "generic" | "text" | "none" => some generic
  | "integer" | "int" | "uint" => some integer
  | "float" | "double" => some float
  | "file" => some file
  | "date" => some date
  | "markdown" | "md" => some markdown
  | _ => none

end TextForm

/-- A declared parameter, list item or field. -/
inductive Param where
  | text (name : String) (required : Bool) (form : TextForm)
  | markup (name : String) (required : Bool)
  | list (name : String) (required : Bool) (item : Param)
  | record (name : String) (required : Bool) (fields : List Param)
  deriving Repr

namespace Param

mutual

/-- Decides whether two declarations are the same. -/
def decEq : (a b : Param) → Decidable (a = b)
  | text name required form, text name' required' form' =>
    decidable_of_iff (name = name' ∧ required = required' ∧ form = form') (by simp)
  | markup name required, markup name' required' =>
    decidable_of_iff (name = name' ∧ required = required') (by simp)
  | list name required item, list name' required' item' =>
    have := decEq item item'
    decidable_of_iff (name = name' ∧ required = required' ∧ item = item') (by simp)
  | record name required fields, record name' required' fields' =>
    have := decEqList fields fields'
    decidable_of_iff (name = name' ∧ required = required' ∧ fields = fields') (by simp)
  | text .., markup .. | text .., list .. | text .., record .. => isFalse nofun
  | markup .., text .. | markup .., list .. | markup .., record .. => isFalse nofun
  | list .., text .. | list .., markup .. | list .., record .. => isFalse nofun
  | record .., text .. | record .., markup .. | record .., list .. => isFalse nofun

/-- Decides whether two lists of declarations are the same. -/
def decEqList : (a b : List Param) → Decidable (a = b)
  | [], [] => isTrue rfl
  | param :: params, param' :: params' =>
    have := decEq param param'
    have := decEqList params params'
    decidable_of_iff (param = param' ∧ params = params') (by simp)
  | [], _ :: _ | _ :: _, [] => isFalse nofun

end

instance : DecidableEq Param :=
  decEq

/-- The declared name. -/
def name : Param → String
  | text name .. | markup name .. | list name .. | record name .. => name

/-- Every instance has to supply the parameter. -/
def required : Param → Bool
  | text _ required _ | markup _ required | list _ required _ | record _ required _ => required

/-- The type as a declaration writes it; a list adds the type of its items. -/
def typeName : Param → String
  | text _ _ form => "text," ++ form.name
  | markup .. => "xml"
  | list _ _ item => "list," ++ item.typeName
  | record .. => "struct"

/-- The field of this name. -/
def field? (name : String) : Param → Option Param
  | record _ _ fields => fields.find? (·.name == name)
  | _ => none

/-- Follows the names of fields into a declaration. -/
def descend? (param : Param) : List String → Option Param
  | [] => some param
  | name :: names =>
    match param.field? name with
    | some inner => inner.descend? names
    | none => none

mutual

/-- The first declaration of this name: the parameter itself, or else one inside it. -/
def find? (name : String) : Param → Option Param
  | text n r form => if n = name then some (text n r form) else none
  | markup n r => if n = name then some (markup n r) else none
  | list n r item => if n = name then some (list n r item) else item.find? name
  | record n r fields => if n = name then some (record n r fields) else findIn? name fields

/-- The first declaration of this name in some parameters, in the order of their declaration. -/
def findIn? (name : String) : List Param → Option Param
  | [] => none
  | param :: params =>
    match param.find? name with
    | some found => some found
    | none => findIn? name params

end

end Param
end Letterpress
