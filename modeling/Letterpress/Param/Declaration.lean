import Letterpress.Error
import Letterpress.Param.Basic

/-! Reading the declaration of a parameter from its element. The items of a list and the fields of a record
    are declared by elements inside it. -/

namespace Letterpress
namespace Param

open Markup (Node Element Head)

/-- What the type of a declaration asks for. -/
inductive Kind where
  | text (form : TextForm)
  | markup
  | list
  | record
  deriving Repr, DecidableEq

/-- The kind that a type names, in words between commas or blanks. What follows the word of a list or a
    record says nothing. -/
def Kind.ofType (type : String) : Except SchemaFault Kind :=
  match Text.words (fun c => c == ',' || Text.isBlank c) type with
  | [] => .error .emptyType
  | ["text"] => .ok (.text .generic)
  | ["text", form] =>
    match TextForm.ofName? (Text.asciiLower form) with
    | some form => .ok (.text form)
    | none => .error (.unknownForm form)
  | ["xml"] => .ok .markup
  | "list" :: _ => .ok .list
  | "struct" :: _ => .ok .record
  | other :: _ => .error (.unknownType other)

/-- Whether a parameter is required, which it is unless its declaration says otherwise. -/
def readRequired : Option String → Except SchemaFault Bool
  | none => .ok true
  | some value =>
    match Text.trim value with
    | "true" => .ok true
    | "false" => .ok false
    | other => .error (.badRequired other)

/-- The declared name, whether it is required, and the kind. -/
def readHead (e : Element) : Except Error (String × Bool × Kind) := do
  if e.name ≠ "param" then throw (.schema e.name (.notParam e.outer))
  let some name := e.attribute? "name" | throw (.schema "param" (.noName e.outer))
  let name := Text.trim name
  if name = "" then throw (.schema "param" .emptyName)
  let some type := e.attribute? "type" | throw (.schema name .noType)
  let required ← (readRequired (e.attribute? "required")).mapError (.schema name)
  let kind ← (Kind.ofType type).mapError (.schema name)
  return (name, required, kind)

mutual

/-- Reads the declaration that a node holds; `stray` is the error if the node is no element. -/
def ofNode (stray : Error) : Node → Except Error Param
  | .element head children => do
    let (name, required, kind) ← readHead ⟨head, children⟩
    match kind with
    | .text form => return text name required form
    | .markup => return markup name required
    | .list => return list name required (← itemOf name ⟨head, children⟩ none children)
    | .record =>
      let fields ← fieldsOf name [] children
      if fields.isEmpty then throw (.schema name .recordEmpty)
      return record name required fields
  | _ => .error stray

/-- Reads the one declaration among the nodes inside that of a list, behind the one already found. -/
def itemOf (name : String) (e : Element) (found : Option Param) : List Node → Except Error Param
  | [] =>
    match found with
    | some item => .ok item
    | none => .error (.schema name .listEmpty)
  | node :: nodes =>
    if node.isInsignificant then itemOf name e found nodes
    else
      match found, node.element? with
      | some _, some _ => .error (.schema name (.listSecond e.outer))
      | _, _ => do
        let item ← ofNode (.schema name .listText) node
        itemOf name e (some item) nodes

/-- Reads the declarations among the nodes inside that of a record, behind those already read. -/
def fieldsOf (name : String) (fields : List Param) : List Node → Except Error (List Param)
  | [] => .ok fields
  | node :: nodes =>
    if node.isInsignificant then fieldsOf name fields nodes
    else do
      let field ← ofNode (.schema name .recordText) node
      if fields.any (·.name == field.name) then throw (.schema name (.recordDuplicate field.name))
      fieldsOf name (fields ++ [field]) nodes

end

/-- Reads the declaration that an element holds. -/
def ofElement (e : Element) : Except Error Param :=
  ofNode (.schema e.name (.notParam e.outer)) e.toNode

end Param
end Letterpress
