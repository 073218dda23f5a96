import Letterpress.Calendar
import Letterpress.Context
import Letterpress.Error
import Letterpress.Markdown
import Letterpress.Markup.Reader
import Letterpress.Param.Basic

/-! Validating what an instance supplies for a parameter. The content of its element has to fit the
    declaration, and becomes a value: numbers, files and dates in a normal form, markdown as markup, the
    fields of a record in the order of their declaration. -/

namespace Letterpress
namespace Param

open Markup (Node Element)

/-- The error for an element that does not fit the parameter. -/
def invalid (param : Param) (e : Element) (fault : ContentFault) : Error :=
  .content param.name param.typeName fault e.outer

/-- The text that is the only content of an element, apart from comments. -/
def plainText (e : Element) : Except ContentFault String :=
  match e.children.filter (!·.isComment) with
  | [.text content] | [.cdata content] => .ok content
  | [_] => .error .notText
  | nodes => .error (.childCount nodes.length)

/-- The value of a date: a record with its text, its numbers and the name of its month. -/
def dateValue (text : String) (date : Calendar.Date) : Value :=
  .record [("text", .text text), ("year", .text (toString date.year)),
    ("month", .text (toString date.month)), ("day", .text (toString date.day)),
    ("month-name", .text date.monthName)]

/-- The value of a text in one of its forms. -/
def readText (ctx : Context) (form : TextForm) (content : String) : Except ContentFault Value :=
  let trimmed := Text.trim content
  match form with
  | .generic => .ok (.text content)
  | .integer =>
    -- A number is only checked: its value is the text.
    if (Decimal.readInt64? trimmed).isSome then .ok (.text trimmed) else .error (.notInteger content)
  | .float =>
    if (Decimal.read? trimmed).isSome then .ok (.text trimmed) else .error (.notFloat content)
  | .file =>
    let path := Path.relative trimmed
    if path.isEmpty || !ctx.hasFile path then .error (.noFile trimmed)
    else .ok (.text ("/" ++ path))
  | .date =>
    match Calendar.Date.read? trimmed with
    | some date => .ok (dateValue trimmed date)
    | none => .error (.notDate trimmed)
  | .markdown =>
    match Element.readFragment? (Markdown.toHtml content) with
    | some fragment => .ok (.markup fragment)
    | none => .error .malformedMarkdown

/-- The values of the items among the nodes, which have to be elements of the name of the items. -/
def readItems (param : Param) (e : Element) (itemName : String)
    (readItem : Element → Except Error Value) : List Node → Except Error (List Value)
  | [] => .ok []
  | node :: nodes =>
    match node.element? with
    | none => .error (param.invalid e (.textItem itemName))
    | some item =>
      if item.name = itemName then do
        let value ← readItem item
        let values ← readItems param e itemName readItem nodes
        return value :: values
      else .error (param.invalid e (.wrongItem itemName item.name))

/-- The values of the fields among the nodes, in the order of the nodes, behind those already found. -/
def readFields (param : Param) (e : Element) (readField : Element → Option (Except Error Value))
    (found : List (String × Value)) : List Node → Except Error (List (String × Value))
  | [] => .ok found
  | node :: nodes =>
    match node.element? with
    | none => .error (param.invalid e .textField)
    | some field =>
      match readField field with
      | none => .error (param.invalid e (.unknownField field.name))
      | some result =>
        if (found.lookup field.name).isSome then
          .error (param.invalid e (.duplicateField field.name))
        else do
          let value ← result
          readFields param e readField (found ++ [(field.name, value)]) nodes

/-- The fields found, in the order of their declaration; the first one missing is the error. -/
def arrange (param : Param) (e : Element) (found : List (String × Value)) :
    List Param → Except Error (List (String × Value))
  | [] => .ok []
  | field :: fields =>
    match found.lookup field.name with
    | none => .error (param.invalid e (.missingField field.name))
    | some value => do
      let values ← arrange param e found fields
      return (field.name, value) :: values

mutual

/-- The value that the element supplies for the parameter. -/
def validate (ctx : Context) : Param → Element → Except Error Value
  | text name required form, e =>
    (plainText e >>= readText ctx form).mapError ((text name required form).invalid e)
  | markup .., e => .ok (.markup e)
  | list name required item, e => do
    let values ← readItems (list name required item) e item.name (item.validate ctx) e.significant
    return .list values
  | record name required fields, e => do
    let found ← readFields (record name required fields) e
      (fun field => validateField ctx field.name fields field) [] e.significant
    let values ← arrange (record name required fields) e found fields
    return .record values

/-- The value that the element supplies for the first of the fields with this name, if there is one. -/
def validateField (ctx : Context) (name : String) : List Param → Element → Option (Except Error Value)
  | [], _ => none
  | field :: fields, e =>
    if field.name = name then some (field.validate ctx e) else validateField ctx name fields e

end

end Param
end Letterpress
