import Letterpress.Markup.Reader
import Letterpress.Param.Declaration
import Letterpress.Template.Basic

/-! Loading templates from a file. The root element of a file is a template, or holds any number of them;
    the first fault refuses the whole file. -/

namespace Letterpress
namespace Template

open Markup (Node Element)

/-- What has been read of the declarations of a template. -/
structure Parts where
  params : List Param := []
  content : Option Element := none

/-- Reads the declarations of the template of this name among the nodes. -/
def readParts (name : String) (parts : Parts) : List Node → Except Error Parts
  | [] => .ok parts
  | node :: nodes =>
    match node.element? with
    | none => .error (.schema name .templateText)
    | some e =>
      if e.name = "param" then do
        -- The parameter is read before its name is looked up, so a fault of its own comes first.
        let param ← Param.ofElement e
        if parts.params.any (·.name == param.name) then
          throw (.schema name (.duplicateParam param.name))
        readParts name { parts with params := parts.params ++ [param] } nodes
      else if e.name = "content" then
        if parts.content.isSome then .error (.schema name .secondContent)
        else readParts name { parts with content := some e } nodes
      else .error (.schema name (.notDeclaration e.name))

/-- Reads the formulas with these texts, behind those already read. -/
def readFormulas (table : List (String × Formula)) : List String → Except Error (List (String × Formula))
  | [] => .ok table
  | text :: texts =>
    if (table.lookup text).isSome then readFormulas table texts
    else
      match Formula.parse text with
      | .ok formula => readFormulas (table ++ [(text, formula)]) texts
      | .error fault => .error (.formula text (.unreadable fault))

/-- Reads the template that an element of the file declares. -/
def ofElement (file : String) (e : Element) : Except Error Template := do
  let name := Text.trim ((e.attribute? "name").getD "")
  if name = "" then throw (.schema file (.unnamedTemplate e.outer))
  let parts ← readParts name {} e.significant
  let some content := parts.content | throw (.schema name .noContent)
  let formulas ← readFormulas [] ((textsOfElement content).flatMap formulaTexts)
  return { name, params := parts.params, content, formulas }

/-- Reads the templates among the nodes of the file. -/
def ofNodes (file : String) : List Node → Except Error (List Template)
  | [] => .ok []
  | node :: nodes =>
    match node.element? with
    | none => .error (.schema file .textBetweenTemplates)
    | some e =>
      if e.name = "template" then do
        let template ← ofElement file e
        let templates ← ofNodes file nodes
        return template :: templates
      else .error (.schema file (.notTemplate e.name))

/-- The templates below the root element of the file. -/
def ofRoot (file : String) (root : Element) : Except Error (List Template) :=
  if root.name = "template" then (ofElement file root).map ([·])
  else if root.name = "templates" then ofNodes file root.significant
  else .error (.schema file (.rootElement root.name))

/-- The templates of a file, in the order of the file. -/
def load (file text : String) : Except Error (List Template) :=
  match Element.read? text with
  | none => .error (.document .notWellFormed)
  | some root => ofRoot file root

end Template
end Letterpress
