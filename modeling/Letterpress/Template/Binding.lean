import Letterpress.Param.Validation
import Letterpress.Scope
import Letterpress.Template.Basic

/-! Binding the parameters of a template to what an instance supplies. Every element of an instance has to
    be a declared parameter, none may come twice, and all required ones have to be there. -/

namespace Letterpress
namespace Template

open Markup (Node Element)

/-- Binds the parameters that the nodes of an instance supply, behind those already bound. -/
def bindNodes (t : Template) (ctx : Context) (e : Element) (bound : Layer) :
    List Node → Except Error Layer
  | [] => .ok bound
  | node :: nodes =>
    match node.element? with
    | none => .error (.content t.name "template" .textParam e.outer)
    | some supplied =>
      match t.param? supplied.name with
      | none => .error (.unknownElement t.name supplied.name e.outer)
      | some param =>
        if (bound.lookup param.name).isSome then
          .error (param.invalid e .duplicateParam)
        else do
          let value ← param.validate ctx supplied
          bindNodes t ctx e (bound ++ [(param.name, value)]) nodes

/-- The first required parameter that is not bound. -/
def firstMissing? (t : Template) (bound : Layer) : Option Param :=
  t.params.find? fun param => param.required && (bound.lookup param.name).isNone

/-- The values that an instance supplies for the parameters of the template. -/
def bind (t : Template) (ctx : Context) (e : Element) : Except Error Layer := do
  let bound ← bindNodes t ctx e [] e.significant
  match t.firstMissing? bound with
  | some param => throw (.missingParameter t.name param.name)
  | none => return bound

end Template
end Letterpress
