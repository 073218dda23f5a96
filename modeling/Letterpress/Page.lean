import Letterpress.Expansion
import Letterpress.Markup.Document
import Letterpress.Registry

/-! Pages. Every element of a page that has the name of a template is an instance of it, and is replaced by
    the expanded body, in which further instances are replaced in turn. -/

namespace Letterpress

/-- A marker that is left in the expanded body of a template. -/
structure Warning where
  template : String
  marker : String
  deriving Repr, DecidableEq

/-- A result with the warnings met on the way to it. -/
structure Traced (α : Type) where
  warnings : List Warning
  result : Except Error α

namespace Traced

/-- A result without warnings. -/
def ofResult {α : Type} (result : Except Error α) : Traced α :=
  ⟨[], result⟩

/-- Goes on with a result, unless it is an error. -/
def andThen {α β : Type} (x : Traced α) (f : α → Traced β) : Traced β :=
  match x.result with
  | .error e => ⟨x.warnings, .error e⟩
  | .ok a =>
    let y := f a
    ⟨x.warnings ++ y.warnings, y.result⟩

instance : Monad Traced where
  pure a := ofResult (.ok a)
  bind := andThen

@[simp] theorem result_andThen {α β : Type} (x : Traced α) (f : α → Traced β) :
    (x.andThen f).result = x.result.bind fun a => (f a).result := by
  unfold andThen
  split <;> rename_i h <;> simp [h, Except.bind]

end Traced

namespace Page

open Markup (Node Element)

mutual

/-- Replaces the instances in a node; `instantiate` gives the nodes for an instance of a template. -/
def replaceNode (registry : Registry) (instantiate : Template → Element → Traced (List Node)) :
    Node → Traced (List Node)
  | .element head children =>
    match registry.get? head.name with
    | some template => instantiate template ⟨head, children⟩
    | none => do
      let children ← replace registry instantiate children
      return [.element head children]
  | node => return [node]

/-- Replaces the instances in some nodes, in order. -/
def replace (registry : Registry) (instantiate : Template → Element → Traced (List Node)) :
    List Node → Traced (List Node)
  | [] => return []
  | node :: nodes => do
    let front ← replaceNode registry instantiate node
    let rest ← replace registry instantiate nodes
    return front ++ rest

end

/-- The expanded body of a template for an instance, with a warning for every marker left in it. -/
def applied (ctx : Context) (t : Template) (e : Element) : Traced Element :=
  match t.apply ctx e with
  | .ok content => ⟨(Template.unresolved content).map fun marker => ⟨t.name, marker⟩, .ok content⟩
  | .error e => ⟨[], .error e⟩

/-- Replaces the instances in some nodes, where instances may still nest so deep. -/
def expand (registry : Registry) (ctx : Context) : Nat → List Node → Traced (List Node)
  | 0, nodes =>
    -- Nodes without a further instance are within the limit.
    replace registry (fun _ _ => .ofResult (.error (.recursionLimit ctx.maxDepth))) nodes
  | depth + 1, nodes =>
    replace registry (fun t e => do
      let content ← applied ctx t e
      expand registry ctx depth content.children) nodes

/-- Replaces the instances in a page element. -/
def expandElement (registry : Registry) (ctx : Context) (page : Element) : Traced Element := do
  let children ← expand registry ctx ctx.maxDepth page.children
  return { page with children }

/-- Reads the text of a page, whose root element has to be a page. -/
def read (text : String) : Except Error Element :=
  match Element.read? text with
  | none => .error (.document .notWellFormed)
  | some root =>
    if root.name = "page" then .ok root else .error (.document (.notAPage root.name))

/-- Reads a page and replaces the instances in it. -/
def process (registry : Registry) (ctx : Context) (text : String) : Traced Element := do
  let page ← Traced.ofResult (read text)
  expandElement registry ctx page

/-- The HTML document of a page. -/
def render (registry : Registry) (ctx : Context) (layout : Markup.Layout) (text : String) :
    Traced String := do
  let page ← process registry ctx text
  return Markup.writeDocument layout page

end Page
end Letterpress
