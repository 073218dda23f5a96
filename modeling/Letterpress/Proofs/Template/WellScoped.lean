import Letterpress.Proofs.Expansion.Leftover
import Letterpress.Proofs.Param.Fits
import Letterpress.Proofs.Template.Declared

/-! Templates whose markers name only what is sure to be bound where they stand: a required parameter, or the
    number or the item of a loop around them. -/

namespace Letterpress
open Markup (Node Element Head)
open Text (Unbraced)

/-- The paths of the variables in the formula, from left to right. -/
def Formula.paths : Formula → List (List String)
  | var path => [path]
  | constant _ => []
  | binary _ left right => left.paths ++ right.paths

/-- The node is no action. -/
def Markup.Node.NotAction (node : Node) : Prop :=
  ∀ e, node.element? = some e → Action.ofTag? e.name = none

theorem Markup.Node.not_notAction {head : Head} {children : List Node} {action : Action}
    (tag : Action.ofTag? head.name = some action) : ¬ Node.NotAction (.element head children) := by
  intro h
  have hnone : Action.ofTag? head.name = none := h ⟨head, children⟩ rfl
  rw [tag] at hnone
  cases hnone

namespace Template

/-- What a loop binds in its body: a name to the number of the iteration, and the name of a declaration to the
    item, if the path of its list leads to the declaration of a list. -/
structure Loop where
  index : String
  item : Option Param

/-- What a loop with this head binds. -/
def Loop.ofHead (t : Template) (head : Head) : Loop where
  index := Expansion.loopIndex ⟨head, []⟩
  item := (head.attributes.lookup "list").bind fun list =>
    (t.declaration? (Text.split (· == '.') (Text.trim list))).bind Param.item?

theorem Loop.item_ofHead {t : Template} {head : Head} {children : List Node} {list : String}
    (h : Expansion.loopList ⟨head, children⟩ = .ok list) :
    (Loop.ofHead t head).item = (t.declaration? (Text.split (· == '.') list)).bind Param.item? := by
  unfold Expansion.loopList at h
  split at h
  · rename_i written hwritten
    cases h
    have hlookup : head.attributes.lookup "list" = some written := hwritten
    simp only [Loop.ofHead, hlookup, Option.bind_some]
  · cases h

/-- Inside these loops the path leads from a name that is bound to something that is there. -/
inductive Visible (t : Template) (loops : List Loop) : List String → Prop
  | required {name : String} {param : Param} {fields : List String} (hp : t.param? name = some param)
      (hr : param.required = true) (hl : param.Leads fields) : Visible t loops (name :: fields)
  | index {loop : Loop} (mem : loop ∈ loops) : Visible t loops [loop.index]
  | item {loop : Loop} {item : Param} {fields : List String} (mem : loop ∈ loops) (hi : loop.item = some item)
      (hl : item.Leads fields) : Visible t loops (item.name :: fields)

/-- Outside its markers the text has no brace, and inside these loops all variables in them are visible. -/
def Scoped (t : Template) (loops : List Loop) (text : String) : Prop :=
  Segment.Only (fun formula => ∀ found, Formula.parse formula = .ok found → ∀ path ∈ found.paths, Visible t loops path)
    text

/-- A text without stray braces is scoped if each of its formulas is a variable that is visible. -/
theorem scoped_of_variables {t : Template} {loops : List Loop} {text : String} (ht : Segment.Tidy text)
    (h : ∀ formula ∈ formulaTexts text, ∃ path, Formula.parse formula = .ok (.var path) ∧ Visible t loops path) :
    Scoped t loops text := by
  refine ⟨ht, fun raw formula hm found hfound path hp => ?_⟩
  obtain ⟨path', hparse, hv⟩ := h formula (List.mem_filterMap.mpr ⟨_, hm, rfl⟩)
  cases hparse.symm.trans hfound
  cases List.mem_singleton.mp hp
  exact hv

/-- The node stands inside these loops, and each text in which markers are replaced has the property there. The
    path and the index name of a loop have no markers, its index name is not declared, and the branches of a
    choice are no actions. -/
inductive Shaped (t : Template) (P : List Loop → String → Prop) (Q : String → Prop) : List Loop → Node → Prop
  | plain {loops : List Loop} {head : Head} {children : List Node} (tag : Action.ofTag? head.name = none)
      (attributes : ∀ a ∈ head.attributes, P loops a.2) (inside : ∀ node ∈ children, Shaped t P Q loops node) :
      Shaped t P Q loops (.element head children)
  | loop {loops : List Loop} {head : Head} {children : List Node} (tag : Action.ofTag? head.name = some .forEach)
      (attributes : ∀ a ∈ head.attributes, P loops a.2)
      (fixed : ∀ name ∈ ["list", "i"], ∀ value, head.attributes.lookup name = some value → Segment.markers value = [])
      (fresh : ∀ param ∈ t.declared, param.name ≠ (Loop.ofHead t head).index)
      (inside : ∀ node ∈ children, Shaped t P Q (Loop.ofHead t head :: loops) node) :
      Shaped t P Q loops (.element head children)
  | choice {loops : List Loop} {head : Head} {children : List Node} (tag : Action.ofTag? head.name = some .choose)
      (attributes : ∀ a ∈ head.attributes, P loops a.2) (branches : ∀ node ∈ children, node.NotAction)
      (inside : ∀ node ∈ children, Shaped t P Q loops node) : Shaped t P Q loops (.element head children)
  | text {loops : List Loop} {content : String} (h : P loops content) : Shaped t P Q loops (.text content)
  | cdata {loops : List Loop} {content : String} (h : Q content) : Shaped t P Q loops (.cdata content)
  | comment {loops : List Loop} (content : String) : Shaped t P Q loops (.comment content)
  | instruction {loops : List Loop} (target : String) (data : Option String) :
      Shaped t P Q loops (.instruction target data)

/-- No two declarations have the same name, and the markers of the body name only what is visible. -/
structure WellScoped (t : Template) : Prop where
  distinct : t.Distinct
  attributes : ∀ a ∈ t.content.head.attributes, Scoped t [] a.2
  content : ∀ node ∈ t.content.children, Shaped t (Scoped t) (fun _ => True) [] node

end Template

/-! ### Inert values -/

/-- No brace in the texts of the markup, also written out, and no action in it. -/
structure Markup.Element.Inert (e : Element) : Prop where
  inner : Unbraced e.inner
  texts : ∀ text ∈ Template.textsIn e.children, Unbraced text
  actions : ∀ node ∈ e.children, node.All Node.NotAction

/-- No brace in the texts of the value and no brace or action in its markup, at any depth of lists and records. -/
abbrev Value.Inert : Value → Prop :=
  Value.Every Unbraced Element.Inert

theorem Calendar.Date.unbraced_monthName (date : Calendar.Date) : Unbraced date.monthName := by
  have hnames : ∀ name ∈ Calendar.monthNames, Unbraced name := by decide
  unfold Calendar.Date.monthName
  rw [List.getD_eq_getElem?_getD]
  cases h : Calendar.monthNames[date.month - 1]? with
  | none => exact nofun
  | some name => exact hnames name (List.mem_of_getElem? h)

/-- A date is inert if the text that it is read from has no brace. -/
theorem Value.inert_dateValue {text : String} (h : Unbraced text) (date : Calendar.Date) :
    (Param.dateValue text date).Inert := by
  refine .record fun name value hm => ?_
  simp only [List.mem_cons, List.not_mem_nil, or_false, Prod.mk.injEq] at hm
  rcases hm with ⟨-, rfl⟩ | ⟨-, rfl⟩ | ⟨-, rfl⟩ | ⟨-, rfl⟩ | ⟨-, rfl⟩
  · exact .text h
  · exact .text (Text.unbraced_toString_int date.year)
  · exact .text (Text.unbraced_toString date.month)
  · exact .text (Text.unbraced_toString date.day)
  · exact .text date.unbraced_monthName

namespace Template

theorem forall_textsIn {P : String → Prop} {nodes : List Node} :
    (∀ text ∈ textsIn nodes, P text) ↔ ∀ node ∈ nodes, ∀ text ∈ textsOf node, P text := by
  induction nodes with
  | nil => simp [textsIn]
  | cons node nodes ih => rw [textsIn, List.forall_mem_append, ih, List.forall_mem_cons]

theorem forall_textsOf_element {P : String → Prop} {head : Head} {children : List Node} :
    (∀ text ∈ textsOf (.element head children), P text) ↔
      (∀ a ∈ head.attributes, P a.2) ∧ ∀ node ∈ children, ∀ text ∈ textsOf node, P text := by
  rw [textsOf, List.forall_mem_append, attributeTexts, List.forall_mem_map, forall_textsIn]

theorem plain_of_inert {node : Node} (ha : node.All Node.NotAction) (hu : ∀ text ∈ textsOf node, Unbraced text) :
    node.Plain := by
  induction ha with
  | @element head children here _ ih =>
    obtain ⟨hattributes, hchildren⟩ := forall_textsOf_element.mp hu
    exact .element (here ⟨head, children⟩ rfl) hattributes fun node hn => ih node hn (hchildren node hn)
  | @leaf node _ hleaf =>
    cases node with
    | element => cases hleaf
    | text content => exact .text (hu content List.mem_cons_self)
    | cdata content => exact .cdata content
    | comment content => exact .comment content
    | instruction target data => exact .instruction target data

/-- Plain nodes are shaped, inside whatever loops. -/
theorem shaped_of_plain {t : Template} {P : List Loop → String → Prop} (hp : ∀ loops text, Unbraced text → P loops text)
    {node : Node} (h : node.Plain) (hu : ∀ text ∈ textsOf node, Unbraced text) (loops : List Loop) :
    Shaped t P Unbraced loops node := by
  induction h with
  | element tag attributes _ ih =>
    obtain ⟨-, hchildren⟩ := forall_textsOf_element.mp hu
    exact .plain tag (fun a ha => hp loops a.2 (attributes a ha)) fun node hn => ih node hn (hchildren node hn)
  | text unbraced => exact .text (hp loops _ unbraced)
  | cdata content => exact .cdata (hu content List.mem_cons_self)
  | comment content => exact .comment content
  | instruction target data => exact .instruction target data

end Template
end Letterpress
