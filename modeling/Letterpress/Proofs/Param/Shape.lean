import Letterpress.Proofs.Param.Validation
import Letterpress.Proofs.Param.WellFormed

/-! The shape that a declaration gives to what elements supply for it: which kind of value there is at every
    depth, and in which form its texts are. Every validated value has it. -/

namespace Letterpress
open Markup (Node Element)

/-- The value is one that a text of the form can have. -/
inductive TextForm.Shape : TextForm → Value → Prop
  | generic (content : String) : Shape .generic (.text content)
  | integer {content : String} {n : Int} (trimmed : Text.trim content = content)
      (reads : Decimal.readInt64? content = some n) : Shape .integer (.text content)
  | float {content : String} {x : Float} (trimmed : Text.trim content = content)
      (reads : Decimal.read? content = some x) : Shape .float (.text content)
  | file (path : String) : Shape .file (.text ("/" ++ path))
  | date (content year month day monthName : String) : Shape .date (.record [("text", .text content),
      ("year", .text year), ("month", .text month), ("day", .text day), ("month-name", .text monthName)])
  | markdown (fragment : Element) : Shape .markdown (.markup fragment)

namespace Param

mutual

/-- The value is one that the element can supply for the parameter. -/
inductive Shape : Param → Element → Value → Prop
  | text {name : String} {required : Bool} {form : TextForm} {e : Element} {value : Value} (h : form.Shape value) :
      Shape (.text name required form) e value
  | markup {name : String} {required : Bool} (e : Element) : Shape (.markup name required) e (.markup e)
  | list {name : String} {required : Bool} {item : Param} {e : Element} {items : List Value}
      (h : ItemShapes item e.significant items) : Shape (.list name required item) e (.list items)
  | record {name : String} {required : Bool} {fields : List Param} {e : Element} {entries : List (String × Value)}
      (h : FieldShapes e.significant fields entries) : Shape (.record name required fields) e (.record entries)

/-- The values are those of items, one for each node and in their order. -/
inductive ItemShapes : Param → List Node → List Value → Prop
  | nil {item : Param} : ItemShapes item [] []
  | cons {item : Param} {child : Element} {nodes : List Node} {value : Value} {values : List Value}
      (hname : child.name = item.name) (first : Shape item child value) (rest : ItemShapes item nodes values) :
      ItemShapes item (child.toNode :: nodes) (value :: values)

/-- The entries are those of the fields, one for each field and in their order, out of some of the nodes. -/
inductive FieldShapes : List Node → List Param → List (String × Value) → Prop
  | nil {nodes : List Node} : FieldShapes nodes [] []
  | cons {nodes : List Node} {field : Param} {fields : List Param} {child : Element} {value : Value}
      {entries : List (String × Value)} (hmem : child.toNode ∈ nodes) (hname : child.name = field.name)
      (first : Shape field child value) (rest : FieldShapes nodes fields entries) :
      FieldShapes nodes (field :: fields) ((field.name, value) :: entries)

end

/-! ### Validated values -/

variable {ctx : Context}

theorem shape_of_readText {form : TextForm} {content : String} {value : Value}
    (h : readText ctx form content = .ok value) : form.Shape value := by
  cases readText_eq_ok.mp h with
  | generic => exact .generic content
  | integer hread =>
    obtain ⟨n, hn⟩ := Option.isSome_iff_exists.mp hread
    exact .integer (Text.trim_trim content) hn
  | float hread =>
    obtain ⟨x, hx⟩ := Option.isSome_iff_exists.mp hread
    exact .float (Text.trim_trim content) hx
  | file => exact .file _
  | date => exact .date ..
  | markdown => exact .markdown _

theorem itemShapes_of_forall₂ {item : Param} {nodes : List Node} {values : List Value}
    (hitem : ∀ child value, item.validate ctx child = .ok value → item.Shape child value)
    (h : List.Forall₂ (fun node value => ∃ child, node.element? = some child ∧ child.name = item.name ∧
      item.validate ctx child = .ok value) nodes values) : ItemShapes item nodes values := by
  induction h with
  | nil => exact .nil
  | cons hfirst _ ih =>
    obtain ⟨child, he, hname, hvalue⟩ := hfirst
    rw [Node.element?_eq_some.mp he]
    exact .cons hname (hitem child _ hvalue) ih

mutual

theorem shape_of_validate : ∀ {param : Param} {e : Element} {value : Value}, param.WellFormed →
    param.validate ctx e = .ok value → param.Shape e value
  | text name required form, e, value, _, h => by
    obtain ⟨content, -, h⟩ := validate_text_eq_ok.mp h
    exact .text (shape_of_readText h)
  | markup name required, e, value, _, h => by
    cases h
    exact .markup e
  | list name required item, e, value, hw, h => by
    cases hw with
    | list _ _ inside =>
      obtain ⟨items, rfl, hitems⟩ := validate_list_eq_ok h
      exact .list (itemShapes_of_forall₂ (fun _ _ => shape_of_validate inside) hitems)
  | record name required fields, e, value, hw, h => by
    cases hw with
    | record _ _ _ distinct inside =>
      obtain ⟨children, values, rfl, hnodes, -, hv⟩ := (validate_record_iff distinct).mp h
      exact .record (hnodes ▸ fieldShapes_of_forall₂ inside hv)

/-- The fields that elements are validated against give the entries their shapes. -/
theorem fieldShapes_of_forall₂ {children : List Element} : ∀ {fields : List Param} {entries : List (String × Value)},
    (∀ field ∈ fields, field.WellFormed) → List.Forall₂ (fun field entry => entry.1 = field.name ∧
      ∃ child ∈ children, child.name = field.name ∧ field.validate ctx child = .ok entry.2) fields entries →
    FieldShapes (children.map Element.toNode) fields entries
  | [], _, _, h => by
    cases h
    exact .nil
  | field :: fields, _, hw, h => by
    obtain ⟨hfirst, hrest⟩ := List.forall_mem_cons.mp hw
    cases h with
    | @cons _ entry _ entries h rest =>
      obtain ⟨key, value⟩ := entry
      obtain ⟨rfl, child, hchild, hname, hvalue⟩ := h
      exact .cons (List.mem_map_of_mem hchild) hname (shape_of_validate hfirst hvalue)
        (fieldShapes_of_forall₂ hrest rest)

end

end Param
end Letterpress
