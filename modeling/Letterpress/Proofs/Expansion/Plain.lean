import Letterpress.Proofs.Expansion.Basic
import Letterpress.Proofs.Formula.Unbraced
import Letterpress.Proofs.Template.Loaded

/-! Plain values: no brace in a text, and no action in markup. A marker replaced by a plain value leaves
    nothing that a later pass could take for a marker, and the nodes of plain markup stay as they are
    whatever is replaced or run in them. -/

namespace Letterpress
open Markup (Node Element Head)
open Text (Unbraced)

/-- No brace in the texts and attributes of the node, and no action in it. -/
inductive Markup.Node.Plain : Node → Prop
  | element {head : Head} {children : List Node} (tag : Action.ofTag? head.name = none)
      (attributes : ∀ a ∈ head.attributes, Unbraced a.2) (inside : ∀ node ∈ children, node.Plain) :
      Plain (.element head children)
  | text {content : String} (unbraced : Unbraced content) : Plain (.text content)
  | cdata (content : String) : Plain (.cdata content)
  | comment (content : String) : Plain (.comment content)
  | instruction (target : String) (data : Option String) : Plain (.instruction target data)

/-- No brace in the texts of the value, and plain markup, also as text, at any depth of lists and
    records. -/
abbrev Value.Plain : Value → Prop :=
  Value.Every Unbraced fun e => Unbraced e.inner ∧ ∀ node ∈ e.children, node.Plain

/-- Every name stands for a plain value. -/
abbrev Scope.Plain : Scope → Prop :=
  Scope.Every Unbraced fun e => Unbraced e.inner ∧ ∀ node ∈ e.children, node.Plain

namespace Value

mutual

theorem Plain.render {text : String} : ∀ {value : Value}, value.Plain → value.render = .ok text → Unbraced text
  | .text _, .text h, hr => by
    cases hr
    exact h
  | .markup _, .markup h, hr => by
    cases hr
    exact h.1
  | .record _, .record h, hr => unbraced_of_renderFields h hr

theorem unbraced_of_renderFields {text : String} : ∀ {fields : List (String × Value)},
    (∀ name value, (name, value) ∈ fields → value.Plain) → Value.renderFields fields = .ok text → Unbraced text
  | (name, value) :: fields, h, hr => by
    unfold Value.renderFields at hr
    split at hr
    · exact Plain.render (h name value List.mem_cons_self) hr
    · exact unbraced_of_renderFields (fun n v hm => h n v (List.mem_cons_of_mem _ hm)) hr

end

end Value

namespace Expansion

variable {t : Template} {ctx : Context} {scope : Scope}

theorem plain_iterationScope (hs : scope.Plain) {index item : String} {number : Nat} {value : Value}
    (hv : value.Plain) : (iterationScope scope index item number value).Plain :=
  every_iterationScope hs (Text.unbraced_toString number) hv

/-! ### Markers -/

/-- What a marker comes to in a scope of plain values has no brace. -/
theorem unbraced_of_evaluate (ht : t.Loaded) (hs : scope.Plain) {formula text : String}
    (h : evaluate t scope formula = .ok (.resolved text)) : Unbraced text := by
  obtain ⟨found, hf, heval⟩ := evaluate_eq_resolved.mp h
  refine Formula.unbraced_of_eval (fun path value text hl hr => Value.Plain.render (hs.lookup? hl) hr) ?_ heval
  exact fun text hm => Formula.unbraced_of_parse (ht.parse_of_formula? hf) hm

theorem plain_of_fragment? (hs : scope.Plain) {formula : String} {nodes : List Node}
    (h : fragment? t scope formula = some nodes) : ∀ node ∈ nodes, node.Plain := by
  obtain ⟨path, e, -, hl, rfl⟩ := fragment?_eq_some.mp h
  cases hs.lookup? hl with
  | markup h => exact h.2

/-! ### Plain nodes stay -/

theorem attributeValue_unbraced {value : String} (h : Unbraced value) :
    attributeValue t scope value = .ok value :=
  attributeValue_of_no_marker (Segment.markers_of_unbraced h)

theorem splice_unbraced {text : String} (h : Unbraced text) : splice t scope text = .ok [.text text] := by
  rw [splice, Segment.markers_of_unbraced h]
  rfl

theorem substituteAttributes_unbraced {attributes : List (String × String)}
    (h : ∀ a ∈ attributes, Unbraced a.2) : substituteAttributes t scope attributes = .ok attributes := by
  induction attributes with
  | nil => rfl
  | cons a attributes ih =>
    obtain ⟨name, value⟩ := a
    exact substituteAttributes_cons_eq_ok.mpr ⟨value, attributes, attributeValue_unbraced (h _ List.mem_cons_self),
      ih fun a ha => h a (List.mem_cons_of_mem _ ha), rfl⟩

theorem substituteHead_unbraced {head : Head} (h : ∀ a ∈ head.attributes, Unbraced a.2) :
    substituteHead t scope head = .ok head :=
  substituteHead_eq_ok.mpr ⟨head.attributes, substituteAttributes_unbraced h, rfl⟩

theorem substitute_of_forall {nodes : List Node} (h : ∀ node ∈ nodes, substituteNode t scope node = .ok [node]) :
    substitute t scope nodes = .ok nodes := by
  induction nodes with
  | nil => rfl
  | cons node nodes ih =>
    exact substitute_cons_eq_ok.mpr ⟨[node], nodes, h node List.mem_cons_self,
      ih fun n hn => h n (List.mem_cons_of_mem _ hn), rfl⟩

theorem substituteNode_plain {node : Node} (h : node.Plain) : substituteNode t scope node = .ok [node] := by
  induction h with
  | @element head children tag attributes inside ih =>
    exact substituteNode_element_eq_ok.mpr
      ⟨head, children, substituteHead_unbraced attributes, substitute_of_forall ih, rfl⟩
  | text unbraced => exact splice_unbraced unbraced
  | cdata => rfl
  | comment => rfl
  | instruction => rfl

theorem substitute_plain {nodes : List Node} (h : ∀ node ∈ nodes, node.Plain) :
    substitute t scope nodes = .ok nodes :=
  substitute_of_forall fun node hn => substituteNode_plain (h node hn)

theorem runActions_of_forall {run : Scope → List Node → Except Error (List Node)} {nodes : List Node}
    (h : ∀ node ∈ nodes, runNode t ctx run scope node = .ok [node]) : runActions t ctx run scope nodes = .ok nodes := by
  induction nodes with
  | nil => rfl
  | cons node nodes ih =>
    exact runActions_cons_eq_ok.mpr ⟨[node], nodes, h node List.mem_cons_self,
      ih fun n hn => h n (List.mem_cons_of_mem _ hn), rfl⟩

theorem runNode_of_plain {run : Scope → List Node → Except Error (List Node)} {node : Node} (h : node.Plain) :
    runNode t ctx run scope node = .ok [node] := by
  induction h with
  | @element head children tag attributes inside ih =>
    exact (runNode_plain_eq_ok tag).mpr ⟨children, runActions_of_forall ih, rfl⟩
  | text => rfl
  | cdata => rfl
  | comment => rfl
  | instruction => rfl

theorem runActions_plain {run : Scope → List Node → Except Error (List Node)} {nodes : List Node}
    (h : ∀ node ∈ nodes, node.Plain) : runActions t ctx run scope nodes = .ok nodes :=
  runActions_of_forall fun node hn => runNode_of_plain (h node hn)

end Expansion
end Letterpress
