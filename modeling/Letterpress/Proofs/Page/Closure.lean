import Letterpress.Proofs.Markup.Tree
import Letterpress.Proofs.Page.Basic

/-! A processed page is closed: there is no instance left in it, wherever the instances came from, so that
    replacing instances once more does nothing. -/

namespace Letterpress
open Markup (Node Element Head)

namespace Page

variable {registry : Registry} {ctx : Context}

/-- The node is no instance of a template. -/
def Unregistered (registry : Registry) (node : Node) : Prop :=
  ∀ e, node.element? = some e → registry.get? e.name = none

theorem unregistered_of_no_element {node : Node} (h : node.element? = none) : Unregistered registry node := by
  intro e he
  rw [h] at he
  cases he

section
variable {instantiate : Template → Element → Traced (List Node)}

/-! ### Nothing is left -/

mutual

theorem unregistered_of_replaceNode (hi : ∀ t e out, (instantiate t e).result = .ok out →
      ∀ node ∈ out, node.All (Unregistered registry)) : ∀ {node : Node} {out : List Node},
    (replaceNode registry instantiate node).result = .ok out → ∀ node ∈ out, node.All (Unregistered registry)
  | .element head children, out, h => by
    cases ht : registry.get? head.name with
    | some t =>
      rw [replaceNode_instance ht] at h
      exact hi t _ out h
    | none =>
      rw [result_replaceNode_other ht] at h
      obtain ⟨inside, hc, h⟩ := bind_eq_ok.mp h
      cases h
      refine List.forall_mem_singleton.mpr (.element (fun e he => ?_) (unregistered_of_replace hi hc))
      cases he
      exact ht
  | .text _, out, h | .cdata _, out, h | .comment _, out, h | .instruction .., out, h => by
    cases h
    exact List.forall_mem_singleton.mpr (.leaf (unregistered_of_no_element rfl) rfl)

theorem unregistered_of_replace (hi : ∀ t e out, (instantiate t e).result = .ok out →
      ∀ node ∈ out, node.All (Unregistered registry)) : ∀ {nodes out : List Node},
    (replace registry instantiate nodes).result = .ok out → ∀ node ∈ out, node.All (Unregistered registry)
  | [], out, h => by
    cases h
    exact nofun
  | node :: nodes, out, h => by
    rw [result_replace_cons] at h
    obtain ⟨front, hf, h⟩ := bind_eq_ok.mp h
    obtain ⟨rest, hr, h⟩ := bind_eq_ok.mp h
    cases h
    exact List.forall_mem_append.mpr ⟨unregistered_of_replaceNode hi hf, unregistered_of_replace hi hr⟩

end

/-! ### Nothing to do -/

mutual

theorem replaceNode_unregistered : ∀ {node : Node}, node.All (Unregistered registry) →
    replaceNode registry instantiate node = .ofResult (.ok [node])
  | .element head children, h => by
    have ht : registry.get? head.name = none := h.here ⟨head, children⟩ rfl
    simp only [replaceNode, ht]
    rw [replace_unregistered h.inside]
    rfl
  | .text _, _ | .cdata _, _ | .comment _, _ | .instruction .., _ => rfl

theorem replace_unregistered : ∀ {nodes : List Node}, (∀ node ∈ nodes, node.All (Unregistered registry)) →
    replace registry instantiate nodes = .ofResult (.ok nodes)
  | [], _ => rfl
  | node :: nodes, h => by
    obtain ⟨hnode, hnodes⟩ := List.forall_mem_cons.mp h
    rw [replace, replaceNode_unregistered hnode, replace_unregistered hnodes]
    rfl

end

end

theorem unregistered_of_instantiate {depth : Nat} {t : Template} {e : Element} {out : List Node}
    (h : (instantiate registry ctx depth t e).result = .ok out) : ∀ node ∈ out, node.All (Unregistered registry) := by
  induction depth generalizing t e out with
  | zero => cases h
  | succ depth ih =>
    -- What an instance stands for has its own instances replaced before it takes its place.
    rw [result_instantiate_succ] at h
    obtain ⟨content, -, h⟩ := bind_eq_ok.mp h
    rw [expand_eq_replace] at h
    exact unregistered_of_replace (fun _ _ _ h => ih h) h

theorem unregistered_of_expand {depth : Nat} {nodes out : List Node}
    (h : (expand registry ctx depth nodes).result = .ok out) : ∀ node ∈ out, node.All (Unregistered registry) := by
  rw [expand_eq_replace] at h
  exact unregistered_of_replace (fun _ _ _ h => unregistered_of_instantiate h) h

theorem expand_unregistered {depth : Nat} {nodes : List Node} (h : ∀ node ∈ nodes, node.All (Unregistered registry)) :
    expand registry ctx depth nodes = .ofResult (.ok nodes) := by
  rw [expand_eq_replace]
  exact replace_unregistered h

theorem expandElement_unregistered {page : Element} (h : ∀ node ∈ page.children, node.All (Unregistered registry)) :
    expandElement registry ctx page = .ofResult (.ok page) := by
  rw [expandElement, expand_unregistered h]
  rfl

/-- No element below the root of a processed page is an instance, so that nothing in it is replaced again, in
    any surroundings and at any depth. A page without instances is processed into itself. -/
theorem process_closed (registry : Registry) (ctx : Context) (text : String) :
    (∀ page, (process registry ctx text).result = .ok page →
      (∀ node ∈ page.children, node.All (Unregistered registry)) ∧
      ∀ ctx' depth, expand registry ctx' depth page.children = .ofResult (.ok page.children)) ∧
    ∀ page, read text = .ok page → (∀ node ∈ page.children, node.All (Unregistered registry)) →
      process registry ctx text = .ofResult (.ok page) := by
  refine ⟨fun page h => ?_, fun page hpage hnone => ?_⟩
  · rw [process, result_bind] at h
    obtain ⟨root, -, h⟩ := bind_eq_ok.mp h
    rw [expandElement, result_bind] at h
    obtain ⟨children, hc, h⟩ := bind_eq_ok.mp h
    cases h
    have hnone : ∀ node ∈ children, node.All (Unregistered registry) := unregistered_of_expand hc
    exact ⟨hnone, fun ctx' depth => expand_unregistered hnone⟩
  · rw [process, hpage]
    exact expandElement_unregistered hnone

/-- A template that puts a box around the markup it is given. -/
def boxed : Template where
  name := "boxed"
  params := [.markup "body" true]
  content := ⟨{ name := "content" }, [.element { name := "div" } [.text "\x7b\x7bbody\x7d\x7d"]]⟩
  formulas := [("body", .var ["body"])]

/-- A template that boxes each of its items. -/
def boxes : Template where
  name := "boxes"
  params := [.list "items" true (.text "item" true .generic)]
  content := ⟨{ name := "content" },
    [.element { name := "ForEach", attributes := [("list", "items")] }
      [.element { name := "boxed" } [.element { name := "body" } [.text "\x7b\x7bitem\x7d\x7d"]]]]⟩
  formulas := [("item", .var ["item"])]

def boxesPage : String :=
  "<page><boxed><body><boxes><items><item>a</item><item>b</item></items></boxes></body></boxed></page>"

/-- What becomes of it: a box around two others. -/
def boxesResult : Element :=
  ⟨{ name := "page" }, [.element { name := "div" }
    [.element { name := "div" } [.text "a"], .element { name := "div" } [.text "b"]]]⟩

/-- Instances on the page, in markup it supplies and in the body of a loop are all gone. -/
theorem expand_boxesResult :
    (process ⟨[boxed, boxes]⟩ emptySite boxesPage).result = .ok boxesResult ∧
    expand ⟨[boxed, boxes]⟩ emptySite 0 boxesResult.children = .ofResult (.ok boxesResult.children) := by
  have hprocess : (process ⟨[boxed, boxes]⟩ emptySite boxesPage).result = .ok boxesResult :=
    eq_ok_of_toOption (by decide +kernel)
  exact ⟨hprocess, ((process_closed _ _ _).1 _ hprocess).2 emptySite 0⟩

end Page
end Letterpress
