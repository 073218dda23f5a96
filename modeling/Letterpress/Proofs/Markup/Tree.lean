import Letterpress.Markup.Reader

/-! Properties of all nodes of a tree, at any depth. A tree that has been read has no section of character
    data: the reader makes text of them. -/

namespace Letterpress
namespace Markup

@[simp] theorem Element.element?_toNode (e : Element) : e.toNode.element? = some e := rfl

theorem Element.toNode_injective : Function.Injective Element.toNode := fun e e' h =>
  Option.some.inj (congrArg Node.element? h : e.toNode.element? = e'.toNode.element?)

theorem Node.element?_eq_some {node : Node} {e : Element} : node.element? = some e ↔ node = e.toNode := by
  constructor
  · intro h
    cases node with
    | element head children =>
      cases h
      rfl
    | _ => cases h
  · rintro rfl
    rfl

/-- The node and all nodes inside it have the property. -/
inductive Node.All (P : Node → Prop) : Node → Prop
  | element {head : Head} {children : List Node} (here : P (.element head children))
      (inside : ∀ node ∈ children, node.All P) : All P (.element head children)
  | leaf {node : Node} (here : P node) (h : node.element? = none) : All P node

theorem Node.All.here {P : Node → Prop} {node : Node} (h : node.All P) : P node := by
  cases h with
  | element here => exact here
  | leaf here => exact here

theorem Node.All.inside {P : Node → Prop} {head : Head} {children : List Node}
    (h : Node.All P (.element head children)) : ∀ node ∈ children, node.All P := by
  cases h with
  | element _ inside => exact inside
  | leaf _ h => cases h

theorem Node.All.mono {P Q : Node → Prop} {node : Node} (h : node.All P) (hpq : ∀ node, P node → Q node) : node.All Q := by
  induction h with
  | element here _ ih => exact .element (hpq _ here) ih
  | leaf here hl => exact .leaf (hpq _ here) hl

/-- The node is no section of character data. -/
def Node.NotCdata (node : Node) : Prop :=
  ∀ content, node ≠ .cdata content

namespace Reader

/-- No section of character data among the nodes read so far: those in the open elements and in the root. -/
structure Progress.WithoutCdata (p : Progress) : Prop where
  frames : ∀ frame ∈ p.frames, ∀ node ∈ frame.children, node.All Node.NotCdata
  root : ∀ e, p.root = some e → ∀ node ∈ e.children, node.All Node.NotCdata

theorem Progress.WithoutCdata.add {p : Progress} (hp : p.WithoutCdata) {node : Node}
    (hn : node.All Node.NotCdata) : (p.add node).WithoutCdata := by
  obtain ⟨frames, root, started, typed⟩ := p
  cases frames with
  | cons frame frames =>
    refine ⟨fun f hf => ?_, hp.root⟩
    rcases List.mem_cons.mp hf with rfl | hf
    · exact List.forall_mem_cons.mpr ⟨hn, hp.frames frame List.mem_cons_self⟩
    · exact hp.frames f (List.mem_cons_of_mem _ hf)
  | nil =>
    refine ⟨nofun, fun e he => ?_⟩
    cases root with
    | some first => exact hp.root e he
    | none =>
      cases node with
      | element head children =>
        cases he
        exact hn.inside
      | _ => cases he

theorem Progress.WithoutCdata.take {p p' : Progress} (hp : p.WithoutCdata) {event : Event}
    (h : p.take event = some p') : p'.WithoutCdata := by
  have leaf : ∀ node : Node, node.NotCdata → node.element? = none → (p.add node).WithoutCdata :=
    fun node hn hl => hp.add (.leaf hn hl)
  cases event with
  | opening tag attributes closed =>
    obtain ⟨head, -, h⟩ := Option.bind_eq_some_iff.mp h
    have hp' : Progress.WithoutCdata { p with started := true } := ⟨hp.frames, hp.root⟩
    split at h
    · cases h
      exact hp'.add (.element nofun nofun)
    · cases h
      exact ⟨List.forall_mem_cons.mpr ⟨nofun, hp.frames⟩, hp.root⟩
  | closing tag =>
    simp only [Progress.take] at h
    split at h
    · rename_i frame frames hf
      split at h
      · cases h
        have hfront : ∀ f ∈ frame :: frames, ∀ node ∈ f.children, node.All Node.NotCdata := hf ▸ hp.frames
        have hp' : Progress.WithoutCdata { p with frames } :=
          ⟨fun f hm => hfront f (List.mem_cons_of_mem _ hm), hp.root⟩
        exact hp'.add (.element nofun fun node hn => hfront frame List.mem_cons_self node (List.mem_reverse.mp hn))
      · cases h
    · cases h
  | text content bare =>
    simp only [Progress.take] at h
    split at h
    · cases h
    · split at h
      · cases h
        exact hp
      · cases h
        exact leaf _ nofun rfl
  | cdata content =>
    simp only [Progress.take] at h
    split at h
    · cases h
    · cases h
      exact leaf _ nofun rfl
  | comment content =>
    cases h
    exact leaf _ nofun rfl
  | instruction target data =>
    cases h
    exact leaf _ nofun rfl
  | doctype =>
    simp only [Progress.take] at h
    split at h
    · cases h
    · cases h
      exact ⟨hp.frames, hp.root⟩

theorem Progress.WithoutCdata.run {events : List Event} {p p' : Progress} (hp : p.WithoutCdata)
    (h : events.foldlM Progress.take p = some p') : p'.WithoutCdata := by
  induction events generalizing p with
  | nil =>
    cases h
    exact hp
  | cons event events ih =>
    obtain ⟨next, ht, h⟩ := Option.bind_eq_some_iff.mp h
    exact ih (hp.take ht) h

end Reader

/-- Whatever is read has no section of character data in it. -/
theorem Element.notCdata_of_read? {text : String} {root : Element} (h : read? text = some root) :
    ∀ node ∈ root.children, node.All Node.NotCdata := by
  obtain ⟨cs, -, h⟩ := Option.bind_eq_some_iff.mp h
  obtain ⟨events, -, h⟩ := Option.bind_eq_some_iff.mp h
  have hstart : Reader.Progress.WithoutCdata {} := ⟨nofun, nofun⟩
  unfold Reader.ofEvents? at h
  split at h
  · rename_i p hp
    split at h
    · exact (hstart.run hp).root root h
    · cases h
  · cases h

end Markup
end Letterpress
