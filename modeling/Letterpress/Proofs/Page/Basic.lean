import Letterpress.Page
import Letterpress.Proofs.Template.Surroundings

/-! What replacing the instances in a page consists of: one equation for each kind of node, and what an
    instance comes to at each depth. -/

namespace Letterpress
open Markup (Node Element Head)

/-- Two steps one after the other come to the same if both do where they do not end in the error. -/
theorem Traced.bind_eq_of_ne {α β : Type} {x x' : Traced α} {f f' : α → Traced β} {fault : Error}
    (hx : x.result ≠ .error fault → x' = x)
    (hf : ∀ a, x.result = .ok a → (f a).result ≠ .error fault → f' a = f a)
    (h : (x >>= f).result ≠ .error fault) : (x' >>= f') = (x >>= f) := by
  have hbind : (x >>= f).result = x.result >>= fun a => (f a).result := Traced.result_andThen x f
  rw [hbind] at h
  rw [hx fun hbad => h (by rw [hbad]; rfl)]
  show x.andThen f' = x.andThen f
  unfold Traced.andThen
  cases hr : x.result with
  | error fault' => rfl
  | ok a =>
    rw [hr] at h
    simp only [hf a hr h]

namespace Page

variable {registry : Registry} {ctx : Context}

/-! ### Results without their warnings -/

section
variable {instantiate : Template → Element → Traced (List Node)}

theorem result_bind {α β : Type} (x : Traced α) (f : α → Traced β) :
    (x >>= f).result = x.result >>= fun a => (f a).result :=
  Traced.result_andThen x f

theorem result_replace_cons (node : Node) (nodes : List Node) :
    (replace registry instantiate (node :: nodes)).result =
      (replaceNode registry instantiate node).result >>= fun front =>
      (replace registry instantiate nodes).result >>= fun rest => .ok (front ++ rest) := by
  simp only [replace, result_bind]
  rfl

theorem replaceNode_instance {head : Head} {children : List Node} {t : Template} (ht : registry.get? head.name = some t) :
    replaceNode registry instantiate (.element head children) = instantiate t ⟨head, children⟩ := by
  simp only [replaceNode, ht]

theorem result_replaceNode_other {head : Head} {children : List Node} (ht : registry.get? head.name = none) :
    (replaceNode registry instantiate (.element head children)).result =
      (replace registry instantiate children).result >>= fun children => .ok [.element head children] := by
  simp only [replaceNode, ht, result_bind]
  rfl

end

section
variable {first second : Template → Element → Traced (List Node)} {fault : Error}

mutual

theorem replaceNode_eq_of_ne (hi : ∀ t e, (first t e).result ≠ .error fault → second t e = first t e) :
    ∀ {node : Node}, (replaceNode registry first node).result ≠ .error fault →
      replaceNode registry second node = replaceNode registry first node
  | .element head children, h => by
    cases ht : registry.get? head.name with
    | some t =>
      rw [replaceNode_instance ht] at h ⊢
      rw [replaceNode_instance ht]
      exact hi t _ h
    | none =>
      simp only [replaceNode, ht] at h ⊢
      exact Traced.bind_eq_of_ne (replace_eq_of_ne hi) (fun _ _ _ => rfl) h
  | .text _, _ | .cdata _, _ | .comment _, _ | .instruction .., _ => rfl

/-- Two ways to treat an instance that agree unless it ends in the error agree on pages that do not. -/
theorem replace_eq_of_ne (hi : ∀ t e, (first t e).result ≠ .error fault → second t e = first t e) :
    ∀ {nodes : List Node}, (replace registry first nodes).result ≠ .error fault →
      replace registry second nodes = replace registry first nodes
  | [], _ => rfl
  | _ :: _, h => Traced.bind_eq_of_ne (replaceNode_eq_of_ne hi)
      (fun _ _ h => Traced.bind_eq_of_ne (replace_eq_of_ne hi) (fun _ _ _ => rfl) h) h

end

end

/-! ### Registries that give the same templates -/

section
variable {registry' : Registry} {instantiate : Template → Element → Traced (List Node)}

mutual

theorem replaceNode_registry_congr (h : ∀ name, registry'.get? name = registry.get? name) :
    ∀ node : Node, replaceNode registry' instantiate node = replaceNode registry instantiate node
  | .element head children => by
    simp only [replaceNode, h, replace_registry_congr h children]
  | .text _ | .cdata _ | .comment _ | .instruction .. => rfl

/-- A page is looked up in a registry by the names of its elements only. -/
theorem replace_registry_congr (h : ∀ name, registry'.get? name = registry.get? name) :
    ∀ nodes : List Node, replace registry' instantiate nodes = replace registry instantiate nodes
  | [] => rfl
  | node :: nodes => by
    simp only [replace, replaceNode_registry_congr h node, replace_registry_congr h nodes]

end

theorem expand_registry_congr (h : ∀ name, registry'.get? name = registry.get? name) (depth : Nat)
    (nodes : List Node) : expand registry' ctx depth nodes = expand registry ctx depth nodes := by
  induction depth generalizing nodes with
  | zero => rw [expand, expand, replace_registry_congr h]
  | succ depth ih => simp only [expand, replace_registry_congr h, ih]

theorem render_registry_congr (h : ∀ name, registry'.get? name = registry.get? name) (layout : Markup.Layout)
    (text : String) : render registry' ctx layout text = render registry ctx layout text := by
  simp only [render, process, expandElement, expand_registry_congr h]

end

/-- The nodes for an instance, where instances may still nest so deep. -/
def instantiate (registry : Registry) (ctx : Context) : Nat → Template → Element → Traced (List Node)
  | 0, _, _ => .ofResult (.error (.recursionLimit ctx.maxDepth))
  | depth + 1, t, e => do
    let content ← applied ctx t e
    expand registry ctx depth content.children

theorem expand_eq_replace (depth : Nat) (nodes : List Node) :
    expand registry ctx depth nodes = replace registry (instantiate registry ctx depth) nodes := by
  cases depth <;> rfl

/-! ### Surroundings -/

section
variable {ctx' : Context}

theorem applied_congr (h : ctx.SeesAlike ctx') (hl : ctx'.loopLimit = ctx.loopLimit) (t : Template) (e : Element) :
    applied ctx' t e = applied ctx t e := by
  rw [applied, applied, t.apply_congr h hl]

theorem expand_congr (h : ctx.SeesAlike ctx') (hl : ctx'.loopLimit = ctx.loopLimit) (hd : ctx'.maxDepth = ctx.maxDepth)
    (depth : Nat) (nodes : List Node) : expand registry ctx' depth nodes = expand registry ctx depth nodes := by
  induction depth generalizing nodes with
  | zero => rw [expand, expand, hd]
  | succ depth ih => simp only [expand, applied_congr h hl, ih]

theorem render_congr (h : ctx.SeesAlike ctx') (hl : ctx'.loopLimit = ctx.loopLimit) (hd : ctx'.maxDepth = ctx.maxDepth)
    (layout : Markup.Layout) (text : String) : render registry ctx' layout text = render registry ctx layout text := by
  simp only [render, process, expandElement, expand_congr h hl hd, hd]

end

theorem result_applied (t : Template) (e : Element) : (applied ctx t e).result = t.apply ctx e := by
  unfold applied
  cases t.apply ctx e <;> rfl

theorem result_instantiate_succ (depth : Nat) (t : Template) (e : Element) :
    (instantiate registry ctx (depth + 1) t e).result =
      t.apply ctx e >>= fun content => (expand registry ctx depth content.children).result := by
  simp only [instantiate, result_bind, result_applied]

end Page
end Letterpress
