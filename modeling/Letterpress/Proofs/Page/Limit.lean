import Letterpress.Proofs.Page.Basic
import Letterpress.Proofs.Template.Limit

/-! Replacing instances under different limits on the nesting of loops. A higher limit gives the same as one
    that is high enough. -/

namespace Letterpress
open Markup (Node Element Head)

namespace Page

variable {registry : Registry} {ctx : Context}

/-- The nodes after replacing the instances in them, under this limit on the nesting of loops. -/
def replaced (registry : Registry) (ctx : Context) (depth limit : Nat) (nodes : List Node) : Except Error (List Node) :=
  (expand registry (ctx.withLimit limit) depth nodes).result

/-- The nodes for an instance, under this limit on the nesting of loops. -/
def instantiated (registry : Registry) (ctx : Context) (depth limit : Nat) (t : Template) (e : Element) :
    Except Error (List Node) :=
  (instantiate registry (ctx.withLimit limit) depth t e).result

/-- The nodes after replacing the instances in a node, under this limit on the nesting of loops. -/
def replacedNode (registry : Registry) (ctx : Context) (depth limit : Nat) (node : Node) : Except Error (List Node) :=
  (replaceNode registry (instantiate registry (ctx.withLimit limit) depth) node).result

theorem replaced_cons (depth limit : Nat) (node : Node) (nodes : List Node) :
    replaced registry ctx depth limit (node :: nodes) = replacedNode registry ctx depth limit node >>= fun front =>
      replaced registry ctx depth limit nodes >>= fun rest => .ok (front ++ rest) := by
  simp only [replaced, expand_eq_replace, result_replace_cons]
  rfl

theorem replacedNode_instance {depth limit : Nat} {head : Head} {children : List Node} {t : Template}
    (ht : registry.get? head.name = some t) :
    replacedNode registry ctx depth limit (.element head children) =
      instantiated registry ctx depth limit t ⟨head, children⟩ := by
  rw [replacedNode, replaceNode_instance ht]
  rfl

theorem replacedNode_other {depth limit : Nat} {head : Head} {children : List Node} (ht : registry.get? head.name = none) :
    replacedNode registry ctx depth limit (.element head children) =
      replaced registry ctx depth limit children >>= fun children => .ok [.element head children] := by
  rw [replacedNode, result_replaceNode_other ht, replaced, expand_eq_replace]

theorem replacedNode_of_no_element {depth limit : Nat} {node : Node} (h : node.element? = none) :
    replacedNode registry ctx depth limit node = .ok [node] := by
  cases node with
  | element => cases h
  | _ => rfl

theorem replaced_nil (depth limit : Nat) : replaced registry ctx depth limit [] = .ok [] := by
  rw [replaced, expand_eq_replace]
  rfl

theorem instantiated_succ (depth limit : Nat) (t : Template) (e : Element) :
    instantiated registry ctx (depth + 1) limit t e =
      t.apply (ctx.withLimit limit) e >>= fun content => replaced registry ctx depth limit content.children :=
  result_instantiate_succ depth t e

/-! ### Higher limits -/

theorem instantiate_withLimit {depth m n : Nat} (h : m ≤ n) {t : Template} {e : Element}
    (hs : Settled (instantiated registry ctx depth m t e)) :
    instantiate registry (ctx.withLimit n) depth t e = instantiate registry (ctx.withLimit m) depth t e := by
  induction depth generalizing t e with
  | zero => rfl
  | succ depth ih =>
    have happlied : (applied (ctx.withLimit m) t e).result ≠ .error .loopLimit →
        applied (ctx.withLimit n) t e = applied (ctx.withLimit m) t e := fun hs => by
      rw [result_applied] at hs
      simp only [applied, Template.apply_mono h hs]
    refine Traced.bind_eq_of_ne happlied (fun content _ hs => ?_) hs
    rw [expand_eq_replace] at hs ⊢
    rw [expand_eq_replace]
    exact replace_eq_of_ne (fun _ _ hs => ih hs) hs

theorem replacedNode_mono {depth m n : Nat} (h : m ≤ n) {node : Node}
    (hs : Settled (replacedNode registry ctx depth m node)) :
    replacedNode registry ctx depth n node = replacedNode registry ctx depth m node :=
  congrArg Traced.result (replaceNode_eq_of_ne (fun _ _ hs => instantiate_withLimit h hs) hs)

theorem replaced_mono {depth m n : Nat} (h : m ≤ n) {nodes : List Node}
    (hs : Settled (replaced registry ctx depth m nodes)) :
    replaced registry ctx depth n nodes = replaced registry ctx depth m nodes := by
  unfold replaced at hs ⊢
  rw [expand_eq_replace] at hs ⊢
  rw [expand_eq_replace]
  exact congrArg Traced.result (replace_eq_of_ne (fun _ _ hs => instantiate_withLimit h hs) hs)

end Page
end Letterpress
