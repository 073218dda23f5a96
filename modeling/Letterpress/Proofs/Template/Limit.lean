import Letterpress.Proofs.Expansion.Ending
import Letterpress.Proofs.Template.Fault
import Letterpress.Proofs.Template.Surroundings

/-! Applying a template under different limits on the nesting of loops. The limit has nothing to do with the
    parameters, and a higher one gives the same as one that is high enough. -/

namespace Letterpress
open Markup (Node Element Head)

/-- The context with another limit on the nesting of loops. -/
def Context.withLimit (ctx : Context) (limit : Nat) : Context :=
  { ctx with loopLimit := limit }

theorem Context.seesAlike_withLimit (ctx : Context) (limit : Nat) : ctx.SeesAlike (ctx.withLimit limit) :=
  ⟨rfl, rfl, rfl⟩

theorem Template.settled_bind (t : Template) (ctx : Context) (e : Element) : Settled (t.bind ctx e) :=
  (fails_bind ⟨fun _ _ _ _ => nofun, fun _ _ _ => nofun, fun _ _ => nofun⟩ t e).settled

/-- An application binds the parameters and expands the body, with loops nested up to the limit. -/
theorem Template.apply_withLimit (t : Template) (ctx : Context) (limit : Nat) (e : Element) :
    t.apply (ctx.withLimit limit) e = t.bind ctx e >>= fun bound =>
      Expansion.substituteHead t (Scope.ofParams bound) t.content.head >>= fun head =>
      Expansion.expand t ctx (limit + 1) (Scope.ofParams bound) t.content.children >>= fun children =>
      .ok ⟨head, children⟩ := by
  have h := ctx.seesAlike_withLimit limit
  simp only [Template.apply, Template.bind_congr h, Expansion.expandElement, Expansion.expand_congr h]
  rfl

theorem Template.apply_mono {t : Template} {ctx : Context} {m n : Nat} (h : m ≤ n) {e : Element}
    (hs : Settled (t.apply (ctx.withLimit m) e)) :
    t.apply (ctx.withLimit n) e = t.apply (ctx.withLimit m) e := by
  rw [Template.apply_withLimit] at hs ⊢
  rw [Template.apply_withLimit]
  refine Stepwise.lasting.bind (fun _ => rfl) (fun bound _ => ?_) hs
  refine Stepwise.lasting.bind (fun _ => rfl) fun head _ => ?_
  exact Stepwise.lasting.bind (Expansion.expand_outlasts (Nat.succ_le_succ h) _ _) fun _ _ _ => rfl

theorem Template.settled_apply {t : Template} {ctx : Context} {e : Element} {limit : Nat}
    (h : ∀ bound head', t.bind ctx e = .ok bound →
      Expansion.substituteHead t (Scope.ofParams bound) t.content.head = .ok head' →
      Settled (Expansion.expand t ctx (limit + 1) (Scope.ofParams bound) t.content.children)) :
    Settled (t.apply (ctx.withLimit limit) e) := by
  rw [Template.apply_withLimit]
  refine (t.settled_bind ctx e).bind fun bound hb => ?_
  refine (Expansion.settled_substituteHead _).bind fun head hh => ?_
  exact (h bound head hb hh).bind fun _ _ => Settled.ok _

theorem Template.apply_ends {t : Template} {ctx : Context} {e : Element}
    (h : ∀ bound head', t.bind ctx e = .ok bound →
      Expansion.substituteHead t (Scope.ofParams bound) t.content.head = .ok head' →
      Expansion.Ends t ctx (Scope.ofParams bound) t.content.children) :
    ∃ limit, Settled (t.apply (ctx.withLimit limit) e) := by
  by_cases hstart : ∃ bound head', t.bind ctx e = .ok bound ∧
      Expansion.substituteHead t (Scope.ofParams bound) t.content.head = .ok head'
  · obtain ⟨bound, head, hb, hh⟩ := hstart
    obtain ⟨limit, hl⟩ := h bound head hb hh
    refine ⟨limit, Template.settled_apply fun bound' head' hb' _ => ?_⟩
    cases hb.symm.trans hb'
    rw [Expansion.expand_outlasts (Nat.le_succ limit) _ _ hl]
    exact hl
  · exact ⟨0, Template.settled_apply fun bound head hb hh => absurd ⟨bound, head, hb, hh⟩ hstart⟩

end Letterpress
