import Letterpress.Proofs.Page.Closure
import Letterpress.Proofs.Page.Instances

/-! The limit on the nesting of templates. A page runs into it exactly where it meets an instance inside as
    many others as the limit allows; under every higher limit it comes to what it comes to under the first
    that it does not run into. -/

namespace Letterpress
open Markup (Node Element Head)

/-- The surroundings with another limit on the nesting of templates. -/
def Context.withDepth (ctx : Context) (depth : Nat) : Context :=
  { ctx with maxDepth := depth }

theorem Context.seesAlike_withDepth (ctx : Context) (depth : Nat) : ctx.SeesAlike (ctx.withDepth depth) :=
  ⟨rfl, rfl, rfl⟩

namespace Page

variable {registry : Registry} {ctx : Context}

/-! ### Running into the limit -/

/-- No application runs into the limit on the nesting of templates: that is a matter of pages. -/
theorem apply_ne_recursionLimit (t : Template) (e : Element) (n : Nat) : t.apply ctx e ≠ .error (.recursionLimit n) := by
  have hfails : FailsWith (∀ n, · ≠ .recursionLimit n) (t.apply ctx e) := by
    refine t.fails_apply ?_ ?_ e (Expansion.carries_of_forEach fun _ _ _ => nofun) fun _ _ => trivial
    · exact ⟨fun _ _ _ _ _ => nofun, fun _ _ _ _ => nofun, fun _ _ _ => nofun⟩
    · exact ⟨fun _ _ _ => nofun, fun _ _ _ => nofun, fun _ _ => nofun, fun _ => nofun⟩
  exact fun h => hfails _ h n rfl

theorem read_ne_recursionLimit (text : String) (n : Nat) : read text ≠ .error (.recursionLimit n) := by
  unfold read
  split
  · exact nofun
  · split
    · exact nofun
    · exact nofun

/-- An instance that runs into the limit meets another one, or is one itself, inside as many as the depth
    allows. -/
def InstancesMeet (registry : Registry) (ctx : Context) (depth limit : Nat) : Prop :=
  ∀ head children t n, registry.get? head.name = some t →
    instantiated registry ctx depth limit t ⟨head, children⟩ = .error (.recursionLimit n) →
    n = ctx.maxDepth ∧ ∃ t' e, Meets registry ctx depth [.element head children] depth t' e

mutual

theorem meets_of_replacedNode {depth limit n : Nat} (hi : InstancesMeet registry ctx depth limit) : ∀ {node : Node},
    replacedNode registry ctx depth limit node = .error (.recursionLimit n) →
    n = ctx.maxDepth ∧ ∃ t e, Meets registry ctx depth [node] depth t e
  | .element head children, h => by
    cases ht : registry.get? head.name with
    | some t =>
      rw [replacedNode_instance ht] at h
      exact hi head children t n ht h
    | none =>
      rw [replacedNode_other ht] at h
      rcases bind_eq_error.mp h with h | ⟨_, _, h⟩
      · obtain ⟨hn, t, e, hm⟩ := meets_of_replaced_of hi h
        exact ⟨hn, t, e, .inside ht hm⟩
      · cases h
  | .text _, h | .cdata _, h | .comment _, h | .instruction .., h => by
    rw [replacedNode_of_no_element rfl] at h
    cases h

theorem meets_of_replaced_of {depth limit n : Nat} (hi : InstancesMeet registry ctx depth limit) :
    ∀ {nodes : List Node}, replaced registry ctx depth limit nodes = .error (.recursionLimit n) →
    n = ctx.maxDepth ∧ ∃ t e, Meets registry ctx depth nodes depth t e
  | [], h => by
    rw [replaced_nil] at h
    cases h
  | node :: nodes, h => by
    rw [replaced_cons] at h
    rcases bind_eq_error.mp h with h | ⟨front, hfront, h⟩
    · obtain ⟨hn, t, e, hm⟩ := meets_of_replacedNode hi h
      exact ⟨hn, t, e, hm.cons_of_singleton⟩
    · rcases bind_eq_error.mp h with h | ⟨_, _, h⟩
      · obtain ⟨hn, t, e, hm⟩ := meets_of_replaced_of hi h
        exact ⟨hn, t, e, .later ⟨limit, front, hfront⟩ hm⟩
      · cases h

end

theorem instancesMeet (depth limit : Nat) : InstancesMeet registry ctx depth limit := by
  induction depth with
  | zero =>
    intro head children t n ht h
    cases h
    exact ⟨rfl, t, _, .here ht⟩
  | succ depth ih =>
    intro head children t n ht h
    rw [instantiated_succ] at h
    rcases bind_eq_error.mp h with h | ⟨content, hcontent, h⟩
    · exact absurd h (apply_ne_recursionLimit t _ n)
    · obtain ⟨hn, t', e, hm⟩ := meets_of_replaced_of ih h
      exact ⟨hn, t', e, .within ht ⟨limit, hcontent⟩ hm⟩

theorem replaced_eq_recursionLimit {depth limit : Nat} {nodes : List Node} :
    replaced registry ctx depth limit nodes = .error (.recursionLimit ctx.maxDepth) ↔
      Settled (replaced registry ctx depth limit nodes) ∧ ∃ t e, Meets registry ctx depth nodes depth t e := by
  constructor
  · exact fun h => ⟨h ▸ nofun, (meets_of_replaced_of (instancesMeet depth limit) h).2⟩
  · rintro ⟨hs, t, e, hm⟩
    exact error_of_meets hm hs (by rw [Nat.sub_self]; rfl)

theorem process_eq_recursionLimit {text : String} {n : Nat} :
    (process registry ctx text).result = .error (.recursionLimit n) ↔ n = ctx.maxDepth ∧
      Settled (process registry ctx text).result ∧ ∃ page t e, read text = .ok page ∧
        Meets registry ctx ctx.maxDepth page.children ctx.maxDepth t e := by
  have hprocess : (process registry ctx text).result = read text >>= fun page =>
      replaced registry ctx ctx.maxDepth ctx.loopLimit page.children >>= fun children => .ok { page with children } :=
    result_process registry ctx ctx.loopLimit text
  constructor
  · intro h
    have hs : Settled (process registry ctx text).result := h ▸ nofun
    rw [hprocess] at h
    -- Reading the page never ends in this error, so it comes from replacing the instances.
    rcases bind_eq_error.mp h with h | ⟨page, hpage, h⟩
    · exact absurd h (read_ne_recursionLimit text n)
    rcases bind_eq_error.mp h with h | ⟨_, _, h⟩
    · obtain ⟨hn, t, e, hm⟩ := meets_of_replaced_of (instancesMeet _ _) h
      exact ⟨hn, hs, page, t, e, hpage, hm⟩
    · cases h
  · rintro ⟨rfl, hs, page, t, e, hpage, hm⟩
    rw [hprocess] at hs ⊢
    have hnodes := replaced_eq_recursionLimit.mpr ⟨(hs.next hpage).of_bind, t, e, hm⟩
    rw [hpage]
    show (replaced registry ctx ctx.maxDepth ctx.loopLimit page.children >>= _) = _
    rw [hnodes]
    rfl

/-! ### Higher limits -/

theorem applied_withDepth (depth : Nat) (t : Template) (e : Element) :
    applied (ctx.withDepth depth) t e = applied ctx t e := by
  have happly : t.apply (ctx.withDepth depth) e = t.apply ctx e :=
    Template.apply_congr (ctx.seesAlike_withDepth depth) rfl t e
  rw [applied, happly]
  rfl

theorem instantiate_withDepth {d d' depth depth' : Nat} (h : depth ≤ depth') {t : Template} {e : Element}
    (hn : (instantiate registry (ctx.withDepth d) depth t e).result ≠ .error (.recursionLimit d)) :
    instantiate registry (ctx.withDepth d') depth' t e = instantiate registry (ctx.withDepth d) depth t e := by
  -- The depth left over may differ as well: it falls on both sides with each application.
  induction depth generalizing depth' t e with
  | zero => exact absurd rfl hn
  | succ depth ih =>
    obtain ⟨depth', rfl⟩ : ∃ n, depth' = n + 1 := ⟨depth' - 1, by omega⟩
    refine Traced.bind_eq_of_ne (fun _ => by rw [applied_withDepth, applied_withDepth]) (fun content _ hn => ?_) hn
    rw [expand_eq_replace] at hn ⊢
    rw [expand_eq_replace]
    exact replace_eq_of_ne (fun _ _ hn => ih (Nat.le_of_succ_le_succ h) hn) hn

theorem process_withDepth {d d' : Nat} (h : d ≤ d') {text : String}
    (hn : (process registry (ctx.withDepth d) text).result ≠ .error (.recursionLimit d)) :
    process registry (ctx.withDepth d') text = process registry (ctx.withDepth d) text := by
  refine Traced.bind_eq_of_ne (fun _ => rfl) (fun page _ hn => ?_) hn
  refine Traced.bind_eq_of_ne (fun hn => ?_) (fun _ _ _ => rfl) hn
  rw [expand_eq_replace] at hn ⊢
  rw [expand_eq_replace]
  exact replace_eq_of_ne (fun _ _ hn => instantiate_withDepth h hn) hn

/-- A page comes to an end if each application on the way does, and never nests more applications than the
    limit allows: it runs into the limit exactly where it meets an instance inside as many others. What it
    comes to without running into the limit it comes to under all higher ones, and if it runs into the limit
    it runs into all lower ones. -/
theorem process_depth_limit (registry : Registry) (ctx : Context) (text : String) :
    ((∀ page level t e, read text = .ok page → Meets registry ctx ctx.maxDepth page.children level t e →
        level < ctx.maxDepth → ∃ limit, Settled (t.apply { ctx with loopLimit := limit } e)) →
      Ends registry ctx text) ∧
    (∀ page level t e, read text = .ok page → Meets registry ctx ctx.maxDepth page.children level t e →
      level ≤ ctx.maxDepth) ∧
    (∀ n, (process registry ctx text).result = .error (.recursionLimit n) ↔ n = ctx.maxDepth ∧
      Settled (process registry ctx text).result ∧ ∃ page t e, read text = .ok page ∧
        Meets registry ctx ctx.maxDepth page.children ctx.maxDepth t e) ∧
    ∀ d d', d ≤ d' →
      ((∀ n, (process registry { ctx with maxDepth := d } text).result ≠ .error (.recursionLimit n)) →
        process registry { ctx with maxDepth := d' } text = process registry { ctx with maxDepth := d } text) ∧
      ∀ n, (process registry { ctx with maxDepth := d' } text).result = .error (.recursionLimit n) →
        (process registry { ctx with maxDepth := d } text).result = .error (.recursionLimit d) := by
  refine ⟨fun h => ?_, fun page level t e _ hm => hm.level_le, fun n => process_eq_recursionLimit,
    fun d d' hd => ⟨fun h => process_withDepth hd (h d), fun n h => ?_⟩⟩
  · exact ends_of_applications fun page hpage level t e hm hl => h page level t e hpage hm hl
  · by_cases hne : (process registry (ctx.withDepth d) text).result = .error (.recursionLimit d)
    · exact hne
    have hsame : process registry (ctx.withDepth d') text = process registry (ctx.withDepth d) text :=
      process_withDepth hd hne
    have hd' : (process registry (ctx.withDepth d) text).result = .error (.recursionLimit n) := hsame ▸ h
    obtain ⟨rfl, -⟩ := process_eq_recursionLimit.mp hd'
    exact absurd hd' hne

/-- A page with three instances inside one another needs a limit of three. -/
theorem process_boxes_limits :
    Ends ⟨[boxed, boxes]⟩ emptySite boxesPage ∧
    process ⟨[boxed, boxes]⟩ { emptySite with maxDepth := 64 } boxesPage =
      process ⟨[boxed, boxes]⟩ { emptySite with maxDepth := 3 } boxesPage ∧
    (process ⟨[boxed, boxes]⟩ { emptySite with maxDepth := 2 } boxesPage).result = .error (.recursionLimit 2) ∧
    (process ⟨[boxed, boxes]⟩ { emptySite with maxDepth := 1 } boxesPage).result = .error (.recursionLimit 1) := by
  have hthree : (process ⟨[boxed, boxes]⟩ { emptySite with maxDepth := 3 } boxesPage).result = .ok boxesResult :=
    eq_ok_of_toOption (by decide +kernel)
  have htwo : (process ⟨[boxed, boxes]⟩ { emptySite with maxDepth := 2 } boxesPage).result =
      .error (.recursionLimit 2) := eq_error_of_fault? (by decide +kernel)
  obtain ⟨hends, -, -, hlimits⟩ := process_depth_limit ⟨[boxed, boxes]⟩ emptySite boxesPage
  have hsame := (hlimits 3 64 (by decide)).1 fun n => hthree ▸ nofun
  refine ⟨hends fun page level t e hpage hm hl => ⟨64, ?_⟩, hsame, htwo, (hlimits 1 2 (by decide)).2 2 htwo⟩
  refine settled_of_meets hm hl ?_
  have hresult : (process ⟨[boxed, boxes]⟩ (emptySite.withLimit 64) boxesPage).result = .ok boxesResult :=
    eq_ok_of_toOption (by decide +kernel)
  have hs := hresult ▸ Settled.ok boxesResult
  rw [result_process] at hs
  exact (hs.next hpage).of_bind

end Page
end Letterpress
