import Letterpress.Proofs.Expansion.Limit

/-! When an expansion comes to an end. Every iteration of a loop expands its body anew, and that body can
    hold loops that were not there before: those in markup that a marker of it stands for. An expansion
    ends if the expansions that it begins do not go on inside one another for ever. -/

namespace Letterpress
namespace Expansion
open Markup (Node Element Head)

variable {t : Template} {ctx : Context} {scope : Scope}

/-! ### Expansions inside an expansion -/

/-- To run the actions of the nodes is to begin an expansion of a body in an inner scope: all that comes
    before it has succeeded. -/
inductive Calls (t : Template) (ctx : Context) (scope : Scope) : List Node → Scope → List Node → Prop
  | later {node : Node} {nodes body : List Node} {inner : Scope}
      (done : ∃ limit out, runNode t ctx (expand t ctx limit) scope node = .ok out)
      (h : Calls t ctx scope nodes inner body) : Calls t ctx scope (node :: nodes) inner body
  | inside {head : Head} {children nodes body : List Node} {inner : Scope}
      (tag : Action.ofTag? head.name = none) (h : Calls t ctx scope children inner body) :
      Calls t ctx scope (.element head children :: nodes) inner body
  | branch {head : Head} {key : String} {children chosen nodes body : List Node} {inner : Scope}
      (tag : Action.ofTag? head.name = some .choose) (hk : choiceKey ctx ⟨head, children⟩ = .ok key)
      (only : children.filterMap (branch? key) = [chosen]) (h : Calls t ctx scope chosen inner body) :
      Calls t ctx scope (.element head children :: nodes) inner body
  | iteration {head : Head} {children nodes : List Node} {items : List Value} {item : String} {k : Nat} {value : Value}
      (tag : Action.ofTag? head.name = some .forEach) (hr : RunsOver t scope ⟨head, children⟩ items item)
      (hv : items[k]? = some value)
      (done : ∃ limit out, iterate (fun inner => expand t ctx limit inner children) scope
        (loopIndex ⟨head, children⟩) item 1 (items.take k) = .ok out) :
      Calls t ctx scope (.element head children :: nodes)
        (iterationScope scope (loopIndex ⟨head, children⟩) item (1 + k) value) children

/-- The expansion of the second body in its scope begins one of the first. -/
def Nested (t : Template) (ctx : Context) (inner outer : Scope × List Node) : Prop :=
  ∃ middle, substitute t outer.1 outer.2 = .ok middle ∧ Calls t ctx outer.1 middle inner.1 inner.2

/-! ### Steps that come to an end -/

theorem runNode_mono {m n : Nat} (h : m ≤ n) {node : Node} (hs : Settled (runNode t ctx (expand t ctx m) scope node)) :
    runNode t ctx (expand t ctx n) scope node = runNode t ctx (expand t ctx m) scope node :=
  runNode_outlasts (expand_outlasts h) hs

theorem runActions_mono {m n : Nat} (h : m ≤ n) {nodes : List Node}
    (hs : Settled (runActions t ctx (expand t ctx m) scope nodes)) :
    runActions t ctx (expand t ctx n) scope nodes = runActions t ctx (expand t ctx m) scope nodes :=
  runActions_outlasts (expand_outlasts h) hs

theorem iterate_mono {m n : Nat} (h : m ≤ n) {children : List Node} {index item : String} {number : Nat}
    {values : List Value}
    (hs : Settled (iterate (fun inner => expand t ctx m inner children) scope index item number values)) :
    iterate (fun inner => expand t ctx n inner children) scope index item number values =
      iterate (fun inner => expand t ctx m inner children) scope index item number values :=
  iterate_outlasts (expand_outlasts h) hs

section
variable {run : Scope → List Node → Except Error (List Node)}

theorem settled_runLoop {e : Element} (h : ∀ items item, RunsOver t scope e items item →
    Settled (iterate (fun inner => run inner e.children) scope (loopIndex e) item 1 items)) :
    Settled (runLoop t run scope e) :=
  @related_runLoop _ t t scope run run .settled e.head e.children e.children
    (fails_loopList (fun _ => nofun) e).settled (fun list _ _ _ => (fails_itemName (fun _ _ => nofun) e list _).settled) h

theorem iterate_append {f : Scope → Except Error (List Node)} {index item : String} {number : Nat}
    {a b : List Value} :
    iterate f scope index item number (a ++ b) = iterate f scope index item number a >>= fun front =>
      iterate f scope index item (number + a.length) b >>= fun rest => .ok (front ++ rest) := by
  induction a generalizing number with
  | nil =>
    cases h : iterate f scope index item number b <;> simp [iterate, h, bind, Except.bind]
  | cons value a ih =>
    simp only [List.cons_append, iterate, ih, List.length_cons, bind_assoc, pure, Except.pure]
    rw [show number + (a.length + 1) = number + 1 + a.length by omega]
    simp [bind, Except.bind]

end

/-! ### What ends, ends inside -/

/-- Where the actions of the nodes do not run into the limit, the expansions that they begin do not. -/
theorem settled_of_calls {limit : Nat} {nodes body : List Node} {inner : Scope} (h : Calls t ctx scope nodes inner body)
    (hs : Settled (runActions t ctx (expand t ctx limit) scope nodes)) : Settled (expand t ctx limit inner body) := by
  induction h with
  | @later node nodes _ _ done _ ih =>
    -- What stands before has ended at some limit, so at this one, where it ends too, it comes to the same.
    obtain ⟨limit', out, hout⟩ := done
    have hnode := @eq_ok_of_settled _ (fun limit => runNode t ctx (expand t ctx limit) scope node)
      (fun h hs => runNode_mono h hs) limit limit' out hs.of_bind hout
    exact ih (hs.next hnode).of_bind
  | inside tag _ ih =>
    have hnode := hs.of_bind
    rw [runNode_plain tag] at hnode
    exact ih hnode.of_bind
  | branch tag hk only _ ih =>
    have hnode := hs.of_bind
    rw [runNode_choice_of_key tag hk (by simp [only]), runBranch_eq, only] at hnode
    exact ih hnode
  | @iteration head children nodes items item k value tag hr hv done =>
    obtain ⟨limit', out, hout⟩ := done
    have hnode := hs.of_bind
    rw [runNode_loop tag, runLoop_of_runsOver hr] at hnode
    have hk : k < items.length := (List.getElem?_eq_some_iff.mp hv).1
    have hsplit : items = items.take k ++ value :: items.drop (k + 1) := by
      rw [← (List.getElem?_eq_some_iff.mp hv).2, ← List.drop_eq_getElem_cons hk, List.take_append_drop]
    -- The iterations before this one have ended, so the run of the loop gets to it.
    have hiter := hnode.of_bind
    rw [hsplit, iterate_append, List.length_take_of_le (Nat.le_of_lt hk)] at hiter
    have hfront := @eq_ok_of_settled _ (fun limit => iterate (fun inner => expand t ctx limit inner children) scope
      (loopIndex ⟨head, children⟩) item 1 (items.take k)) (fun h hs => iterate_mono h hs) limit limit' out hiter.of_bind hout
    exact (hiter.next hfront).of_bind.of_bind

/-! ### What ends inside, ends -/

theorem Calls.cons_of_singleton {node : Node} {nodes body : List Node} {inner : Scope}
    (h : Calls t ctx scope [node] inner body) : Calls t ctx scope (node :: nodes) inner body := by
  cases h with
  | later _ h => cases h
  | inside tag h => exact .inside tag h
  | branch tag hk only h => exact .branch tag hk only h
  | iteration tag hr hv done => exact .iteration tag hr hv done

/-- A loop comes to an end if each iteration does that is begun when those before it have succeeded. -/
theorem iterate_ends {children : List Node} {index item : String} {values : List Value} {number : Nat}
    (h : ∀ k value, values[k]? = some value →
      (∃ limit out, iterate (fun inner => expand t ctx limit inner children) scope index item number
        (values.take k) = .ok out) → Ends t ctx (iterationScope scope index item (number + k) value) children) :
    ∃ limit, Settled (iterate (fun inner => expand t ctx limit inner children) scope index item number values) := by
  induction values generalizing number with
  | nil => exact ⟨0, Settled.ok _⟩
  | cons value values ih =>
    obtain ⟨m, hm⟩ := h 0 value rfl ⟨0, [], rfl⟩
    cases hfirst : expand t ctx m (iterationScope scope index item number value) children with
    | error fault =>
      -- The first iteration fails at a limit that is enough for it, and the loop with it.
      rw [Nat.add_zero, hfirst] at hm
      exact ⟨m, fun hbad => hm (by rw [iterate, hfirst] at hbad; cases hbad; rfl)⟩
    | ok front =>
      -- What is enough for the first iteration and what is enough for those behind it may differ: the greater is
      -- enough for both.
      have hlater : ∃ limit, Settled (iterate (fun inner => expand t ctx limit inner children) scope index item
          (number + 1) values) := by
        refine ih fun k value hv hdone => ?_
        obtain ⟨n, out, hout⟩ := hdone
        rw [show number + 1 + k = number + (k + 1) by omega]
        refine h (k + 1) value (by simpa using hv) ⟨max m n, front ++ out, ?_⟩
        rw [List.take_succ_cons]
        refine iterate_cons_eq_ok.mpr ⟨front, out, ?_, ?_, rfl⟩
        · rw [← hfirst]
          exact expand_outlasts (Nat.le_max_left m n) _ _ (hfirst ▸ Settled.ok front)
        · rw [← hout]
          exact iterate_mono (Nat.le_max_right m n) (hout ▸ Settled.ok out)
      obtain ⟨n, hn⟩ := hlater
      refine ⟨max m n, Settled.bind ?_ fun _ _ => Settled.bind ?_ fun _ _ => Settled.ok _⟩
      · dsimp only
        rw [expand_outlasts (Nat.le_max_left m n) _ _ (hfirst ▸ Settled.ok front), hfirst]
        exact Settled.ok front
      · rw [iterate_mono (Nat.le_max_right m n) hn]
        exact hn

mutual

theorem runNode_ends : ∀ {node : Node},
    (∀ inner body, Calls t ctx scope [node] inner body → Ends t ctx inner body) →
    ∃ limit, Settled (runNode t ctx (expand t ctx limit) scope node)
  | .element head children, h => by
    cases ha : Action.ofTag? head.name with
    | none =>
      obtain ⟨limit, hl⟩ := @runActions_ends children fun inner body hc => h inner body (.inside ha hc)
      exact ⟨limit, by rw [runNode_plain ha]; exact hl.bind fun _ _ => Settled.ok _⟩
    | some action =>
      cases action with
      | forEach =>
        by_cases hr : ∃ items item, RunsOver t scope ⟨head, children⟩ items item
        · obtain ⟨items, item, hr⟩ := hr
          obtain ⟨limit, hl⟩ := iterate_ends fun k value hv hdone => h _ _ (.iteration ha hr hv hdone)
          refine ⟨limit, ?_⟩
          rw [runNode_loop ha, runLoop_of_runsOver hr]
          exact hl.bind fun _ _ => Settled.ok _
        · refine ⟨0, ?_⟩
          rw [runNode_loop ha]
          exact settled_runLoop fun items item hr' => absurd ⟨items, item, hr'⟩ hr
      | choose =>
        -- Neither the key nor the number of branches with it depends on the limit.
        cases hk : choiceKey ctx ⟨head, children⟩ with
        | error fault =>
          refine ⟨0, ?_⟩
          rw [runNode_choice ha]
          exact (settled_choiceKey _).bind fun key hkey => by rw [hk] at hkey; cases hkey
        | ok key =>
          by_cases hn : (children.filterMap (branch? key)).length ≤ 1
          · have hends : ∃ limit, Settled (runBranch t ctx (expand t ctx limit) scope key children) := by
              refine runBranch_ends fun chosen hmem inner body hc => h inner body (.branch ha hk ?_ hc)
              have hlen : (children.filterMap (branch? key)).length = 1 :=
                Nat.le_antisymm hn (List.length_pos_of_mem hmem)
              obtain ⟨only, honly⟩ := List.length_eq_one_iff.mp hlen
              rw [honly] at hmem ⊢
              rw [List.mem_singleton.mp hmem]
            obtain ⟨limit, hl⟩ := hends
            exact ⟨limit, by rw [runNode_choice_of_key ha hk hn]; exact hl⟩
          · refine ⟨0, ?_⟩
            rw [runNode_choice ha, hk]
            show Settled (if 1 < _ then _ else _)
            rw [if_pos (Nat.lt_of_not_le hn)]
            exact nofun
  | .text _, _ | .cdata _, _ | .comment _, _ | .instruction .., _ => ⟨0, Settled.ok _⟩

theorem runActions_ends : ∀ {nodes : List Node},
    (∀ inner body, Calls t ctx scope nodes inner body → Ends t ctx inner body) →
    ∃ limit, Settled (runActions t ctx (expand t ctx limit) scope nodes)
  | [], _ => ⟨0, Settled.ok _⟩
  | node :: nodes, h => by
    obtain ⟨m, hm⟩ := @runNode_ends node fun inner body hc => h inner body hc.cons_of_singleton
    cases hfirst : runNode t ctx (expand t ctx m) scope node with
    | error fault =>
      refine ⟨m, hm.bind fun front hfront => ?_⟩
      rw [hfirst] at hfront
      cases hfront
    | ok front =>
      obtain ⟨n, hn⟩ := @runActions_ends nodes fun inner body hc => h inner body (.later ⟨m, front, hfirst⟩ hc)
      refine ⟨max m n, Settled.bind ?_ fun _ _ => Settled.bind ?_ fun _ _ => Settled.ok _⟩
      · rw [runNode_mono (Nat.le_max_left m n) hm]
        exact hm
      · rw [runActions_mono (Nat.le_max_right m n) hn]
        exact hn

theorem runBranch_ends {key : String} : ∀ {nodes : List Node},
    (∀ chosen ∈ nodes.filterMap (branch? key), ∀ inner body, Calls t ctx scope chosen inner body → Ends t ctx inner body) →
    ∃ limit, Settled (runBranch t ctx (expand t ctx limit) scope key nodes)
  | [], _ => ⟨0, Settled.ok _⟩
  | .element label children :: nodes, h => by
    by_cases hn : label.name = key
    · obtain ⟨limit, hl⟩ := @runActions_ends children
        (h children (by rw [List.filterMap_cons_some (branch?_of_eq hn)]; exact List.mem_cons_self))
      exact ⟨limit, by rw [runBranch, if_pos hn]; exact hl⟩
    · rw [List.filterMap_cons_none (branch?_of_ne hn)] at h
      obtain ⟨limit, hl⟩ := @runBranch_ends key nodes h
      exact ⟨limit, by rw [runBranch, if_neg hn]; exact hl⟩
  | .text _ :: nodes, h | .cdata _ :: nodes, h | .comment _ :: nodes, h | .instruction .. :: nodes, h => by
    simp only [runBranch]
    exact @runBranch_ends key nodes h

end

/-- An expansion comes to an end if and only if there is no endless chain of expansions that begin one
    another. -/
theorem ends_iff_acc {nodes : List Node} : Ends t ctx scope nodes ↔ Acc (Nested t ctx) (scope, nodes) := by
  constructor
  · rintro ⟨limit, h⟩
    -- What an expansion begins is run with one less, and ends there.
    induction limit generalizing scope nodes with
    | zero => exact absurd rfl h
    | succ limit ih =>
      refine .intro _ ?_
      rintro ⟨inner, body⟩ ⟨middle, hm, hc⟩
      exact ih (settled_of_calls hc (h.next hm))
  · intro h
    generalize hp : (scope, nodes) = p at h
    -- Each expansion that is begun has a limit by the hypothesis, and finitely many are begun, so one limit does for
    -- all.
    induction h generalizing scope nodes with
    | intro p _ ih =>
      subst hp
      cases hm : substitute t scope nodes with
      | error fault =>
        refine ⟨1, (settled_substitute nodes).bind fun middle hmiddle => ?_⟩
        rw [hm] at hmiddle
        cases hmiddle
      | ok middle =>
        obtain ⟨limit, hl⟩ := @runActions_ends t ctx scope middle fun inner body hc =>
          ih (inner, body) ⟨middle, hm, hc⟩ rfl
        refine ⟨limit + 1, (settled_substitute nodes).bind fun middle' hmiddle => ?_⟩
        cases hm.symm.trans hmiddle
        exact hl

/-! ### A bound

A pass cannot make loops nest deeper than the text before it suggests, if a text with a marker counts as
deep as any markup that a marker can stand for. -/

mutual

/-- How deep loops nest in a node, with `d` for each text that has a marker in it. -/
def loopRank (d : Nat) : Node → Nat
  | .element head children =>
    if Action.ofTag? head.name = some .forEach then loopRanks d children + 1 else loopRanks d children
  | .text content => if (Segment.markers content).isEmpty then 0 else d
  | _ => 0

/-- How deep loops nest in some nodes, with `d` for each text that has a marker in it. -/
def loopRanks (d : Nat) : List Node → Nat
  | [] => 0
  | node :: nodes => max (loopRank d node) (loopRanks d nodes)

end

variable {d : Nat}

theorem loopRanks_append (a b : List Node) : loopRanks d (a ++ b) = max (loopRanks d a) (loopRanks d b) := by
  induction a with
  | nil => simp [loopRanks]
  | cons node a ih => simp only [List.cons_append, loopRanks, ih, Nat.max_assoc]

theorem loopRanks_le {nodes : List Node} {n : Nat} : loopRanks d nodes ≤ n ↔ ∀ node ∈ nodes, loopRank d node ≤ n := by
  induction nodes with
  | nil => simp [loopRanks]
  | cons node nodes ih => rw [loopRanks, Nat.max_le, ih, List.forall_mem_cons]

theorem loopRank_text_le (content : String) : loopRank d (.text content) ≤ d := by
  unfold loopRank
  split
  · exact Nat.zero_le d
  · exact Nat.le_refl d

/-- No markup that is bound has a rank above the one that its markers count for. -/
abbrev Contained (d : Nat) (scope : Scope) : Prop :=
  scope.Every (fun _ => True) fun e => loopRanks d e.children ≤ d

theorem loopRanks_fragment_le (hs : Contained d scope) {formula : String} {nodes : List Node}
    (h : fragment? t scope formula = some nodes) : loopRanks d nodes ≤ d := by
  obtain ⟨path, e, -, hl, rfl⟩ := fragment?_eq_some.mp h
  cases hs.lookup? hl with
  | markup h => exact h

theorem loopRanks_spliceSegments_le (hs : Contained d scope) {pending : String} {segments : List Segment}
    {nodes : List Node} (h : spliceSegments t scope pending segments = .ok nodes) : loopRanks d nodes ≤ d := by
  refine loopRanks_le.mpr fun node hn => ?_
  rcases mem_of_spliceSegments h hn with ⟨text, rfl⟩ | ⟨formula, fragment, hf, hmem⟩
  · exact loopRank_text_le text
  · exact loopRanks_le.mp (loopRanks_fragment_le hs hf) node hmem

mutual

theorem loopRanks_substituteNode_le (hs : Contained d scope) : ∀ {node : Node} {out : List Node},
    substituteNode t scope node = .ok out → loopRanks d out ≤ loopRank d node
  | .element head children, out, h => by
    obtain ⟨head', children', hh, hc, rfl⟩ := substituteNode_element_eq_ok.mp h
    have := loopRanks_substitute_le hs hc
    simp only [loopRanks, loopRank, name_of_substituteHead hh]
    split
    · omega
    · omega
  | .text content, out, h => by
    rw [substituteNode, splice] at h
    rw [loopRank]
    split at h
    · rename_i hm
      cases h
      rw [if_pos hm]
      simp [loopRanks, loopRank, hm]
    · rename_i hm
      rw [if_neg hm]
      exact loopRanks_spliceSegments_le hs h
  | .cdata _, out, h | .comment _, out, h | .instruction .., out, h => by
    cases h
    exact Nat.le_refl _

theorem loopRanks_substitute_le (hs : Contained d scope) : ∀ {nodes out : List Node},
    substitute t scope nodes = .ok out → loopRanks d out ≤ loopRanks d nodes
  | [], out, h => by cases h; exact Nat.le_refl _
  | node :: nodes, out, h => by
    obtain ⟨front, rest, hf, hr, rfl⟩ := substitute_cons_eq_ok.mp h
    have hfront := loopRanks_substituteNode_le hs hf
    have hrest := loopRanks_substitute_le hs hr
    rw [loopRanks_append, loopRanks]
    omega

end

section
variable {run : Scope → List Node → Except Error (List Node)} {limit : Nat}

mutual

theorem settled_runNode (hs : Contained d scope)
    (hrun : ∀ inner body, Contained d inner → loopRanks d body < limit → Settled (run inner body)) :
    ∀ {node : Node}, loopRank d node ≤ limit → Settled (runNode t ctx run scope node)
  | .element head children, h => by
    rw [loopRank] at h
    cases ha : Action.ofTag? head.name with
    | none =>
      rw [if_neg (by simp [ha])] at h
      rw [runNode_plain ha]
      exact (settled_runActions hs hrun h).bind fun _ _ => Settled.ok _
    | some action =>
      cases action with
      | forEach =>
        rw [if_pos ha] at h
        rw [runNode_loop ha]
        refine settled_runLoop fun items item hr => ?_
        -- The loop itself takes one rank, so that its body has less than the limit.
        refine @related_iterate _ scope .settled _ (fun inner => run inner children) _ _ _ _ fun k value hv => hrun _ _ ?_ h
        obtain ⟨list, -, hi, -⟩ := hr
        exact every_iterationScope hs trivial (every_of_items? hs hi value (List.mem_of_getElem? hv))
      | choose =>
        rw [if_neg (by simp [ha])] at h
        rw [runNode_choice ha]
        refine (settled_choiceKey _).bind fun key _ => ?_
        split
        · exact nofun
        · exact settled_runBranch hs hrun h
  | .text _, _ | .cdata _, _ | .comment _, _ | .instruction .., _ => Settled.ok _

theorem settled_runActions (hs : Contained d scope)
    (hrun : ∀ inner body, Contained d inner → loopRanks d body < limit → Settled (run inner body)) :
    ∀ {nodes : List Node}, loopRanks d nodes ≤ limit → Settled (runActions t ctx run scope nodes)
  | [], _ => Settled.ok _
  | _ :: _, h => by
    rw [loopRanks, Nat.max_le] at h
    exact (settled_runNode hs hrun h.1).bind fun _ _ => (settled_runActions hs hrun h.2).bind fun _ _ => Settled.ok _

theorem settled_runBranch (hs : Contained d scope)
    (hrun : ∀ inner body, Contained d inner → loopRanks d body < limit → Settled (run inner body)) {key : String} :
    ∀ {nodes : List Node}, loopRanks d nodes ≤ limit → Settled (runBranch t ctx run scope key nodes)
  | [], _ => Settled.ok _
  | .element label children :: nodes, h => by
    rw [loopRanks, Nat.max_le] at h
    rw [runBranch]
    split
    · refine settled_runActions hs hrun (Nat.le_trans ?_ h.1)
      rw [loopRank]
      split
      · omega
      · exact Nat.le_refl _
    · exact settled_runBranch hs hrun h.2
  | .text _ :: nodes, h | .cdata _ :: nodes, h | .comment _ :: nodes, h | .instruction .. :: nodes, h => by
    rw [loopRanks, Nat.max_le] at h
    simp only [runBranch]
    exact settled_runBranch hs hrun h.2

end

end

/-- Loops nest no deeper than the rank of the body, whatever the values are, if the markup among them has no
    loop around a text with a marker. -/
theorem settled_expand_of_contained {limit : Nat} (hs : Contained d scope) {nodes : List Node}
    (h : loopRanks d nodes < limit) : Settled (expand t ctx limit scope nodes) := by
  induction limit generalizing scope nodes with
  | zero => cases h
  | succ limit ih =>
    refine (settled_substitute nodes).bind fun middle hm => ?_
    exact settled_runActions hs (fun inner body hi hb => ih hi hb)
      (Nat.le_trans (loopRanks_substitute_le hs hm) (Nat.le_of_lt_succ h))

end Expansion
end Letterpress
