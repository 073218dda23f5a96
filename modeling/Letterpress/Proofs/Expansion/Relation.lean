import Letterpress.Proofs.Expansion.Basic

/-! Two expansions side by side. A relation between results that is kept from one step to the next holds between two
    expansions if it holds where they can differ: in the formulas of the markers, the keys of the choices and the
    loops. That the results are equal is such a relation, and so is that the first fails in certain ways only. -/

namespace Letterpress

/-- The relation holds between two steps one after the other if it holds between the steps. -/
structure Stepwise (R : {α : Type} → Except Error α → Except Error α → Prop) : Prop where
  ok {α : Type} (a : α) : R (.ok a) (.ok a)
  bind {α β : Type} {x x' : Except Error α} {f f' : α → Except Error β} (hx : R x x')
    (hf : ∀ a, x = .ok a → R (f a) (f' a)) : R (x >>= f) (x' >>= f')

namespace Stepwise

theorem equal : Stepwise fun x x' => x' = x where
  ok _ := rfl
  bind {_ _ x x' f f'} hx hf := by
    subst hx
    cases x' with
    | error fault => rfl
    | ok a => exact hf a rfl

theorem failing (P : Error → Prop) : Stepwise fun x _ => FailsWith P x where
  ok := FailsWith.ok
  bind := FailsWith.bind

/-- What the first comes to, the second comes to. -/
theorem following : Stepwise fun x x' => ∀ out, x = .ok out → x' = .ok out where
  ok _ _ h := h
  bind hx hf out h := by
    obtain ⟨a, ha, h⟩ := bind_eq_ok.mp h
    exact bind_eq_ok.mpr ⟨a, hx a ha, hf a ha out h⟩

end Stepwise

namespace Expansion
open Markup (Node Element Head)

variable {R : {α : Type} → Except Error α → Except Error α → Prop} {t t' : Template} {ctx ctx' : Context} {scope : Scope}

/-! ### Markers -/

/-- The formulas stand for the same markup in both templates and come to related results. -/
structure RelatesMarkers (R : {α : Type} → Except Error α → Except Error α → Prop) (t t' : Template) (scope : Scope) :
    Prop extends Stepwise R where
  fragment : ∀ formula, fragment? t' scope formula = fragment? t scope formula
  evaluate : ∀ formula, R (evaluate t scope formula) (evaluate t' scope formula)

namespace RelatesMarkers

theorem joinSegments (h : RelatesMarkers R t t' scope) (segments : List Segment) :
    R (joinSegments t scope segments) (joinSegments t' scope segments) := by
  induction segments with
  | nil => exact h.ok _
  | cons segment segments ih =>
    cases segment with
    | literal text => exact h.bind ih fun _ _ => h.ok _
    | marker raw formula => exact h.bind (h.evaluate formula) fun _ _ => h.bind ih fun _ _ => h.ok _

theorem spliceSegments (h : RelatesMarkers R t t' scope) (pending : String) (segments : List Segment) :
    R (spliceSegments t scope pending segments) (spliceSegments t' scope pending segments) := by
  induction segments generalizing pending with
  | nil => exact h.ok _
  | cons segment segments ih =>
    cases segment with
    | literal text => exact ih _
    | marker raw formula =>
      rw [Expansion.spliceSegments, Expansion.spliceSegments, h.fragment]
      split
      · exact h.bind (ih _) fun _ _ => h.ok _
      · exact h.bind (h.evaluate formula) fun _ _ => ih _

theorem splice (h : RelatesMarkers R t t' scope) (text : String) : R (splice t scope text) (splice t' scope text) := by
  unfold Expansion.splice
  split
  · exact h.ok _
  · exact h.spliceSegments _ _

theorem substituteHead (h : RelatesMarkers R t t' scope) (head : Head) :
    R (substituteHead t scope head) (substituteHead t' scope head) := by
  have hattributes : ∀ attributes, R (substituteAttributes t scope attributes) (substituteAttributes t' scope attributes) := by
    intro attributes
    induction attributes with
    | nil => exact h.ok _
    | cons a attributes ih => exact h.bind (h.joinSegments _) fun _ _ => h.bind ih fun _ _ => h.ok _
  exact h.bind (hattributes _) fun _ _ => h.ok _

mutual

theorem substituteNode (h : RelatesMarkers R t t' scope) : ∀ node : Node,
    R (substituteNode t scope node) (substituteNode t' scope node)
  | .element head children =>
    h.bind (h.substituteHead head) fun _ _ => h.bind (h.substitute children) fun _ _ => h.ok _
  | .text content => h.splice content
  | .cdata _ | .comment _ | .instruction .. => h.ok _

theorem substitute (h : RelatesMarkers R t t' scope) : ∀ nodes : List Node,
    R (substitute t scope nodes) (substitute t' scope nodes)
  | [] => h.ok _
  | node :: nodes => h.bind (h.substituteNode node) fun _ _ => h.bind (h.substitute nodes) fun _ _ => h.ok _

end

end RelatesMarkers

/-! ### Loops -/

section
variable {run run' : Scope → List Node → Except Error (List Node)}

/-- Iterations are related if the body is in the scope of each. -/
theorem related_iterate (hR : Stepwise R) {f f' : Scope → Except Error (List Node)} {index item : String} {number : Nat}
    {values : List Value} (h : ∀ k value, values[k]? = some value →
      R (f (iterationScope scope index item (number + k) value)) (f' (iterationScope scope index item (number + k) value))) :
    R (iterate f scope index item number values) (iterate f' scope index item number values) := by
  induction values generalizing number with
  | nil => exact hR.ok _
  | cons value values ih =>
    have hrest := @ih (number + 1) fun k found hk => by
      have := h (k + 1) found (by simpa using hk)
      rwa [show number + (k + 1) = number + 1 + k by omega] at this
    exact hR.bind (h 0 value rfl) fun _ _ => hR.bind hrest fun _ _ => hR.ok _

/-- Loops with one head are related if what they find out about their lists is, and their iterations are. -/
theorem related_runLoop (hR : Stepwise R) {head : Head} {children children' : List Node}
    (hlist : R (loopList ⟨head, children⟩) (loopList ⟨head, children'⟩))
    (hitem : ∀ list items, loopList ⟨head, children⟩ = .ok list → items? scope (Text.split (· == '.') list) = some items →
      R (itemName t ⟨head, children⟩ list (Text.split (· == '.') list))
        (itemName t' ⟨head, children'⟩ list (Text.split (· == '.') list)))
    (hbody : ∀ items item, RunsOver t scope ⟨head, children⟩ items item →
      R (iterate (fun inner => run inner children) scope (loopIndex ⟨head, children⟩) item 1 items)
        (iterate (fun inner => run' inner children') scope (loopIndex ⟨head, children⟩) item 1 items)) :
    R (runLoop t run scope ⟨head, children⟩) (runLoop t' run' scope ⟨head, children'⟩) := by
  refine hR.bind hlist fun list hl => ?_
  dsimp only
  split
  · exact hR.ok _
  · rename_i items hi
    refine hR.bind (hitem list items hl hi) fun item hn => ?_
    exact hR.bind (hbody items item ⟨list, hl, hi, hn⟩) fun nodes _ => hR.ok _

/-! ### Actions -/

/-- The loops come to related results, and so do the choices before they take a branch. -/
structure RelatesActions (R : {α : Type} → Except Error α → Except Error α → Prop) (t t' : Template) (ctx ctx' : Context)
    (run run' : Scope → List Node → Except Error (List Node)) (scope : Scope) : Prop extends Stepwise R where
  loop : ∀ e, R (runLoop t run scope e) (runLoop t' run' scope e)
  key : ∀ e, R (choiceKey ctx e) (choiceKey ctx' e)
  ambiguous : ∀ key markup, @R (List Node) (.error (.action .choose (.ambiguous key) markup))
    (.error (.action .choose (.ambiguous key) markup))

namespace RelatesActions

mutual

theorem runNode (h : RelatesActions R t t' ctx ctx' run run' scope) : ∀ node : Node,
    R (runNode t ctx run scope node) (runNode t' ctx' run' scope node)
  | .element head children => by
    cases ha : Action.ofTag? head.name with
    | none =>
      rw [runNode_plain ha, runNode_plain ha]
      exact h.bind (h.runActions children) fun _ _ => h.ok _
    | some action =>
      cases action with
      | forEach =>
        rw [runNode_loop ha, runNode_loop ha]
        exact h.loop _
      | choose =>
        rw [runNode_choice ha, runNode_choice ha]
        refine h.bind (h.key _) fun key _ => ?_
        split
        · exact h.ambiguous _ _
        · exact h.runBranch key children
  | .text _ | .cdata _ | .comment _ | .instruction .. => h.ok _

theorem runActions (h : RelatesActions R t t' ctx ctx' run run' scope) : ∀ nodes : List Node,
    R (runActions t ctx run scope nodes) (runActions t' ctx' run' scope nodes)
  | [] => h.ok _
  | node :: nodes => h.bind (h.runNode node) fun _ _ => h.bind (h.runActions nodes) fun _ _ => h.ok _

theorem runBranch (h : RelatesActions R t t' ctx ctx' run run' scope) (key : String) : ∀ nodes : List Node,
    R (runBranch t ctx run scope key nodes) (runBranch t' ctx' run' scope key nodes)
  | [] => h.ok _
  | .element label children :: nodes => by
    rw [Expansion.runBranch, Expansion.runBranch]
    split
    · exact h.runActions children
    · exact h.runBranch key nodes
  | .text _ :: nodes | .cdata _ :: nodes | .comment _ :: nodes | .instruction .. :: nodes => by
    simp only [Expansion.runBranch]
    exact h.runBranch key nodes

end

end RelatesActions

end

end Expansion
end Letterpress
