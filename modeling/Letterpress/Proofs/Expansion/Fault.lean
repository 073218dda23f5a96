import Letterpress.Proofs.Expansion.Relation
import Letterpress.Proofs.Formula.Outcome

/-! Which errors an expansion can end in. Replacing markers fails only with a formula. Running actions can
    fail in a few more ways, of which those that lie in the list of a loop depend on the scopes that
    loops are reached in. -/

namespace Letterpress
namespace Expansion
open Markup (Node Element Head)

variable {t : Template} {ctx : Context} {scope : Scope} {P : Error → Prop}

/-! ### Markers -/

/-- The errors with the property include all those that evaluating a formula can end in. -/
def Unformulated (P : Error → Prop) : Prop :=
  ∀ text (fault : Formula.EvaluationFault), P (.formula text fault)

theorem fails_evaluate (hp : Unformulated P) (formula : String) : FailsWith P (evaluate t scope formula) := by
  unfold evaluate
  split
  · exact .ok _
  · rename_i found _
    cases h : found.eval scope with
    | error fault => exact .error (hp formula ⟨fault, Formula.ne_unreadable_of_eval h⟩)
    | ok outcome => exact .ok _

theorem relatesMarkers_of_unformulated (hp : Unformulated P) :
    RelatesMarkers (fun x _ => FailsWith P x) t t scope where
  toStepwise := .failing P
  fragment _ := rfl
  evaluate := fails_evaluate hp

theorem fails_substituteHead (hp : Unformulated P) (head : Head) : FailsWith P (substituteHead t scope head) :=
  (relatesMarkers_of_unformulated hp).substituteHead head

theorem fails_substituteNode (hp : Unformulated P) (node : Node) : FailsWith P (substituteNode t scope node) :=
  (relatesMarkers_of_unformulated hp).substituteNode node

theorem fails_substitute (hp : Unformulated P) (nodes : List Node) : FailsWith P (substitute t scope nodes) :=
  (relatesMarkers_of_unformulated hp).substitute nodes

/-! ### Actions -/

theorem fails_choiceKey (hp : ∀ fault markup, P (.action .choose fault markup)) (e : Element) :
    FailsWith P (choiceKey ctx e) := by
  unfold choiceKey
  split
  · split
    · exact .ok _
    · exact .error (hp _ _)
  · split
    · exact .ok _
    · exact .error (hp _ _)

theorem fails_loopList (hp : ∀ markup, P (.action .forEach .noList markup)) (e : Element) :
    FailsWith P (loopList e) := by
  unfold loopList
  split
  · exact .ok _
  · exact .error (hp _)

theorem fails_itemName (hp : ∀ fault markup, P (.action .forEach fault markup)) (e : Element) (list : String)
    (path : List String) : FailsWith P (itemName t e list path) := by
  unfold itemName
  split
  · exact .ok _
  · exact .error (hp _ _)
  · exact .error (hp _ _)

/-- The errors with the property include those that an expansion can end in whatever the template declares. -/
structure Usual (P : Error → Prop) : Prop where
  formula : Unformulated P
  choose : ∀ fault markup, P (.action .choose fault markup)
  noList : ∀ markup, P (.action .forEach .noList markup)
  loopLimit : P .loopLimit

/-- A loop that runs in a scope of this kind finds the name of its items or fails with an error of that kind,
    and the scopes of its iterations are of this kind again. -/
def Carries (t : Template) (P : Error → Prop) (S : Scope → Prop) : Prop :=
  ∀ scope e list items, S scope → loopList e = .ok list → items? scope (Text.split (· == '.') list) = some items →
    FailsWith P (itemName t e list (Text.split (· == '.') list)) ∧
    ∀ item number, ∀ value ∈ items, itemName t e list (Text.split (· == '.') list) = .ok item →
      S (iterationScope scope (loopIndex e) item number value)

/-- For errors that include all those of loops it does not matter which scopes loops are reached in. -/
theorem carries_of_forEach (hp : ∀ fault markup, P (.action .forEach fault markup)) : Carries t P fun _ => True :=
  fun _ e list _ _ _ _ => ⟨fails_itemName hp e list _, fun _ _ _ _ _ => trivial⟩

section
variable {S : Scope → Prop} {run : Scope → List Node → Except Error (List Node)}

theorem fails_runLoop (hu : Usual P) (hc : Carries t P S) (hrun : ∀ inner body, S inner → FailsWith P (run inner body))
    (hs : S scope) (e : Element) : FailsWith P (runLoop t run scope e) := by
  refine @related_runLoop _ t t scope run run (.failing P) e.head e.children e.children (fails_loopList hu.noList e)
    (fun list items hl hi => (hc scope e list items hs hl hi).1) fun items item hr => ?_
  obtain ⟨list, hl, hi, hn⟩ := hr
  refine @related_iterate _ scope (.failing P) _ (fun inner => run inner e.children) _ _ _ _ fun k value hk => ?_
  exact hrun _ _ ((hc scope e list items hs hl hi).2 item (1 + k) value (List.mem_of_getElem? hk) hn)

theorem fails_runActions (hu : Usual P) (hc : Carries t P S)
    (hrun : ∀ inner body, S inner → FailsWith P (run inner body)) (hs : S scope) (nodes : List Node) :
    FailsWith P (runActions t ctx run scope nodes) := by
  have h : RelatesActions (fun x _ => FailsWith P x) t t ctx ctx run run scope :=
    { Stepwise.failing P with
      loop := fails_runLoop hu hc hrun hs
      key := fails_choiceKey hu.choose
      ambiguous := fun _ _ => .error (hu.choose _ _) }
  exact h.runActions nodes

end

theorem fails_expand {S : Scope → Prop} (hu : Usual P) (hc : Carries t P S) (limit : Nat) {scope : Scope} (hs : S scope)
    (nodes : List Node) : FailsWith P (expand t ctx limit scope nodes) := by
  induction limit generalizing scope nodes with
  | zero => exact .error hu.loopLimit
  | succ limit ih =>
    exact (fails_substitute hu.formula nodes).bind fun middle _ =>
      fails_runActions hu hc (fun _ body hi => ih hi body) hs middle

end Expansion
end Letterpress
