import Letterpress.Proofs.Expansion.Plain
import Letterpress.Proofs.Template.WellScoped

/-! No action is left of an expansion. Actions come from the body of a template, from bound markup and from the
    bodies of loops, and new ones appear while others run. The output of an action takes its place without
    another walk over it, so each action has to leave none by itself. -/

namespace Letterpress
open Markup (Node Element Head)

theorem Action.ofTag?_eq_none {tag : String} : Action.ofTag? tag = none ↔ tag ≠ "ForEach" ∧ tag ≠ "Match" := by
  simp only [Action.ofTag?, List.find?_eq_none, List.forall_mem_cons, Action.tag, beq_iff_eq]
  constructor
  · rintro ⟨hloop, hchoice, -⟩
    exact ⟨Ne.symm hloop, Ne.symm hchoice⟩
  · rintro ⟨hloop, hchoice⟩
    exact ⟨Ne.symm hloop, Ne.symm hchoice, List.forall_mem_nil _⟩

theorem Markup.Node.notAction_of_no_element {node : Node} (h : node.element? = none) : node.NotAction := by
  intro e he
  rw [h] at he
  cases he

theorem Markup.Node.notAction_iff {node : Node} :
    node.NotAction ↔ ∀ e, node.element? = some e → e.name ≠ "ForEach" ∧ e.name ≠ "Match" := by
  simp only [Node.NotAction, Action.ofTag?_eq_none]

namespace Expansion

variable {t : Template} {ctx : Context} {scope : Scope} {run : Scope → List Node → Except Error (List Node)}

/-- No action among the nodes, at any depth. -/
def Actionless (nodes : List Node) : Prop :=
  ∀ node ∈ nodes, node.All Node.NotAction

theorem actionless_element {head : Head} {children : List Node} (tag : Action.ofTag? head.name = none)
    (h : Actionless children) : Actionless [.element head children] := by
  refine List.forall_mem_singleton.mpr (.element (fun e he => ?_) h)
  cases he
  exact tag

theorem actionless_leaf {node : Node} (h : node.element? = none) : Actionless [node] :=
  List.forall_mem_singleton.mpr (.leaf (Node.notAction_of_no_element h) h)

theorem Actionless.append {a b : List Node} (ha : Actionless a) (hb : Actionless b) : Actionless (a ++ b) :=
  List.forall_mem_append.mpr ⟨ha, hb⟩

/-! ### Nothing is left -/

theorem actionless_wrap {e : Element} {nodes : List Node} (h : Actionless nodes) : Actionless (wrap e nodes) := by
  unfold wrap
  split
  · exact actionless_element rfl h
  · exact h

/-- Whatever a body is expanded to is without actions. -/
def Clears (run : Scope → List Node → Except Error (List Node)) : Prop :=
  ∀ scope nodes out, run scope nodes = .ok out → Actionless out

theorem actionless_of_runLoop (hrun : Clears run) {e : Element} {out : List Node} (h : runLoop t run scope e = .ok out) :
    Actionless out := by
  rcases runLoop_eq_ok.mp h with ⟨-, rfl⟩ | ⟨items, item, nodes, -, hiterate, rfl⟩
  · exact List.forall_mem_nil _
  · exact actionless_wrap (forall_of_iterate hiterate fun _ _ _ nodes => hrun _ e.children nodes)

mutual

theorem actionless_of_runNode (hrun : Clears run) : ∀ {node : Node} {out : List Node},
    runNode t ctx run scope node = .ok out → Actionless out
  | .element head children, out, h => by
    cases htag : Action.ofTag? head.name with
    | none =>
      obtain ⟨inside, hinside, rfl⟩ := (runNode_plain_eq_ok htag).mp h
      exact actionless_element htag (actionless_of_runActions hrun hinside)
    | some action =>
      cases action with
      | forEach =>
        rw [runNode_loop htag] at h
        exact actionless_of_runLoop hrun h
      | choose =>
        rw [runNode_choice htag] at h
        obtain ⟨key, -, h⟩ := bind_eq_ok.mp h
        split at h
        · cases h
        · exact actionless_of_runBranch hrun h
  | .text _, out, h | .cdata _, out, h | .comment _, out, h | .instruction .., out, h => by
    cases h
    exact actionless_leaf rfl

theorem actionless_of_runActions (hrun : Clears run) : ∀ {nodes out : List Node},
    runActions t ctx run scope nodes = .ok out → Actionless out
  | [], out, h => by
    cases h
    exact List.forall_mem_nil _
  | node :: nodes, out, h => by
    obtain ⟨front, rest, hfront, hrest, rfl⟩ := runActions_cons_eq_ok.mp h
    exact (actionless_of_runNode hrun hfront).append (actionless_of_runActions hrun hrest)

/-- A branch may be named like an action: only what is inside it is put in place of the choice. -/
theorem actionless_of_runBranch (hrun : Clears run) {key : String} : ∀ {nodes out : List Node},
    runBranch t ctx run scope key nodes = .ok out → Actionless out
  | [], out, h => by
    cases h
    exact List.forall_mem_nil _
  | .element head children :: nodes, out, h => by
    unfold runBranch at h
    split at h
    · exact actionless_of_runActions hrun h
    · exact actionless_of_runBranch hrun h
  | .text _ :: nodes, out, h | .cdata _ :: nodes, out, h | .comment _ :: nodes, out, h
  | .instruction .. :: nodes, out, h => by
    unfold runBranch at h
    exact actionless_of_runBranch hrun h

end

theorem clears_expand (limit : Nat) : Clears (expand t ctx limit) := by
  induction limit with
  | zero =>
    rintro scope nodes out ⟨⟩
  | succ limit ih =>
    intro scope nodes out h
    obtain ⟨middle, -, h⟩ := bind_eq_ok.mp h
    exact actionless_of_runActions ih h

/-! ### Nothing to do -/

theorem runNode_of_actionless {node : Node} (h : node.All Node.NotAction) : runNode t ctx run scope node = .ok [node] := by
  induction h with
  | @element head children here inside ih =>
    have htag : Action.ofTag? head.name = none := here ⟨head, children⟩ rfl
    exact (runNode_plain_eq_ok htag).mpr ⟨children, runActions_of_forall ih, rfl⟩
  | @leaf node here hleaf =>
    cases node with
    | element => cases hleaf
    | _ => rfl

theorem runActions_of_actionless {nodes : List Node} (h : Actionless nodes) : runActions t ctx run scope nodes = .ok nodes :=
  runActions_of_forall fun node hn => runNode_of_actionless (h node hn)

/-- No element below the applied body is an action, and to run the actions in it once more changes nothing,
    whatever template, surroundings and scope they are run with. -/
theorem applied_body_is_actionless {e content : Element} (h : t.apply ctx e = .ok content) :
    (∀ node ∈ content.children, node.All fun node =>
      ∀ inner, node.element? = some inner → inner.name ≠ "ForEach" ∧ inner.name ≠ "Match") ∧
    ∀ t' ctx' run scope, runActions t' ctx' run scope content.children = .ok content.children := by
  obtain ⟨bound, -, h⟩ := bind_eq_ok.mp h
  obtain ⟨head, -, h⟩ := bind_eq_ok.mp h
  obtain ⟨children, hchildren, h⟩ := bind_eq_ok.mp h
  cases h
  have hnone : Actionless children := clears_expand _ _ _ _ hchildren
  refine ⟨fun node hn => ?_, fun t' ctx' run scope => runActions_of_actionless hnone⟩
  exact (hnone node hn).mono fun _ => Node.notAction_iff.mp

/-- A loop around a choice, the branch of which is named like an action and holds another choice, and markup. -/
def poster : Template where
  name := "poster"
  params := [.list "names" true (.text "name" true .generic), .markup "body" true]
  content := ⟨{ name := "content" }, [
    .element { name := "ForEach", attributes := [("list", "names"), ("html-class", "row")] } [
      .element { name := "Match", attributes := [("value", "{{name}}")] } [
        .element { name := "Match" } [
          .element { name := "Match", attributes := [("value", "b")] } [
            .element { name := "b" } [.text "{{__iter}}: {{body}}"]]]]],
    .text "{{body}}"]⟩
  formulas := [("name", .var ["name"]), ("__iter", .var ["__iter"]), ("body", .var ["body"])]

/-- The markup that it is given has a loop in it. -/
def posterInstance : Element :=
  ⟨{ name := "poster" }, [
    .element { name := "names" } [.element { name := "name" } [.text "Ann"], .element { name := "name" } [.text "Match"]],
    .element { name := "body" } [
      .element { name := "ForEach", attributes := [("list", "names")] } [.element { name := "i" } [.text "{{name}}"]]]]⟩

/-- Only the second name selects the branch. -/
def posterResult : Element :=
  ⟨{ name := "content" }, [
    .element { name := "div", attributes := [("class", "row")] } [
      .text "2: ", .element { name := "i" } [.text "Match"], .element { name := "i" } [.text "Match"]],
    .element { name := "i" } [.text "Ann"], .element { name := "i" } [.text "Match"]]⟩

theorem poster_is_actionless :
    poster.apply emptySite posterInstance = .ok posterResult ∧
    (∀ node ∈ posterResult.children, node.All fun node =>
      ∀ inner, node.element? = some inner → inner.name ≠ "ForEach" ∧ inner.name ≠ "Match") ∧
    runActions poster emptySite (expand poster emptySite 1) (Scope.ofParams [("name", .text "b")]) posterResult.children =
      .ok posterResult.children := by
  have hresult : poster.apply emptySite posterInstance = .ok posterResult := eq_ok_of_toOption (by decide +kernel)
  obtain ⟨hnone, hagain⟩ := applied_body_is_actionless hresult
  exact ⟨hresult, hnone, hagain ..⟩

end Expansion
end Letterpress
