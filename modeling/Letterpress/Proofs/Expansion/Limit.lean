import Letterpress.Proofs.Expansion.Fault

/-! The limit on the nesting of loops. A higher limit changes no result but that of running into the limit,
    so an expansion either comes to an end under all limits from some point on, or under none. -/

namespace Letterpress

/-- The result is anything but that of running into the loop limit. -/
def Settled {α : Type} (x : Except Error α) : Prop :=
  x ≠ .error .loopLimit

section
variable {α β : Type} {x : Except Error α} {f : α → Except Error β}

theorem Settled.ok (a : α) : Settled (.ok a : Except Error α) := nofun

theorem Settled.of_bind (h : Settled (x >>= f)) : Settled x := by
  rintro rfl
  exact h rfl

theorem Settled.next {a : α} (h : Settled (x >>= f)) (hx : x = .ok a) : Settled (f a) := by
  subst hx
  exact h

theorem Settled.bind (hx : Settled x) (hf : ∀ a, x = .ok a → Settled (f a)) : Settled (x >>= f) := by
  cases x with
  | error fault => exact fun h => hx (by cases h; rfl)
  | ok a => exact hf a rfl

theorem FailsWith.settled (h : FailsWith (· ≠ .loopLimit) x) : Settled x :=
  fun hx => h _ hx rfl

end

theorem Stepwise.settled : Stepwise fun x _ => Settled x where
  ok := Settled.ok
  bind := Settled.bind

/-- Where the first is settled, the second comes to the same. -/
theorem Stepwise.lasting : Stepwise fun x x' => Settled x → x' = x where
  ok _ _ := rfl
  bind {_ _ x _ _ _} hx hf h := by
    rw [hx h.of_bind]
    cases x with
    | error fault => rfl
    | ok a => exact hf a rfl h

/-- What succeeds under one limit succeeds alike under another one that it does not run into. -/
theorem eq_ok_of_settled {α : Type} {x : Nat → Except Error α} (mono : ∀ {m n}, m ≤ n → Settled (x m) → x n = x m)
    {m n : Nat} {out : α} (hm : Settled (x m)) (hn : x n = .ok out) : x m = .ok out := by
  rcases Nat.le_total m n with h | h
  · rw [← hn, mono h hm]
  · rw [mono h (hn ▸ Settled.ok out), hn]

namespace Expansion
open Markup (Node Element Head)

variable {t : Template} {ctx : Context} {scope : Scope}

/-! ### Markers never run into the limit -/

theorem settled_substituteHead (head : Head) : Settled (substituteHead t scope head) :=
  (fails_substituteHead (fun _ _ => nofun) head).settled

theorem settled_substitute (nodes : List Node) : Settled (substitute t scope nodes) :=
  (fails_substitute (fun _ _ => nofun) nodes).settled

theorem settled_choiceKey (e : Element) : Settled (choiceKey ctx e) :=
  (fails_choiceKey (fun _ _ => nofun) e).settled

/-! ### Higher limits -/

/-- Where the second way to expand a body is settled, the first one comes to the same. -/
def Outlasts (run' run : Scope → List Node → Except Error (List Node)) : Prop :=
  ∀ scope nodes, Settled (run scope nodes) → run' scope nodes = run scope nodes

section
variable {run run' : Scope → List Node → Except Error (List Node)}

theorem iterate_outlasts (hr : Outlasts run' run) {children : List Node} {index item : String} {number : Nat}
    {values : List Value}
    (h : Settled (iterate (fun inner => run inner children) scope index item number values)) :
    iterate (fun inner => run' inner children) scope index item number values =
      iterate (fun inner => run inner children) scope index item number values :=
  related_iterate .lasting (fun _ _ _ => hr _ children) h

theorem relatesActions_of_outlasts (hr : Outlasts run' run) :
    RelatesActions (fun x x' => Settled x → x' = x) t t ctx ctx run run' scope where
  toStepwise := .lasting
  loop _ := related_runLoop .lasting (fun _ => rfl) (fun _ _ _ _ _ => rfl) fun _ _ _ => iterate_outlasts hr
  key _ _ := rfl
  ambiguous _ _ _ := rfl

theorem runNode_outlasts (hr : Outlasts run' run) {node : Node} (h : Settled (runNode t ctx run scope node)) :
    runNode t ctx run' scope node = runNode t ctx run scope node :=
  (relatesActions_of_outlasts hr).runNode node h

theorem runActions_outlasts (hr : Outlasts run' run) {nodes : List Node} (h : Settled (runActions t ctx run scope nodes)) :
    runActions t ctx run' scope nodes = runActions t ctx run scope nodes :=
  (relatesActions_of_outlasts hr).runActions nodes h

end

/-- A higher limit gives the same as one that is high enough. -/
theorem expand_outlasts {limit limit' : Nat} (hl : limit ≤ limit') :
    Outlasts (expand t ctx limit') (expand t ctx limit) := by
  induction limit generalizing limit' with
  | zero => exact fun scope nodes h => absurd rfl h
  | succ limit ih =>
    intro scope nodes h
    obtain ⟨limit', rfl⟩ : ∃ n, limit' = n + 1 := ⟨limit' - 1, by omega⟩
    exact Stepwise.lasting.bind (fun _ => rfl) (fun _ _ => runActions_outlasts (ih (by omega))) h

/-- An expansion of the nodes comes to an end under some limit. -/
def Ends (t : Template) (ctx : Context) (scope : Scope) (nodes : List Node) : Prop :=
  ∃ limit, Settled (expand t ctx limit scope nodes)

end Expansion
end Letterpress
