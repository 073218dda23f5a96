import Letterpress.Proofs.Expansion.Frame

/-! A place in a body and the nodes around it. Whatever stands at the place, the nodes around it go through the
    same passes, and an expansion comes to the place in the same scopes: those of the loops around it. -/

namespace Letterpress
namespace Expansion
open Markup (Node Element Head)

variable {t : Template} {ctx : Context}

/-! ### Passes -/

theorem headPasses_concat {scopes : List Scope} {scope : Scope} {head head' head'' : Head}
    (h : headPasses t scopes head = .ok head') (h' : substituteHead t scope head' = .ok head'') :
    headPasses t (scopes ++ [scope]) head = .ok head'' :=
  foldlM_append_eq_ok.mpr ⟨head', h, foldlM_cons_eq_ok.mpr ⟨head'', h', rfl⟩⟩

theorem passes_concat {scopes : List Scope} {scope : Scope} {nodes nodes' nodes'' : List Node}
    (h : passes t scopes nodes = .ok nodes') (h' : substitute t scope nodes' = .ok nodes'') :
    passes t (scopes ++ [scope]) nodes = .ok nodes'' :=
  foldlM_append_eq_ok.mpr ⟨nodes', h, foldlM_cons_eq_ok.mpr ⟨nodes'', h', rfl⟩⟩

/-- An attribute without markers stays through all passes. -/
theorem lookup_of_headPasses {scopes : List Scope} {head head' : Head} {key : String}
    (h : headPasses t scopes head = .ok head')
    (hn : ∀ value, head.attributes.lookup key = some value → Segment.markers value = []) :
    head'.attributes.lookup key = head.attributes.lookup key := by
  induction scopes generalizing head with
  | nil =>
    cases h
    rfl
  | cons scope scopes ih =>
    obtain ⟨head₁, hh, h⟩ := foldlM_cons_eq_ok.mp h
    obtain ⟨attributes, hs, rfl⟩ := substituteHead_eq_ok.mp hh
    have hsame := lookup_substituteAttributes hs hn
    exact (ih h (hsame ▸ hn)).trans hsame

/-! ### Places -/

/-- A place in a body, with the nodes around it. It lies in the body itself, inside an element that is no choice,
    or inside a branch of a choice. -/
inductive Hole where
  | here (before after : List Node)
  | inside (before : List Node) (head : Head) (plain : Action.ofTag? head.name ≠ some .choose) (inner : Hole)
      (after : List Node)
  | branch (before : List Node) (head : Head) (choice : Action.ofTag? head.name = some .choose) (earlier : List Node)
      (label : Head) (inner : Hole) (later after : List Node)

/-- The body with these nodes at the place. -/
def Hole.fill (nodes : List Node) : Hole → List Node
  | here before after => before ++ nodes ++ after
  | inside before head _ inner after => before ++ [.element head (inner.fill nodes)] ++ after
  | branch before head _ earlier label inner later after =>
    before ++ [.element head (earlier ++ [.element label (inner.fill nodes)] ++ later)] ++ after

/-- The elements around the second place are those around the first one after a pass in each of the scopes. -/
inductive Hole.Passed (t : Template) (scopes : List Scope) : Hole → Hole → Prop
  | here {before after before' after' : List Node} : Passed t scopes (here before after) (here before' after')
  | inside {before after before' after' : List Node} {head head' : Head} {inner inner' : Hole}
      {plain : Action.ofTag? head.name ≠ some .choose} {plain' : Action.ofTag? head'.name ≠ some .choose}
      (hh : headPasses t scopes head = .ok head') (h : Passed t scopes inner inner') :
      Passed t scopes (inside before head plain inner after) (inside before' head' plain' inner' after')
  | branch {before after earlier later before' after' earlier' later' : List Node} {head head' label label' : Head}
      {inner inner' : Hole} {choice : Action.ofTag? head.name = some .choose}
      {choice' : Action.ofTag? head'.name = some .choose} (hh : headPasses t scopes head = .ok head')
      (hl : label'.name = label.name) (h : Passed t scopes inner inner') :
      Passed t scopes (branch before head choice earlier label inner later after)
        (branch before' head' choice' earlier' label' inner' later' after')

theorem Hole.passed_nil (hole : Hole) : hole.Passed t [] hole := by
  induction hole with
  | here before after => exact .here
  | inside before head plain inner after ih => exact .inside rfl ih
  | branch before head choice earlier label inner later after ih => exact .branch rfl rfl ih

/-- A place in a body as it is written, the scope in which the nodes around it are expanded, and the scopes around
    that one, the outermost first. -/
structure Spot where
  around : List Scope
  scope : Scope
  hole : Hole

/-- An expansion of the body of the first place comes to the nodes around the second one: the same place, as it is
    seen from an element around it. -/
inductive Spot.Enters (t : Template) (ctx : Context) (p : Spot) : Spot → Prop
  | here : Enters t ctx p p
  | inside {around : List Scope} {scope : Scope} {before after : List Node} {head : Head} {inner : Hole}
      {plain : Action.ofTag? head.name ≠ some .choose}
      (h : Enters t ctx p ⟨around, scope, .inside before head plain inner after⟩) (tag : Action.ofTag? head.name = none) :
      Enters t ctx p ⟨around, scope, inner⟩
  | branch {around : List Scope} {scope : Scope} {before after earlier later : List Node} {head head' label : Head}
      {inner : Hole} {choice : Action.ofTag? head.name = some .choose}
      (h : Enters t ctx p ⟨around, scope, .branch before head choice earlier label inner later after⟩)
      (hh : headPasses t (around ++ [scope]) head = .ok head') (hk : choiceKey ctx ⟨head', []⟩ = .ok label.name) :
      Enters t ctx p ⟨around, scope, inner⟩
  | iteration {around : List Scope} {scope : Scope} {before after : List Node} {head head' : Head} {inner : Hole}
      {plain : Action.ofTag? head.name ≠ some .choose} {items : List Value} {item : String} {k : Nat} {value : Value}
      (h : Enters t ctx p ⟨around, scope, .inside before head plain inner after⟩)
      (tag : Action.ofTag? head.name = some .forEach) (hh : headPasses t (around ++ [scope]) head = .ok head')
      (hr : RunsOver t scope ⟨head', []⟩ items item) (hv : items[k]? = some value) :
      Enters t ctx p ⟨around ++ [scope], iterationScope scope (loopIndex ⟨head', []⟩) item (1 + k) value, inner⟩

end Expansion
end Letterpress
