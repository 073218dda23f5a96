import Letterpress.Proofs.Expansion.Fault
import Letterpress.Proofs.Expansion.Hole
import Letterpress.Proofs.Path.Parts
import Letterpress.Proofs.Template.Binding
import Letterpress.Proofs.Template.FormulaTable

/-! Loops that have nothing to run over. The markers of such a loop are replaced like all others, in every pass that
    goes over the loop, and then it comes to nothing. So a template with the loop and a template without it are
    applied alike, apart from errors in the markers of the loop itself, which come up although its body is
    never run, and from the markup that an error quotes. -/

namespace Letterpress

/-- The errors say the same, whatever markup they quote. -/
inductive Error.SameFault : Error → Error → Prop
  | same (fault : Error) : SameFault fault fault
  | quoted (act : Action) (fault : ActionFault) (markup markup' : String) :
      SameFault (.action act fault markup) (.action act fault markup')

namespace Expansion
open Markup (Node Element Head)

variable {t : Template} {ctx : Context} {scope : Scope}

/-! ### Agreement -/

/-- Two computations come to related results or fail with the same fault, or else the first one fails with an error
    that has the property. -/
inductive Agree {α β : Type} (R : α → β → Prop) (P : Error → Prop) : Except Error α → Except Error β → Prop
  | ok {a : α} {b : β} (h : R a b) : Agree R P (.ok a) (.ok b)
  | fault {fault fault' : Error} (h : fault.SameFault fault') : Agree R P (.error fault) (.error fault')
  | raised {fault : Error} {x : Except Error β} (h : P fault) : Agree R P (.error fault) x

namespace Agree

variable {α β γ δ : Type} {R : α → β → Prop} {S : γ → δ → Prop} {P : Error → Prop}

theorem refl (x : Except Error α) : Agree Eq P x x := by
  cases x with
  | error fault => exact .fault (.same fault)
  | ok a => exact .ok rfl

theorem bind {x : Except Error α} {x' : Except Error β} {f : α → Except Error γ} {f' : β → Except Error δ}
    (h : Agree R P x x') (hf : ∀ a b, x = .ok a → R a b → Agree S P (f a) (f' b)) : Agree S P (x >>= f) (x' >>= f') := by
  cases h with
  | ok h => exact hf _ _ rfl h
  | fault h => exact .fault h
  | raised h => exact .raised h

theorem mono {R' : α → β → Prop} {x : Except Error α} {x' : Except Error β} (h : Agree R P x x')
    (hr : ∀ a b, R a b → R' a b) : Agree R' P x x' := by
  cases h with
  | ok h => exact .ok (hr _ _ h)
  | fault h => exact .fault h
  | raised h => exact .raised h

theorem elim {x x' : Except Error α} (h : Agree Eq P x x') : (∃ a, x = .ok a ∧ x' = .ok a) ∨
    (∃ fault fault', x = .error fault ∧ x' = .error fault' ∧ fault.SameFault fault') ∨
    ∃ fault, x = .error fault ∧ P fault := by
  cases h with
  | ok h => exact Or.inl ⟨_, rfl, h ▸ rfl⟩
  | fault h => exact Or.inr (Or.inl ⟨_, _, rfl, rfl, h⟩)
  | raised h => exact Or.inr (Or.inr ⟨_, rfl, h⟩)

/-- The same step on both sides. -/
theorem step {x : Except Error α} {f : α → Except Error γ} {f' : α → Except Error δ}
    (hf : ∀ a, x = .ok a → Agree S P (f a) (f' a)) : Agree S P (x >>= f) (x >>= f') :=
  (Agree.refl x).bind fun a _ ha hab => hab ▸ hf a ha

theorem stepwise (P : Error → Prop) : Stepwise fun x x' => Agree Eq P x x' where
  ok _ := .ok rfl
  bind hx hf := hx.bind fun a _ ha hab => hab ▸ hf a ha

/-- What two lists have in common before and behind some nodes makes no difference. -/
theorem around {f : List Node → Except Error (List Node)} (hf : Distributes f) {R : List Node → List Node → Prop}
    {part part' before after : List Node} (h : Agree R P (f part) (f part')) :
    Agree (fun out out' => ∃ front middle middle' rest, out = front ++ middle ++ rest ∧
      out' = front ++ middle' ++ rest ∧ R middle middle') P
      (f (before ++ part ++ after)) (f (before ++ part' ++ after)) := by
  rw [hf, hf, hf (before ++ part'), hf before part']
  have hleft : Agree (fun out out' => ∃ front middle middle', out = front ++ middle ∧ out' = front ++ middle' ∧
      R middle middle') P (f before >>= fun front => f part >>= fun rest => pure (front ++ rest))
      (f before >>= fun front => f part' >>= fun rest => pure (front ++ rest)) :=
    .step fun front _ => h.bind fun middle middle' _ hr => .ok ⟨front, middle, middle', rfl, rfl, hr⟩
  refine hleft.bind fun _ _ _ hr => ?_
  obtain ⟨front, middle, middle', rfl, rfl, hr⟩ := hr
  exact .step fun rest _ => .ok ⟨front, middle, middle', rest, rfl, rfl, hr⟩

end Agree

/-! ### Replacing markers around a place -/

section
variable {P : Error → Prop}

theorem agree_element {R : List Node → List Node → Prop} {head : Head} {children children' : List Node}
    (h : Agree R P (substitute t scope children) (substitute t scope children')) :
    Agree (fun out out' => ∃ head' inner inner', substituteHead t scope head = .ok head' ∧
      out = [.element head' inner] ∧ out' = [.element head' inner'] ∧ R inner inner') P
      (substitute t scope [.element head children]) (substitute t scope [.element head children']) := by
  have hone : ∀ children, substitute t scope [.element head children] = substituteHead t scope head >>= fun head' =>
      substitute t scope children >>= fun inner => pure [.element head' inner] := by
    intro children
    rw [substitute_singleton, substituteNode]
  rw [hone, hone]
  exact .step fun head' hh => h.bind fun inner inner' _ hr => .ok ⟨head', inner, inner', hh, rfl, rfl, hr⟩

/-- A pass over the nodes around a place leaves a place with the same node at it, or with none, unless the pass fails
    in the node itself. -/
theorem agree_substitute {around : List Scope} {e : Element} {node : Node} {hole hole' : Hole}
    (hpassed : hole.Passed t around hole') (hnode : passes t around [e.toNode] = .ok [node])
    (hraised : ∀ fault, substituteNode t scope node = .error fault → P fault) :
    Agree (fun out out' => ∃ next node', hole.Passed t (around ++ [scope]) next ∧
      passes t (around ++ [scope]) [e.toNode] = .ok [node'] ∧ out = next.fill [node'] ∧ out' = next.fill []) P
      (substitute t scope (hole'.fill [node])) (substitute t scope (hole'.fill [])) := by
  induction hpassed with
  | here =>
    -- The pass makes one element of the node, or fails in it.
    have hpart : Agree (fun out out' => out' = [] ∧ ∃ node', out = [node'] ∧
        passes t (around ++ [scope]) [e.toNode] = .ok [node']) P (substitute t scope [node]) (substitute t scope []) := by
      obtain ⟨head, children, -, -, heq⟩ := passes_element hnode
      cases heq
      cases hone : substitute t scope [.element head children] with
      | error fault => exact .raised (hraised fault ((substitute_singleton _).symm.trans hone))
      | ok out =>
        obtain ⟨head', children', -, -, rfl⟩ :=
          substituteNode_element_eq_ok.mp ((substitute_singleton _).symm.trans hone)
        exact .ok ⟨rfl, _, rfl, passes_concat hnode hone⟩
    refine (hpart.around (distributes_substitute scope)).mono ?_
    rintro _ _ ⟨front, _, _, rest, rfl, rfl, rfl, node', rfl, hpasses⟩
    exact ⟨.here front rest, node', .here, hpasses, rfl, rfl⟩
  | @inside _ _ before' after' head head' inner inner' plain plain' hh _ ih =>
    refine ((agree_element (ih)).around (distributes_substitute scope)).mono ?_
    rintro _ _ ⟨front, _, _, rest, rfl, rfl, head'', _, _, hh', rfl, rfl, next, node', hnext, hpasses, rfl, rfl⟩
    have hname := name_of_substituteHead hh'
    exact ⟨.inside front head'' (by rwa [hname]) next rest, node', .inside (headPasses_concat hh hh') hnext, hpasses,
      rfl, rfl⟩
  | @branch _ _ _ _ before' after' earlier' later' head head' label label' inner inner' choice choice' hh hl _ ih =>
    refine ((agree_element ((agree_element ih).around (distributes_substitute scope))).around
      (distributes_substitute scope)).mono ?_
    rintro _ _ ⟨front, _, _, rest, rfl, rfl, head'', _, _, hh', rfl, rfl, earlier, _, _, later, rfl, rfl, label'', _, _,
      hl', rfl, rfl, next, node', hnext, hpasses, rfl, rfl⟩
    have hname := name_of_substituteHead hh'
    have hlabel := (name_of_substituteHead hl').trans hl
    exact ⟨.branch front head'' (by rwa [hname]) earlier label'' next later rest, node',
      .branch (headPasses_concat hh hh') hlabel hnext, hpasses, rfl, rfl⟩

/-! ### Running actions around a place -/

section
variable {run : Scope → List Node → Except Error (List Node)} {head : Head} {children children' : List Node}

theorem agree_loopList : Agree Eq P (loopList ⟨head, children⟩) (loopList ⟨head, children'⟩) := by
  unfold loopList
  have hattr : Element.attribute? ⟨head, children'⟩ "list" = Element.attribute? ⟨head, children⟩ "list" := rfl
  rw [hattr]
  split
  · exact .ok rfl
  · exact .fault (.quoted ..)

theorem agree_itemName {list : String} {path : List String} :
    Agree Eq P (itemName t ⟨head, children⟩ list path) (itemName t ⟨head, children'⟩ list path) := by
  unfold itemName
  split
  · exact .ok rfl
  · exact .fault (.quoted ..)
  · exact .fault (.quoted ..)

theorem agree_choiceKey : Agree Eq P (choiceKey ctx ⟨head, children⟩) (choiceKey ctx ⟨head, children'⟩) := by
  have hattr : ∀ name, Element.attribute? ⟨head, children'⟩ name = Element.attribute? ⟨head, children⟩ name :=
    fun _ => rfl
  unfold choiceKey
  rw [hattr "f", hattr "x", hattr "value"]
  split
  · split
    · exact .ok rfl
    · exact .fault (.quoted ..)
  · split
    · exact .ok rfl
    · exact .fault (.quoted ..)

/-- Loops with one head agree if their bodies do in every iteration. -/
theorem agree_runLoop (h : ∀ items item k value, RunsOver t scope ⟨head, []⟩ items item → items[k]? = some value →
      Agree Eq P (run (iterationScope scope (loopIndex ⟨head, []⟩) item (1 + k) value) children)
        (run (iterationScope scope (loopIndex ⟨head, []⟩) item (1 + k) value) children')) :
    Agree Eq P (runLoop t run scope ⟨head, children⟩) (runLoop t run scope ⟨head, children'⟩) :=
  related_runLoop (Agree.stepwise P) agree_loopList (fun _ _ _ _ => agree_itemName) fun items item hr =>
    related_iterate (Agree.stepwise P) fun k value hk => h items item k value hr.of_head hk

theorem branches_around (earlier later body : List Node) (label : Head) (key : String) :
    (earlier ++ [Node.element label body] ++ later).filterMap (branch? key) =
      earlier.filterMap (branch? key) ++ (if label.name = key then [body] else []) ++ later.filterMap (branch? key) := by
  rw [List.filterMap_append, List.filterMap_append]
  split
  · rename_i h
    rw [List.filterMap_cons_some (branch?_of_eq h), List.filterMap_nil]
  · rename_i h
    rw [List.filterMap_cons_none (branch?_of_ne h), List.filterMap_nil]

/-- Choices with one head agree if the branches do in which they differ. -/
theorem agree_choice {earlier later body body' : List Node} {label : Head}
    (ha : Action.ofTag? head.name = some .choose)
    (h : choiceKey ctx ⟨head, []⟩ = .ok label.name →
      Agree Eq P (runActions t ctx run scope body) (runActions t ctx run scope body')) :
    Agree Eq P (runNode t ctx run scope (.element head (earlier ++ [.element label body] ++ later)))
      (runNode t ctx run scope (.element head (earlier ++ [.element label body'] ++ later))) := by
  rw [runNode_choice ha, runNode_choice ha]
  refine agree_choiceKey.bind fun key _ hk heq => heq ▸ ?_
  rw [runBranch_eq, runBranch_eq, branches_around, branches_around]
  by_cases hkey : label.name = key
  · rw [if_pos hkey, if_pos hkey]
    simp only [List.length_append, List.length_singleton]
    split
    · exact .fault (.quoted ..)
    · cases earlier.filterMap (branch? key) with
      | nil => exact h (hkey ▸ choiceKey_of_head hk)
      | cons first more => exact .refl _
  · rw [if_neg hkey, if_neg hkey]
    split
    · exact .fault (.quoted ..)
    · exact .refl _

end

/-! ### A loop that comes to nothing -/

/-- Replacing the markers of the element fails with the error, in one of the passes that go over the place. -/
def Raises (t : Template) (ctx : Context) (p : Spot) (e : Element) (fault : Error) : Prop :=
  ∃ q node, p.Enters t ctx q ∧ passes t q.around [e.toNode] = .ok [node] ∧ substituteNode t q.scope node = .error fault

/-- The element is a loop that comes to nothing wherever an expansion comes to the place. -/
structure Idles (t : Template) (ctx : Context) (p : Spot) (e : Element) : Prop where
  tag : Action.ofTag? e.name = some .forEach
  nothing : ∀ {around : List Scope} {scope : Scope} {before after children : List Node} {head : Head}
    {run : Scope → List Node → Except Error (List Node)}, p.Enters t ctx ⟨around, scope, .here before after⟩ →
    headPasses t (around ++ [scope]) e.head = .ok head → runLoop t run scope ⟨head, children⟩ = .ok []

section
variable {p : Spot} {e : Element}

/-- Where both sides expand the bodies of loops alike, they run the actions around the place alike. -/
theorem agree_runActions (hidle : Idles t ctx p e) {run : Scope → List Node → Except Error (List Node)}
    (hrun : ∀ q hole node, p.Enters t ctx q → q.hole.Passed t q.around hole → passes t q.around [e.toNode] = .ok [node] →
      Agree Eq P (run q.scope (hole.fill [node])) (run q.scope (hole.fill [])))
    {around : List Scope} {hole hole' : Hole} {node : Node} (hp : p.Enters t ctx ⟨around, scope, hole⟩)
    (hpassed : hole.Passed t (around ++ [scope]) hole') (hnode : passes t (around ++ [scope]) [e.toNode] = .ok [node]) :
    Agree Eq P (runActions t ctx run scope (hole'.fill [node])) (runActions t ctx run scope (hole'.fill [])) := by
  have hsame : ∀ out out' : List Node, (∃ front middle middle' rest, out = front ++ middle ++ rest ∧
      out' = front ++ middle' ++ rest ∧ middle = middle') → out = out' := by
    rintro _ _ ⟨front, middle, _, rest, rfl, rfl, rfl⟩
    rfl
  induction hpassed with
  | here =>
    refine (Agree.around (distributes_runActions scope) ?_).mono hsame
    obtain ⟨head, children, hh, -, heq⟩ := passes_element hnode
    cases heq
    -- At the place itself the loop comes to nothing, as the other side does.
    rw [runActions_singleton, runNode_loop (by rw [name_of_headPasses hh]; exact hidle.tag), hidle.nothing hp hh]
    exact .ok rfl
  | @inside _ _ before' after' head head' inner inner' plain plain' hh hinner ih =>
    refine (Agree.around (distributes_runActions scope) ?_).mono hsame
    rw [runActions_singleton, runActions_singleton]
    have hname := name_of_headPasses hh
    cases ha : Action.ofTag? head.name with
    | none =>
      rw [runNode_plain (by rwa [hname]), runNode_plain (by rwa [hname])]
      exact (ih (hp.inside ha)).bind fun out _ _ heq => heq ▸ .ok rfl
    | some action =>
      cases action with
      | choose => exact absurd ha plain
      | forEach =>
        rw [runNode_loop (by rwa [hname]), runNode_loop (by rwa [hname])]
        exact agree_runLoop fun items item k value hover hk => hrun _ _ _ (hp.iteration ha hh hover hk) hinner hnode
  | @branch _ _ _ _ before' after' earlier' later' head head' label label' inner inner' choice choice' hh hl hinner ih =>
    refine (Agree.around (distributes_runActions scope) ?_).mono hsame
    rw [runActions_singleton, runActions_singleton]
    exact agree_choice choice' fun hk => ih (hp.branch hh (hl ▸ hk))

theorem agree_expand (hidle : Idles t ctx p e) (limit : Nat) {q : Spot} {hole : Hole} {node : Node}
    (hq : p.Enters t ctx q) (hpassed : q.hole.Passed t q.around hole) (hnode : passes t q.around [e.toNode] = .ok [node]) :
    Agree Eq (Raises t ctx p e) (expand t ctx limit q.scope (hole.fill [node]))
      (expand t ctx limit q.scope (hole.fill [])) := by
  induction limit generalizing q hole node with
  | zero => exact .fault (.same _)
  | succ limit ih =>
    refine (agree_substitute hpassed hnode fun fault hf => ⟨q, node, hq, hnode, hf⟩).bind ?_
    rintro _ _ - ⟨next, node', hnext, hnode', rfl, rfl⟩
    exact agree_runActions hidle (fun q hole node hq hpassed hnode => ih hq hpassed hnode) hq hnext hnode'

end
end
end Expansion

/-! ### Templates with and without a loop -/

namespace Template
open Markup (Node Element Head)
open Expansion (Agree Hole Spot Raises Idles)

variable {t t' : Template} {ctx : Context}

/-- The second template is the first one without the element that stands at this place of its body. -/
structure Removed (t t' : Template) (hole : Hole) (e : Element) : Prop where
  name : t'.name = t.name
  params : t'.params = t.params
  with_element : t.content = ⟨t.content.head, hole.fill [e.toNode]⟩
  without_element : t'.content = ⟨t.content.head, hole.fill []⟩

/-- The element is a loop, and its list attribute is the name of a parameter of the template that takes a list. -/
structure LoopsOver (t : Template) (e : Element) (name : String) : Prop where
  tag : Action.ofTag? e.name = some .forEach
  list : ∃ value, e.attribute? "list" = some value ∧ Segment.markers value = [] ∧ Text.trim value = name
  dotless : '.' ∉ name.toList
  declared : ∃ required item, t.param? name = some (.list name required item)

/-- If the name stands for a list in the scope, it has no items, and the loop asks for no class around its output. -/
def Vacant (loop : Element) (name : String) (scope : Scope) : Prop :=
  ∀ items, scope.get? name = some (.list items) → items = [] ∧ loop.attribute? "html-class" = none

theorem Removed.readsAlike {hole : Hole} {e : Element} (h : Removed t t' hole e) (ht : t.Loaded) (ht' : t'.Loaded) :
    t.ReadsAlike t' where
  formula text := (ht'.formula?_eq text).trans (ht.formula?_eq text).symm
  declaration path := by
    cases path with
    | nil => rfl
    | cons name fields => rw [declaration?, declaration?, param?, param?, h.params]

/-- Where the name of its list is vacant, a loop comes to nothing. -/
theorem LoopsOver.runLoop {loop : Element} {name : String} (h : LoopsOver t loop name) {scope : Scope}
    {scopes : List Scope} {head : Head} {children : List Node} {run : Scope → List Node → Except Error (List Node)}
    (hh : Expansion.headPasses t scopes loop.head = .ok head) (hs : Vacant loop name scope) :
    Expansion.runLoop t run scope ⟨head, children⟩ = .ok [] := by
  obtain ⟨value, hvalue, hplain, rfl⟩ := h.list
  obtain ⟨required, item, hparam⟩ := h.declared
  -- The passes leave an attribute without markers as it is, so the loop still asks for the same list.
  have hlist : Element.attribute? ⟨head, children⟩ "list" = some value := by
    rw [← hvalue]
    refine Expansion.lookup_of_headPasses hh fun found hf => ?_
    cases hvalue.symm.trans hf
    exact hplain
  have hloop : Expansion.loopList ⟨head, children⟩ = .ok (Text.trim value) := by simp only [Expansion.loopList, hlist]
  have hpath : Text.split (· == '.') (Text.trim value) = [Text.trim value] := by
    have hfree : ∀ c ∈ (Text.trim value).toList, (c == '.') = false := fun c hc =>
      beq_eq_false_iff_ne.mpr (ne_of_mem_of_not_mem hc h.dotless)
    rw [Text.split, Text.splitChars_of_free hfree, List.map_singleton, String.ofList_toList]
  refine Expansion.runLoop_eq_ok.mpr ?_
  cases hitems : Expansion.items? scope [Text.trim value] with
  | none => exact Or.inl ⟨⟨_, hloop, by rw [hpath, hitems]⟩, rfl⟩
  | some items =>
    have hget := Expansion.items?_eq_some.mp hitems
    rw [Scope.lookup?_singleton] at hget
    obtain ⟨rfl, hclass⟩ := hs items hget
    have hname : Expansion.itemName t ⟨head, children⟩ (Text.trim value) [Text.trim value] = .ok item.name := by
      simp only [Expansion.itemName, declaration?, hparam, Param.descend?]
    have hwrap : Element.attribute? ⟨head, children⟩ "html-class" = none := by
      rw [← hclass]
      refine Expansion.lookup_of_headPasses hh fun found hf => ?_
      cases hclass.symm.trans hf
    refine Or.inr ⟨[], item.name, [], ⟨_, hloop, by rw [hpath, hitems], by rw [hpath, hname]⟩, rfl, ?_⟩
    simp only [Expansion.wrap, hwrap]

/-- An instance that supplies nothing for a list, or an empty element, leaves its name vacant. -/
theorem vacant_of_empty {loop : Element} {name : String} {required : Bool} {item : Param}
    (hp : t.param? name = some (.list name required item)) {e : Element} {bound : Layer} (hb : t.bind ctx e = .ok bound)
    (hempty : ∀ child : Element, child.toNode ∈ e.children → child.name = name →
      child.significant = [] ∧ loop.attribute? "html-class" = none) : Vacant loop name (.ofParams bound) := by
  intro items hl
  rw [Scope.get?_ofParams] at hl
  obtain ⟨param, child, hparam, hchild, hname, hvalid⟩ := supplied_of_bind hb (mem_of_lookup hl)
  obtain ⟨hnone, hclass⟩ := hempty child (List.mem_filter.mp hchild).1 hname
  cases hp.symm.trans hparam
  obtain ⟨values, heq, hvalues⟩ := Param.validate_list_eq_ok hvalid
  rw [hnone] at hvalues
  cases hvalues
  exact ⟨Value.list.inj heq, hclass⟩

/-- Where the list of a loop is not supplied, or is empty and the loop asks for no class around its output, a template
    is applied as if the loop were not there, unless one of the loops around it binds the name of the list to
    another list. All that can come of the loop is an error in one of its own markers. -/
theorem apply_without_idle_loop (ht : t.Loaded) (ht' : t'.Loaded) {hole : Hole} {loop : Element}
    (hr : Removed t t' hole loop) {name : String} (hl : LoopsOver t loop name) {e : Element}
    (hempty : ∀ child : Element, child.toNode ∈ e.children → child.name = name →
      child.significant = [] ∧ loop.attribute? "html-class" = none)
    (hfree : ∀ bound, t.bind ctx e = .ok bound → ∀ around scope before after,
      Spot.Enters t ctx ⟨[], .ofParams bound, hole⟩ ⟨around, scope, .here before after⟩ →
      scope.get? name = (Scope.ofParams bound).get? name ∨ Vacant loop name scope) :
    (∃ content, t.apply ctx e = .ok content ∧ t'.apply ctx e = .ok content) ∨
    (∃ fault fault', t.apply ctx e = .error fault ∧ t'.apply ctx e = .error fault' ∧ fault.SameFault fault') ∨
    ∃ bound text cause, t.bind ctx e = .ok bound ∧ t.apply ctx e = .error (.formula text cause) ∧
      Raises t ctx ⟨[], .ofParams bound, hole⟩ loop (.formula text cause) := by
  have hbind : t'.bind ctx e = t.bind ctx e := bind_eq_of_params hr.name hr.params e
  have happly : ∀ bound, t.bind ctx e = .ok bound → t.apply ctx e =
      Expansion.expandElement t ctx (ctx.loopLimit + 1) (.ofParams bound) t.content ∧ t'.apply ctx e =
      Expansion.expandElement t ctx (ctx.loopLimit + 1) (.ofParams bound) t'.content := by
    intro bound hb
    simp only [apply, hbind, hb, Expansion.expandElement_alike (hr.readsAlike ht ht')]
    exact ⟨rfl, rfl⟩
  cases hb : t.bind ctx e with
  | error fault =>
    refine Or.inr (Or.inl ⟨fault, fault, ?_, ?_, .same fault⟩)
    · simp only [apply, hb]
      rfl
    · simp only [apply, hbind, hb]
      rfl
  | ok bound =>
    obtain ⟨happ, happ'⟩ := happly bound hb
    obtain ⟨required, item, hparam⟩ := hl.declared
    -- Whatever scope the loop is run in, its list is missing there or empty.
    have hidle : Idles t ctx ⟨[], .ofParams bound, hole⟩ loop := by
      refine ⟨hl.tag, fun henter hh => hl.runLoop hh ?_⟩
      rcases hfree bound hb _ _ _ _ henter with hsame | hvacant
      · intro items hget
        exact vacant_of_empty hparam hb hempty items (hsame.symm.trans hget)
      · exact hvacant
    have hagree := Expansion.agree_expand hidle (ctx.loopLimit + 1) .here hole.passed_nil rfl
    have hwhole : Agree Eq (Raises t ctx ⟨[], .ofParams bound, hole⟩ loop) (t.apply ctx e) (t'.apply ctx e) := by
      rw [happ, happ', hr.with_element, hr.without_element]
      exact .step fun head _ => hagree.bind fun children _ _ heq => heq ▸ .ok rfl
    refine hwhole.elim.imp_right (Or.imp_right ?_)
    rintro ⟨fault, happ, hraises⟩
    -- The only fault that replacing markers can raise is that of a formula.
    obtain ⟨q, node, -, -, hnode⟩ := id hraises
    have hformula : FailsWith (fun fault => ∃ text cause, fault = .formula text cause)
        (Expansion.substituteNode t q.scope node) :=
      Expansion.fails_substituteNode (fun text cause => ⟨text, cause, rfl⟩) node
    obtain ⟨text, cause, rfl⟩ := hformula fault hnode
    exact ⟨bound, text, cause, rfl, happ, hraises⟩

/-! ### A board with rows -/

/-- A board with this body, where the items of a row are called so. -/
def board (row : String) (body : List Node) (formulas : List (String × Formula)) : Template where
  name := "board"
  params := [.text "name" true .generic, .list "rows" false (.list row true (.text "item" true .generic)),
    .list "items" false (.text "item" true .generic)]
  content := ⟨{ name := "content" }, body⟩
  formulas := formulas

/-- The declaration of the board. -/
def boardElement (row : String) (body : List Node) : Element :=
  ⟨{ name := "template", attributes := [("name", "board")] },
    [.element { name := "param", attributes := [("name", "name"), ("type", "text")] } [],
      .element { name := "param", attributes := [("name", "rows"), ("type", "list"), ("required", "false")] }
        [.element { name := "param", attributes := [("name", row), ("type", "list")] }
          [.element { name := "param", attributes := [("name", "item"), ("type", "text")] } []]],
      .element { name := "param", attributes := [("name", "items"), ("type", "list"), ("required", "false")] }
        [.element { name := "param", attributes := [("name", "item"), ("type", "text")] } []],
      .element { name := "content" } body]⟩

/-- An instance with one row, which has one item. -/
def boardInstance (row : String) (more : List Node) : Element :=
  ⟨{ name := "board" }, .element { name := "name" } [.text "red"] ::
    .element { name := "rows" } [.element { name := row } [.element { name := "item" } [.text "a"]]] :: more⟩

theorem mem_more_of_items {row : String} {more : List Node} {child : Element}
    (h : child.toNode ∈ (boardInstance row more).children) (hname : child.name = "items") : child.toNode ∈ more := by
  simp only [boardInstance, Element.toNode, List.mem_cons, Node.element.injEq] at h
  rcases h with ⟨hhead, -⟩ | ⟨hhead, -⟩ | h
  · rw [Element.name, hhead] at hname
    exact absurd hname (by decide)
  · rw [Element.name, hhead] at hname
    exact absurd hname (by decide)
  · exact h

/-- A loop over the items of the board. -/
def itemLoop (more : List (String × String)) (text : String) : Element :=
  ⟨{ name := "ForEach", attributes := ("list", "items") :: more }, [.text text]⟩

/-- Inside a loop over the rows. -/
def inRows (inner : Hole) : Hole :=
  .inside [] { name := "ForEach", attributes := [("list", "rows")] } (by decide) inner []

theorem board_loaded {row : String} {body : List Node} {formulas : List (String × Formula)}
    (h : (ofElement "board.xml" (boardElement row body)).toOption = some (board row body formulas)) :
    (board row body formulas).Loaded :=
  ⟨_, _, eq_ok_of_toOption h⟩

theorem itemLoop_loopsOver (row : String) (body : List Node) (formulas : List (String × Formula))
    (more : List (String × String)) (text : String) : LoopsOver (board row body formulas) (itemLoop more text) "items" where
  tag := rfl
  list := ⟨"items", rfl, by decide +kernel, by decide +kernel⟩
  dotless := by decide
  declared := ⟨false, .text "item" true .generic, rfl⟩

/-- In a branch for the name of the board. -/
def inRedBranch : Hole :=
  .branch [.text "{{__iter}}"] { name := "Match", attributes := [("value", "{{name}}")] } rfl [] { name := "red" }
    (.here [.text ": "] [.text "."]) [] []

/-- A loop over rows binds the number of the row and the row. -/
theorem scope_of_row {t : Template} {around : List Scope} {scope base : Scope} {before after : List Node}
    (ht : t.declaration? ["rows"] = some (.list "rows" false (.list "row" true (.text "item" true .generic))))
    (h : Spot.Enters t ctx ⟨[], base, inRows inRedBranch⟩ ⟨around, scope, .here before after⟩) :
    scope.get? "items" = base.get? "items" := by
  have hshape : ∀ q, Spot.Enters t ctx ⟨[], base, inRows inRedBranch⟩ q → q = ⟨[], base, inRows inRedBranch⟩ ∨
      q.scope.get? "items" = base.get? "items" ∧ (q.hole = inRedBranch ∨ q.hole = .here [.text ": "] [.text "."]) := by
    intro q h
    induction h with
    | here => exact Or.inl rfl
    | inside h tag ih =>
      rcases ih with heq | ⟨-, hhole | hhole⟩
      · cases heq
        cases tag
      · cases hhole
      · cases hhole
    | branch h hh hk ih =>
      rcases ih with heq | ⟨hget, hhole | hhole⟩
      · cases heq
      · cases hhole
        exact Or.inr ⟨hget, Or.inr rfl⟩
      · cases hhole
    | @iteration _ _ _ _ _ head' _ _ _ _ _ _ h tag hh hr hv ih =>
      rcases ih with heq | ⟨-, hhole | hhole⟩
      · cases heq
        refine Or.inr ⟨?_, Or.inl rfl⟩
        have hlist := @Expansion.lookup_of_headPasses _ _ _ _ "list" hh (by rintro _ ⟨⟩; decide +kernel)
        have hindex := @Expansion.lookup_of_headPasses _ _ _ _ "i" hh (by rintro _ ⟨⟩)
        obtain ⟨list, hl, -, hname⟩ := hr
        simp only [Expansion.loopList, Element.attribute?, hlist] at hl
        cases hl
        have hpath : Text.split (· == '.') (Text.trim "rows") = ["rows"] := by decide +kernel
        simp only [hpath, Expansion.itemName, ht] at hname
        cases hname
        have hfree : "items" ≠ Expansion.loopIndex ⟨head', []⟩ := by
          simp only [Expansion.loopIndex, Element.attribute?, hindex]
          decide
        rw [Expansion.get?_iterationScope, if_neg (by decide), if_neg hfree]
      · cases hhole
      · cases hhole
  rcases hshape _ h with heq | ⟨hget, -⟩
  · cases heq
  · exact hget

def rowBoard : Template :=
  board "row" ((inRows inRedBranch).fill [(itemLoop [] "{{item}}").toNode])
    [("__iter", .var ["__iter"]), ("name", .var ["name"]), ("item", .var ["item"])]

def rowBoardWithoutItems : Template :=
  board "row" ((inRows inRedBranch).fill []) [("__iter", .var ["__iter"]), ("name", .var ["name"])]

theorem rowBoard_without_items : ∃ content,
    rowBoard.apply emptySite (boardInstance "row" [.element { name := "items" } []]) = .ok content ∧
    rowBoardWithoutItems.apply emptySite (boardInstance "row" [.element { name := "items" } []]) = .ok content := by
  have hloaded : rowBoard.Loaded := board_loaded (by decide +kernel)
  have hloaded' : rowBoardWithoutItems.Loaded := board_loaded (by decide +kernel)
  have hempty : ∀ child : Element,
      child.toNode ∈ (boardInstance "row" [.element { name := "items" } []]).children → child.name = "items" →
      child.significant = [] ∧ (itemLoop [] "{{item}}").attribute? "html-class" = none := by
    intro child hm hname
    have hitems := List.mem_singleton.mp (mem_more_of_items hm hname)
    exact ⟨by rw [Element.significant, (Node.element.inj hitems).2, List.filter_nil], rfl⟩
  have hok : (rowBoard.apply emptySite (boardInstance "row" [.element { name := "items" } []])).toOption.isSome = true := by
    decide +kernel
  rcases apply_without_idle_loop hloaded hloaded' ⟨rfl, rfl, rfl, rfl⟩ (itemLoop_loopsOver _ _ _ _ _) hempty
      (fun _ _ _ _ _ _ h => Or.inl (scope_of_row rfl h)) with h | ⟨fault, -, hfault, -⟩ | ⟨-, text, cause, -, hfault, -⟩
  · exact h
  · rw [hfault] at hok
    cases hok
  · rw [hfault] at hok
    cases hok

/-- A board with the loop and the board without it are applied differently to an instance without items. -/
def Noticed (row : String) (hole : Hole) (loop : Element) (formula : String × Formula) (more : List Node) : Prop :=
  ∃ t t' e, t.Loaded ∧ t'.Loaded ∧ Removed t t' hole loop ∧ LoopsOver t loop "items" ∧
    t = board row (hole.fill [loop.toNode]) [formula] ∧ e = boardInstance row more ∧
    (∀ child : Element, child.toNode ∈ e.children → child.name = "items" → child.significant = []) ∧
    t.apply emptySite e ≠ t'.apply emptySite e

theorem noticed_of_applied {row text : String} {hole : Hole} {attributes : List (String × String)}
    {formula : String × Formula} {more : List Node}
    (h : (ofElement "board.xml" (boardElement row (hole.fill [(itemLoop attributes text).toNode]))).toOption =
      some (board row (hole.fill [(itemLoop attributes text).toNode]) [formula]))
    (h' : (ofElement "board.xml" (boardElement row (hole.fill []))).toOption = some (board row (hole.fill []) []))
    (hmore : ∀ node ∈ more, node = .element { name := "items" } [])
    (hne : (board row (hole.fill [(itemLoop attributes text).toNode]) [formula]).apply emptySite (boardInstance row more) ≠
      (board row (hole.fill []) []).apply emptySite (boardInstance row more)) :
    Noticed row hole (itemLoop attributes text) formula more := by
  refine ⟨_, _, _, board_loaded h, board_loaded h', ⟨rfl, rfl, rfl, rfl⟩, itemLoop_loopsOver _ _ _ _ _, rfl, rfl, ?_, hne⟩
  intro child hm hname
  rw [Element.significant, (Node.element.inj (hmore _ (mem_more_of_items hm hname))).2, List.filter_nil]

/-- The markers of a loop that is never run are replaced, and may fail. Where a choice around the loop has no key, the
    error quotes the loop. A class asked for is put around no items too. And a loop over rows that are
    called like the list is a loop over something else. -/
theorem idle_loop_noticed :
    Noticed "row" (.here [] []) (itemLoop [] "{{name + 1}}")
      ("name + 1", .binary .plus (.var ["name"]) (.constant "1")) [] ∧
    Noticed "row" (.branch [] { name := "Match" } rfl [] { name := "red" } (.here [] []) [] [])
      (itemLoop [] "{{item}}") ("item", .var ["item"]) [] ∧
    Noticed "row" (.here [] []) (itemLoop [("html-class", "list")] "{{item}}") ("item", .var ["item"])
      [.element { name := "items" } []] ∧
    Noticed "items" (inRows (.here [] [])) (itemLoop [] "{{item}}") ("item", .var ["item"]) [] :=
  ⟨noticed_of_applied (by decide +kernel) (by decide +kernel) (by decide +kernel) (by decide +kernel),
    noticed_of_applied (by decide +kernel) (by decide +kernel) (by decide +kernel) (by decide +kernel),
    noticed_of_applied (by decide +kernel) (by decide +kernel) (by decide +kernel) (by decide +kernel),
    noticed_of_applied (by decide +kernel) (by decide +kernel) (by decide +kernel) (by decide +kernel)⟩

end Template
end Letterpress
