import Letterpress.Proofs.Expansion.Absorption
import Letterpress.Proofs.Expansion.Relation

/-! Expansion as evaluation in an environment. An expansion replaces the markers of a whole body first and
    runs its actions then, and it does both again for each iteration of a loop. If nothing that is bound
    can be taken for a marker or an action, and no loop binds a name that is bound already, the output is
    that of one walk over the body as it is written, which evaluates each marker where it stands. -/

namespace Letterpress
namespace Expansion
open Markup (Node Element Head)

/-! ### The walk -/

mutual

/-- What a node comes to in the scope of its place. -/
def walkNode (t : Template) (ctx : Context) (scope : Scope) : Node → Except Error (List Node)
  | .element head children => do
    let head ← substituteHead t scope head
    match Action.ofTag? head.name with
    | some .forEach => runLoop t (fun inner _ => walk t ctx inner children) scope ⟨head, children⟩
    | some .choose =>
      let key ← choiceKey ctx ⟨head, children⟩
      match ← walkBranches t ctx scope key children with
      | [] => return []
      | [nodes] => return nodes
      | _ => throw (.action .choose (.ambiguous key) (Element.mk head children).outer)
    | none =>
      let children ← walk t ctx scope children
      return [.element head children]
  | .text content => splice t scope content
  | node => .ok [node]

/-- What some nodes come to, in order. -/
def walk (t : Template) (ctx : Context) (scope : Scope) : List Node → Except Error (List Node)
  | [] => .ok []
  | node :: nodes => do
    let front ← walkNode t ctx scope node
    let rest ← walk t ctx scope nodes
    return front ++ rest

/-- What the branches come to that the key selects. A text supplies those in the markup that its markers
    stand for, as they are. -/
def walkBranches (t : Template) (ctx : Context) (scope : Scope) (key : String) :
    List Node → Except Error (List (List Node))
  | [] => .ok []
  | .element head children :: nodes =>
    if head.name = key then do
      let front ← walk t ctx scope children
      let rest ← walkBranches t ctx scope key nodes
      return front :: rest
    else walkBranches t ctx scope key nodes
  | .text content :: nodes => do
    let front ← splice t scope content
    let rest ← walkBranches t ctx scope key nodes
    return front.filterMap (branch? key) ++ rest
  | _ :: nodes => walkBranches t ctx scope key nodes

end

/-- What the element that holds a body comes to. -/
def walkElement (t : Template) (ctx : Context) (scope : Scope) (e : Element) : Except Error Element := do
  let head ← substituteHead t scope e.head
  let children ← walk t ctx scope e.children
  return ⟨head, children⟩

/-- A walk over the nodes in the first scope comes to this loop in the second one. -/
inductive Reaches (t : Template) (ctx : Context) : Scope → List Node → Scope → Element → Prop
  | here {scope : Scope} {head head' : Head} {children nodes : List Node} (mem : .element head children ∈ nodes)
      (tag : Action.ofTag? head.name = some .forEach) (hh : substituteHead t scope head = .ok head') :
      Reaches t ctx scope nodes scope ⟨head', children⟩
  | inside {scope inner : Scope} {head : Head} {children nodes : List Node} {e : Element}
      (mem : .element head children ∈ nodes) (tag : Action.ofTag? head.name = none)
      (h : Reaches t ctx scope children inner e) : Reaches t ctx scope nodes inner e
  | branch {scope inner : Scope} {head head' label : Head} {children body nodes : List Node} {e : Element}
      (mem : .element head children ∈ nodes) (tag : Action.ofTag? head.name = some .choose)
      (hh : substituteHead t scope head = .ok head') (hk : choiceKey ctx ⟨head', children⟩ = .ok label.name)
      (hb : .element label body ∈ children) (h : Reaches t ctx scope body inner e) :
      Reaches t ctx scope nodes inner e
  | iteration {scope inner : Scope} {head head' : Head} {children nodes : List Node} {e : Element}
      {items : List Value} {item : String} {k : Nat} {value : Value} (mem : .element head children ∈ nodes)
      (tag : Action.ofTag? head.name = some .forEach) (hh : substituteHead t scope head = .ok head')
      (hr : RunsOver t scope ⟨head', children⟩ items item) (hv : items[k]? = some value)
      (h : Reaches t ctx (iterationScope scope (loopIndex ⟨head', children⟩) item (1 + k) value) children inner e) :
      Reaches t ctx scope nodes inner e

/-- No loop that a walk over the nodes comes to binds a name that is bound around it. -/
def Unshadowed (t : Template) (ctx : Context) (scope : Scope) (nodes : List Node) : Prop :=
  ∀ inner e items item, Reaches t ctx scope nodes inner e → RunsOver t inner e items item → items ≠ [] →
    inner.get? (loopIndex e) = none ∧ inner.get? item = none

variable {t : Template} {ctx : Context} {scope : Scope}

theorem Reaches.of_subset {nodes nodes' : List Node} (hsub : nodes ⊆ nodes') {inner : Scope} {e : Element}
    (h : Reaches t ctx scope nodes inner e) : Reaches t ctx scope nodes' inner e := by
  cases h with
  | here mem tag hh => exact .here (hsub mem) tag hh
  | inside mem tag h => exact .inside (hsub mem) tag h
  | branch mem tag hh hk hb h => exact .branch (hsub mem) tag hh hk hb h
  | iteration mem tag hh hr hv h => exact .iteration (hsub mem) tag hh hr hv h

theorem Unshadowed.of_subset {nodes nodes' : List Node} (h : Unshadowed t ctx scope nodes') (hsub : nodes ⊆ nodes') :
    Unshadowed t ctx scope nodes :=
  fun inner e items item hr => h inner e items item (hr.of_subset hsub)

theorem extends_iterationScope {index item : String} {number : Nat} {value : Value}
    (hindex : scope.get? index = none) (hitem : scope.get? item = none) :
    scope.Extends (iterationScope scope index item number value) := by
  intro name found h
  rw [get?_iterationScope, if_neg, if_neg]
  · exact h
  · rintro rfl
    rw [hindex] at h
    cases h
  · rintro rfl
    rw [hitem] at h
    cases h

namespace Unshadowed

variable {head head' : Head} {children : List Node}

theorem inside (h : Unshadowed t ctx scope [.element head children]) (ha : Action.ofTag? head.name = none) :
    Unshadowed t ctx scope children :=
  fun inner e items item hr => h inner e items item (.inside List.mem_cons_self ha hr)

theorem branch (h : Unshadowed t ctx scope [.element head children]) (ha : Action.ofTag? head.name = some .choose)
    (hh : substituteHead t scope head = .ok head') {key : String} (hk : choiceKey ctx ⟨head', children⟩ = .ok key)
    {label : Head} {body : List Node} (hb : .element label body ∈ children) (hl : label.name = key) :
    Unshadowed t ctx scope body :=
  fun inner e items item hr => h inner e items item (.branch List.mem_cons_self ha hh (hl ▸ hk) hb hr)

section
variable {items : List Value} {item : String} {k : Nat} {value : Value}

theorem iteration (h : Unshadowed t ctx scope [.element head children]) (ha : Action.ofTag? head.name = some .forEach)
    (hh : substituteHead t scope head = .ok head') (hr : RunsOver t scope ⟨head', children⟩ items item)
    (hv : items[k]? = some value) :
    Unshadowed t ctx (iterationScope scope (loopIndex ⟨head', children⟩) item (1 + k) value) children :=
  fun inner e items item hreach => h inner e items item (.iteration List.mem_cons_self ha hh hr hv hreach)

/-- A loop that comes to an iteration binds new names in it. -/
theorem extends_iterationScope (h : Unshadowed t ctx scope [.element head children])
    (ha : Action.ofTag? head.name = some .forEach) (hh : substituteHead t scope head = .ok head')
    (hr : RunsOver t scope ⟨head', children⟩ items item) (hv : items[k]? = some value) :
    scope.Extends (iterationScope scope (loopIndex ⟨head', children⟩) item (1 + k) value) := by
  have hitems : items ≠ [] := by
    rintro rfl
    cases hv
  obtain ⟨hindex, hitem⟩ := h scope _ items item (.here List.mem_cons_self ha hh) hr hitems
  exact Expansion.extends_iterationScope hindex hitem

end

end Unshadowed

theorem unshadowed_text (content : String) : Unshadowed t ctx scope [.text content] := by
  intro inner e items item hr
  cases hr with
  | here mem | inside mem | branch mem | iteration mem => cases List.mem_singleton.mp mem

/-- A loop that binds new names around a body in which no loop binds a bound name. -/
theorem unshadowed_loop {head head' : Head} {children : List Node} (ha : Action.ofTag? head.name = some .forEach)
    (hh : substituteHead t scope head = .ok head')
    (hnew : ∀ items item, RunsOver t scope ⟨head', children⟩ items item →
      scope.get? (loopIndex ⟨head', children⟩) = none ∧ scope.get? item = none ∧
      ∀ k value, Unshadowed t ctx (iterationScope scope (loopIndex ⟨head', children⟩) item (1 + k) value) children) :
    Unshadowed t ctx scope [.element head children] := by
  intro inner e items item hr hover hne
  -- A loop that is reached is this one, or one that an iteration of it reaches from its own scope.
  cases hr with
  | here mem tag hh' =>
    cases List.mem_singleton.mp mem
    rw [hh] at hh'
    cases hh'
    obtain ⟨hindex, hitem, -⟩ := hnew items item hover
    exact ⟨hindex, hitem⟩
  | inside mem tag | branch mem tag =>
    cases List.mem_singleton.mp mem
    rw [ha] at tag
    cases tag
  | @iteration _ _ _ _ _ _ _ items' item' k value mem tag hh' hr hv h =>
    cases List.mem_singleton.mp mem
    rw [hh] at hh'
    cases hh'
    obtain ⟨-, -, hinner⟩ := hnew items' item' hr
    exact hinner k value inner e items item h hover hne

/-! ### Steps of the walk -/

theorem walk_cons_eq_ok {node : Node} {nodes out : List Node} :
    walk t ctx scope (node :: nodes) = .ok out ↔
      ∃ front rest, walkNode t ctx scope node = .ok front ∧ walk t ctx scope nodes = .ok rest ∧
        out = front ++ rest := by
  rw [walk]
  exact bind_both_eq_ok

theorem walkNode_plain {head head' : Head} {children out : List Node} (ha : Action.ofTag? head.name = none)
    (hh : substituteHead t scope head = .ok head') (h : walk t ctx scope children = .ok out) :
    walkNode t ctx scope (.element head children) = .ok [.element head' out] := by
  have ha' : Action.ofTag? head'.name = none := by rwa [name_of_substituteHead hh]
  simp [walkNode, hh, ha', h, bind, Except.bind, pure, Except.pure]

theorem walkNode_loop {head head' : Head} {children : List Node} (ha : Action.ofTag? head.name = some .forEach)
    (hh : substituteHead t scope head = .ok head') :
    walkNode t ctx scope (.element head children) =
      runLoop t (fun inner _ => walk t ctx inner children) scope ⟨head', children⟩ := by
  have ha' : Action.ofTag? head'.name = some .forEach := by rwa [name_of_substituteHead hh]
  simp [walkNode, hh, ha', bind, Except.bind]

theorem walkNode_choice {head head' : Head} {key : String} {children : List Node} {outs : List (List Node)}
    (ha : Action.ofTag? head.name = some .choose) (hh : substituteHead t scope head = .ok head')
    (hk : choiceKey ctx ⟨head', children⟩ = .ok key) (hb : walkBranches t ctx scope key children = .ok outs)
    (hl : outs.length ≤ 1) : walkNode t ctx scope (.element head children) = .ok outs.flatten := by
  have ha' : Action.ofTag? head'.name = some .choose := by rwa [name_of_substituteHead hh]
  match outs, hl with
  | [], _ => simp [walkNode, hh, ha', hk, hb, bind, Except.bind, pure, Except.pure]
  | [nodes], _ => simp [walkNode, hh, ha', hk, hb, bind, Except.bind, pure, Except.pure]

theorem walkBranches_selected {label : Head} {key : String} {body nodes front : List Node} {rest : List (List Node)}
    (hn : label.name = key) (hf : walk t ctx scope body = .ok front)
    (hr : walkBranches t ctx scope key nodes = .ok rest) :
    walkBranches t ctx scope key (.element label body :: nodes) = .ok (front :: rest) := by
  simp [walkBranches, hn, hf, hr, bind, Except.bind, pure, Except.pure]

theorem walkBranches_other {label : Head} {key : String} {body nodes : List Node} (hn : label.name ≠ key) :
    walkBranches t ctx scope key (.element label body :: nodes) = walkBranches t ctx scope key nodes := by
  simp [walkBranches, hn]

theorem walkBranches_text {content key : String} {nodes front : List Node} {rest : List (List Node)}
    (hf : splice t scope content = .ok front) (hr : walkBranches t ctx scope key nodes = .ok rest) :
    walkBranches t ctx scope key (.text content :: nodes) = .ok (front.filterMap (branch? key) ++ rest) := by
  simp [walkBranches, hf, hr, bind, Except.bind, pure, Except.pure]

/-! ### Spliced texts -/

theorem plain_of_splice (hs : scope.Plain) {text : String} {nodes : List Node} (h : splice t scope text = .ok nodes) :
    ∀ node ∈ nodes, (∃ content, node = .text content) ∨ node.Plain := by
  unfold splice at h
  split at h
  · cases h
    exact fun node hn => Or.inl ⟨text, List.mem_singleton.mp hn⟩
  · intro node hn
    refine (mem_of_spliceSegments h hn).imp_right ?_
    rintro ⟨formula, fragment, hf, hmem⟩
    exact plain_of_fragment? hs hf node hmem

section
variable {run : Scope → List Node → Except Error (List Node)}

theorem runActions_splice (hs : scope.Plain) {text : String} {nodes : List Node}
    (h : splice t scope text = .ok nodes) : runActions t ctx run scope nodes = .ok nodes := by
  refine runActions_of_forall fun node hn => ?_
  rcases plain_of_splice hs h node hn with ⟨content, rfl⟩ | hp
  · rfl
  · exact runNode_of_plain hp

/-- A branch among the nodes that a text comes to stays as it is. -/
theorem runActions_branch_of_splice (hs : scope.Plain) {text key : String} {nodes : List Node}
    (h : splice t scope text = .ok nodes) :
    ∀ body ∈ nodes.filterMap (branch? key), runActions t ctx run scope body = .ok body := by
  intro body hb
  obtain ⟨node, hn, hbody⟩ := List.mem_filterMap.mp hb
  rcases plain_of_splice hs h node hn with ⟨content, rfl⟩ | hp
  · cases hbody
  · cases hp with
    | element tag attributes inside =>
      simp only [branch?, Option.ite_none_right_eq_some, Option.some.injEq] at hbody
      obtain ⟨-, rfl⟩ := hbody
      exact runActions_plain inside
    | _ => cases hbody

end

theorem mapM_of_forall {ε α : Type} {f : α → Except ε α} {xs out : List α} (hf : ∀ x ∈ xs, f x = .ok x)
    (h : xs.mapM f = .ok out) : out = xs := by
  induction xs generalizing out with
  | nil =>
    cases h
    rfl
  | cons x xs ih =>
    obtain ⟨y, ys, hy, hys, rfl⟩ := mapM_cons_eq_ok.mp h
    rw [hf x List.mem_cons_self] at hy
    cases hy
    rw [ih (fun z hz => hf z (List.mem_cons_of_mem _ hz)) hys]

/-! ### Expansion and walk -/

/-- A loop whose body a walk expands alike in the scope of every iteration. An iteration replaces the markers of the
    body after the pass around the loop has; it finds what replacing them once finds, since its scope extends the
    one of that pass. -/
theorem walkLoop_of_run (ht : t.Loaded) (hs : scope.Plain) {head head₁ : Head} {children children₁ out : List Node}
    {limit : Nat} (hv : ∀ text ∈ Template.textsIn children, Segment.Tidy text)
    (hu : Unshadowed t ctx scope [.element head children]) (ha : Action.ofTag? head.name = some .forEach)
    (hh : substituteHead t scope head = .ok head₁) (hc : substitute t scope children = .ok children₁)
    (hbody : ∀ inner limit middle out, inner.Plain → Unshadowed t ctx inner children →
      substitute t inner children = .ok middle → runActions t ctx (expand t ctx limit) inner middle = .ok out →
      walk t ctx inner children = .ok out)
    (h : runLoop t (expand t ctx limit) scope ⟨head₁, children₁⟩ = .ok out) :
    runLoop t (fun inner _ => walk t ctx inner children) scope ⟨head₁, children⟩ = .ok out := by
  refine related_runLoop .following (fun _ => loopList_of_head) (fun _ _ _ _ _ => itemName_of_head)
    (fun items item hover => ?_) out h
  refine related_iterate .following fun k value hk nodes hn => ?_
  have hover' : RunsOver t scope ⟨head₁, children⟩ items item := hover.of_head
  obtain ⟨list, -, hlist, -⟩ := hover
  have hvalue : value.Plain := every_of_items? hs hlist value (List.mem_of_getElem? hk)
  cases limit with
  | zero => cases hn
  | succ limit =>
    obtain ⟨again, hagain, hnodes⟩ := bind_eq_ok.mp hn
    exact hbody _ limit _ _ (plain_iterationScope hs hvalue) (hu.iteration ha hh hover' hk)
      (substitute_absorb ht hs (hu.extends_iterationScope ha hh hover' hk) hv hc hagain) hnodes

mutual

theorem walkNode_of_run (ht : t.Loaded) : ∀ {node : Node} {scope : Scope} {limit : Nat} {middle out : List Node},
    scope.Plain → (∀ text ∈ Template.textsOf node, Segment.Tidy text) → Unshadowed t ctx scope [node] →
    substituteNode t scope node = .ok middle → runActions t ctx (expand t ctx limit) scope middle = .ok out →
    walkNode t ctx scope node = .ok out
  | .element head children, scope, limit, middle, out, hs, hv, hu, h, hr => by
    rw [Template.textsOf, List.forall_mem_append] at hv
    obtain ⟨head₁, children₁, hh, hc, rfl⟩ := substituteNode_element_eq_ok.mp h
    obtain ⟨front, rest, hrun, hnil, rfl⟩ := runActions_cons_eq_ok.mp hr
    cases hnil
    rw [List.append_nil]
    -- A pass keeps the name of an element, so the action that is run is the one that is walked.
    have hname := name_of_substituteHead hh
    cases ha : Action.ofTag? head.name with
    | none =>
      obtain ⟨out, hout, rfl⟩ := (runNode_plain_eq_ok (by rwa [hname])).mp hrun
      exact walkNode_plain ha hh (walk_of_run ht hs hv.2 (hu.inside ha) hc hout)
    | some action =>
      cases action with
      | forEach =>
        rw [runNode_loop (by rwa [hname])] at hrun
        rw [walkNode_loop ha hh]
        exact walkLoop_of_run ht hs hv.2 hu ha hh hc
          (fun inner limit middle out hs hu h hr => walk_of_run ht hs hv.2 hu h hr) hrun
      | choose =>
        obtain ⟨key, hkey, hbranch⟩ := runNode_choice_eq_ok (by rwa [hname]) hrun
        have hkey' : choiceKey ctx ⟨head₁, children⟩ = .ok key := choiceKey_of_head hkey
        have hwalk : ∀ outs, (children₁.filterMap (branch? key)).mapM (runActions t ctx (expand t ctx limit) scope) = .ok outs →
            walkBranches t ctx scope key children = .ok outs := fun outs =>
          walkBranches_of_run ht hs hv.2 (fun label body => hu.branch ha hh hkey') hc
        rcases hbranch with ⟨hsel, rfl⟩ | ⟨body, hsel, hbody⟩
        · have hb := hwalk [] (by rw [hsel]; rfl)
          exact walkNode_choice ha hh hkey' hb (Nat.zero_le 1)
        · have hb := hwalk [front] (by rw [hsel]; exact mapM_cons_eq_ok.mpr ⟨front, [], hbody, rfl, rfl⟩)
          have := walkNode_choice ha hh hkey' hb (Nat.le_refl 1)
          simpa using this
  | .text content, scope, limit, middle, out, hs, hv, hu, h, hr => by
    -- Plain markup that is spliced in has no action and no marker, so running the actions leaves it as it is.
    rw [runActions_splice hs h] at hr
    cases hr
    exact h
  | .cdata _, _, _, _, _, _, _, _, h, hr | .comment _, _, _, _, _, _, _, _, h, hr
  | .instruction .., _, _, _, _, _, _, _, h, hr => by
    cases h
    exact hr

/-- Where replacing the markers and then running the actions succeeds, a walk gives the same. -/
theorem walk_of_run (ht : t.Loaded) : ∀ {nodes : List Node} {scope : Scope} {limit : Nat} {middle out : List Node},
    scope.Plain → (∀ text ∈ Template.textsIn nodes, Segment.Tidy text) → Unshadowed t ctx scope nodes →
    substitute t scope nodes = .ok middle → runActions t ctx (expand t ctx limit) scope middle = .ok out →
    walk t ctx scope nodes = .ok out
  | [], scope, limit, middle, out, hs, hv, hu, h, hr => by cases h; exact hr
  | node :: nodes, scope, limit, middle, out, hs, hv, hu, h, hr => by
    rw [Template.textsIn, List.forall_mem_append] at hv
    obtain ⟨front₁, rest₁, hf₁, hr₁, rfl⟩ := substitute_cons_eq_ok.mp h
    obtain ⟨front₂, rest₂, hf₂, hr₂, rfl⟩ := runActions_append_eq_ok.mp hr
    have hnode : Unshadowed t ctx scope [node] := hu.of_subset (by simp)
    have hnodes : Unshadowed t ctx scope nodes := hu.of_subset (List.subset_cons_self node nodes)
    exact walk_cons_eq_ok.mpr ⟨front₂, rest₂, walkNode_of_run ht hs hv.1 hnode hf₁ hf₂,
      walk_of_run ht hs hv.2 hnodes hr₁ hr₂, rfl⟩

theorem walkBranches_of_run (ht : t.Loaded) : ∀ {nodes : List Node} {scope : Scope} {limit : Nat} {key : String}
    {middle : List Node} {outs : List (List Node)}, scope.Plain →
    (∀ text ∈ Template.textsIn nodes, Segment.Tidy text) →
    (∀ label body, .element label body ∈ nodes → label.name = key → Unshadowed t ctx scope body) →
    substitute t scope nodes = .ok middle →
    (middle.filterMap (branch? key)).mapM (runActions t ctx (expand t ctx limit) scope) = .ok outs →
    walkBranches t ctx scope key nodes = .ok outs
  | [], scope, limit, key, middle, outs, hs, hv, hu, h, ho => by
    cases h
    exact ho
  | .element label body :: nodes, scope, limit, key, middle, outs, hs, hv, hu, h, ho => by
    rw [Template.textsIn, Template.textsOf, List.forall_mem_append, List.forall_mem_append] at hv
    obtain ⟨front, rest, hf, hr, rfl⟩ := substitute_cons_eq_ok.mp h
    obtain ⟨label₁, body₁, hl, hb, rfl⟩ := substituteNode_element_eq_ok.mp hf
    have hu' := fun label body hm => hu label body (List.mem_cons_of_mem _ hm)
    by_cases hn : label.name = key
    · have hn₁ : label₁.name = key := by rw [name_of_substituteHead hl, hn]
      rw [List.singleton_append, List.filterMap_cons_some (branch?_of_eq hn₁)] at ho
      obtain ⟨out, outs', hbody, hrest, rfl⟩ := mapM_cons_eq_ok.mp ho
      exact walkBranches_selected hn (walk_of_run ht hs hv.1.2 (hu label body List.mem_cons_self hn) hb hbody)
        (walkBranches_of_run ht hs hv.2 hu' hr hrest)
    · have hn₁ : label₁.name ≠ key := by rwa [name_of_substituteHead hl]
      rw [List.singleton_append, List.filterMap_cons_none (branch?_of_ne hn₁)] at ho
      rw [walkBranches_other hn]
      exact walkBranches_of_run ht hs hv.2 hu' hr ho
  | .text content :: nodes, scope, limit, key, middle, outs, hs, hv, hu, h, ho => by
    rw [Template.textsIn, List.forall_mem_append] at hv
    obtain ⟨front, rest, hf, hr, rfl⟩ := substitute_cons_eq_ok.mp h
    have hu' := fun label body hm => hu label body (List.mem_cons_of_mem _ hm)
    simp only [List.filterMap_append, List.mapM_append, bind_eq_ok, pure, Except.pure, Except.ok.injEq] at ho
    obtain ⟨outs₁, h₁, outs₂, h₂, rfl⟩ := ho
    -- A branch that comes from markup in the text is plain, so running its actions leaves it as it is.
    rw [mapM_of_forall (runActions_branch_of_splice hs hf) h₁]
    exact walkBranches_text hf (walkBranches_of_run ht hs hv.2 hu' hr h₂)
  | .cdata _ :: nodes, scope, limit, key, middle, outs, hs, hv, hu, h, ho
  | .comment _ :: nodes, scope, limit, key, middle, outs, hs, hv, hu, h, ho
  | .instruction .. :: nodes, scope, limit, key, middle, outs, hs, hv, hu, h, ho => by
    rw [Template.textsIn, List.forall_mem_append] at hv
    obtain ⟨front, rest, hf, hr, rfl⟩ := substitute_cons_eq_ok.mp h
    cases hf
    show walkBranches t ctx scope key nodes = .ok outs
    exact walkBranches_of_run ht hs hv.2 (fun label body hm => hu label body (List.mem_cons_of_mem _ hm)) hr ho

end

/-- Where an expansion succeeds, a walk over the body as it is written gives the same. -/
theorem walkElement_of_expandElement {t : Template} {ctx : Context} {scope : Scope} {limit : Nat} {out : Element}
    (ht : t.Loaded) (hs : scope.Plain) (hv : ∀ text ∈ Template.textsOfElement t.content, Segment.Tidy text)
    (hu : Unshadowed t ctx scope t.content.children)
    (h : expandElement t ctx limit scope t.content = .ok out) :
    walkElement t ctx scope t.content = .ok out := by
  rw [Template.textsOfElement, List.forall_mem_append] at hv
  obtain ⟨head, hh, h⟩ := bind_eq_ok.mp h
  obtain ⟨children, hc, h⟩ := bind_eq_ok.mp h
  refine bind_eq_ok.mpr ⟨head, hh, bind_eq_ok.mpr ⟨children, ?_, h⟩⟩
  cases limit with
  | zero => cases hc
  | succ limit =>
    obtain ⟨middle, hm, hr⟩ := bind_eq_ok.mp hc
    exact walk_of_run ht hs hv.2 hu hm hr

/-- A body that runs through rows and, in each row, through cells. -/
def gridBody : Element :=
  ⟨{ name := "content" },
    [.element { name := "ForEach", attributes := [("list", "rows"), ("html-class", "row")] }
      [.element { name := "ForEach", attributes := [("list", "row"), ("i", "n")] }
        [.text "{{__iter}}.{{n}}={{cell}} "]]]⟩

/-- A template with this body. -/
def grid : Template where
  name := "grid"
  params := [.list "rows" true (.list "row" true (.text "cell" true .generic))]
  content := gridBody
  formulas := [("__iter", .var ["__iter"]), ("n", .var ["n"]), ("cell", .var ["cell"])]

/-- Two rows. -/
def gridScope : Scope :=
  Scope.ofParams [("rows", .list [.list [.text "a", .text "b"], .list [.text "c"]])]

theorem grid_loaded : grid.Loaded :=
  ⟨"grid.xml",
    ⟨{ name := "template", attributes := [("name", "grid")] },
      [.element { name := "param", attributes := [("name", "rows"), ("type", "list")] }
        [.element { name := "param", attributes := [("name", "row"), ("type", "list")] }
          [.element { name := "param", attributes := [("name", "cell"), ("type", "text")] } []]],
      gridBody.toNode]⟩,
    eq_ok_of_toOption (by decide +kernel)⟩

theorem gridScope_plain : gridScope.Plain := by
  have hcells : ∀ value ∈ [Value.list [.text "a", .text "b"], .list [.text "c"]], value.Plain := by
    simp only [List.forall_mem_cons, List.not_mem_nil, false_implies, implies_true, and_true]
    refine ⟨.list ?_, .list ?_⟩
    · simpa using ⟨Value.Every.text (by decide), Value.Every.text (by decide)⟩
    · simpa using Value.Every.text (by decide)
  intro name value h
  by_cases hn : name = "rows"
  · subst hn
    cases h
    exact .list hcells
  · have : (name == "rows") = false := beq_eq_false_iff_ne.mpr hn
    simp [gridScope, Scope.ofParams, Scope.get?, Scope.layers, List.lookup_cons, this] at h

theorem grid_unshadowed (ctx : Context) : Unshadowed grid ctx gridScope gridBody.children := by
  refine unshadowed_loop rfl (substituteHead_unbraced (by decide)) fun items item hover => ?_
  obtain ⟨list, hl, -, hi⟩ := hover
  cases hl
  cases hi
  refine ⟨rfl, rfl, fun k value => ?_⟩
  refine unshadowed_loop rfl (substituteHead_unbraced (by decide)) fun items item hover => ?_
  obtain ⟨list, hl, -, hi⟩ := hover
  cases hl
  cases hi
  simp only [get?_iterationScope]
  exact ⟨rfl, rfl, fun _ _ => unshadowed_text _⟩

theorem walkElement_grid :
    walkElement grid { probe := ⟨fun _ => false, fun _ => false⟩ } gridScope grid.content =
      .ok ⟨{ name := "content" }, [.element { name := "div", attributes := [("class", "row")] }
        [.text "1.1=a ", .text "1.2=b ", .text "2.1=c "]]⟩ :=
  @walkElement_of_expandElement grid _ gridScope 3 _ grid_loaded gridScope_plain (by decide +kernel) (grid_unshadowed _)
    (eq_ok_of_toOption (by decide +kernel))

end Expansion
end Letterpress
