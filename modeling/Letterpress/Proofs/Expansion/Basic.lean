import Letterpress.Expansion
import Letterpress.Proofs.Marker.Split
import Letterpress.Proofs.Result
import Letterpress.Proofs.Scope

/-! What a successful step of an expansion consists of: one lemma for each function that replaces markers
    or runs actions. Both take the nodes of a list one after the other, so that a list falls apart at any
    place. -/

namespace Letterpress

/-- The surroundings of a site without files. -/
def emptySite : Context :=
  { probe := ⟨fun _ => false, fun _ => false⟩ }

namespace Expansion
open Markup (Node Element Head)

variable {t : Template} {ctx : Context} {scope : Scope}

/-! ### One node after the other -/

/-- The nodes of a list are taken one after the other. -/
def Distributes (f : List Node → Except Error (List Node)) : Prop :=
  ∀ a b, f (a ++ b) = f a >>= fun front => f b >>= fun rest => pure (front ++ rest)

theorem Distributes.of_cons {f : List Node → Except Error (List Node)} {g : Node → Except Error (List Node)}
    (hnil : f [] = pure [])
    (hcons : ∀ node nodes, f (node :: nodes) = g node >>= fun front => f nodes >>= fun rest => pure (front ++ rest)) :
    Distributes f := by
  intro a b
  induction a with
  | nil => simp only [hnil, List.nil_append, pure_bind, bind_pure]
  | cons node a ih => simp only [List.cons_append, hcons, ih, bind_assoc, pure_bind, List.append_assoc]

theorem Distributes.append_eq_ok {f : List Node → Except Error (List Node)} (hf : Distributes f) {a b out : List Node} :
    f (a ++ b) = .ok out ↔ ∃ front rest, f a = .ok front ∧ f b = .ok rest ∧ out = front ++ rest := by
  rw [hf]
  exact bind_both_eq_ok

/-- What holds of all that is made of each node holds of all that is made of the list. -/
theorem Distributes.forall_mem {f : List Node → Except Error (List Node)} (hf : Distributes f) {G : Node → Prop}
    {nodes out : List Node} (h : f nodes = .ok out)
    (hg : ∀ node ∈ nodes, ∀ part, f [node] = .ok part → ∀ n ∈ part, G n) : ∀ n ∈ out, G n := by
  induction nodes generalizing out with
  | nil =>
    -- The empty list is put together of itself twice.
    obtain ⟨front, rest, hfront, hrest, hout⟩ := hf.append_eq_ok.mp (show f ([] ++ []) = .ok out from h)
    cases h.symm.trans hfront
    cases h.symm.trans hrest
    obtain rfl : out = [] := List.self_eq_append_right.mp hout
    exact nofun
  | cons node nodes ih =>
    obtain ⟨front, rest, hfront, hrest, rfl⟩ := hf.append_eq_ok.mp (show f ([node] ++ nodes) = .ok out from h)
    obtain ⟨hnode, hnodes⟩ := List.forall_mem_cons.mp hg
    exact List.forall_mem_append.mpr ⟨hnode front hfront, ih hrest hnodes⟩

theorem bind_append_nil {ε α : Type} (x : Except ε (List α)) : (x >>= fun front => .ok (front ++ [])) = x := by
  cases x with
  | error fault => rfl
  | ok front => exact congrArg Except.ok (List.append_nil front)

/-! ### Markers -/

theorem evaluate_eq_ok {text : String} {formula : Formula} (hf : formula? t text = some formula) {outcome : Outcome} :
    evaluate t scope text = .ok outcome ↔ formula.eval scope = .ok outcome := by
  simp only [evaluate, hf, mapError_eq_ok]

theorem evaluate_eq_resolved {text content : String} :
    evaluate t scope text = .ok (.resolved content) ↔
      ∃ formula, formula? t text = some formula ∧ formula.eval scope = .ok (.resolved content) := by
  cases hf : formula? t text with
  | none => simp [evaluate, hf]
  | some formula => simp [evaluate_eq_ok hf]

theorem fragment?_eq_some {formula : String} {nodes : List Node} :
    fragment? t scope formula = some nodes ↔
      ∃ path e, formula? t formula = some (.var path) ∧ scope.lookup? path = some (.markup e) ∧
        e.children = nodes := by
  unfold fragment?
  constructor
  · intro h
    split at h
    · rename_i path hf
      split at h
      · rename_i e hl
        exact ⟨path, e, hf, hl, Option.some.inj h⟩
      · cases h
    · cases h
  · rintro ⟨path, e, hf, hl, rfl⟩
    simp only [hf, hl]

theorem joinSegments_literal_eq_ok {text out : String} {segments : List Segment} :
    joinSegments t scope (.literal text :: segments) = .ok out ↔
      ∃ rest, joinSegments t scope segments = .ok rest ∧ out = text ++ rest := by
  rw [joinSegments]
  exact bind_pure_eq_ok

theorem joinSegments_marker_eq_ok {raw formula out : String} {segments : List Segment} :
    joinSegments t scope (.marker raw formula :: segments) = .ok out ↔
      ∃ outcome rest, evaluate t scope formula = .ok outcome ∧ joinSegments t scope segments = .ok rest ∧
        out = outcome.textOr raw ++ rest := by
  rw [joinSegments]
  exact bind_both_eq_ok

theorem joinSegments_append_eq_ok {a b : List Segment} {out : String} :
    joinSegments t scope (a ++ b) = .ok out ↔
      ∃ front rest, joinSegments t scope a = .ok front ∧ joinSegments t scope b = .ok rest ∧ out = front ++ rest := by
  induction a generalizing out with
  | nil => simp [joinSegments]
  | cons segment a ih =>
    cases segment with
    | literal text =>
      simp only [List.cons_append, joinSegments_literal_eq_ok, ih]
      constructor
      · rintro ⟨-, ⟨front, rest, ha, hb, rfl⟩, rfl⟩
        exact ⟨_, rest, ⟨front, ha, rfl⟩, hb, (String.append_assoc ..).symm⟩
      · rintro ⟨-, rest, ⟨front, ha, rfl⟩, hb, rfl⟩
        exact ⟨_, ⟨front, rest, ha, hb, rfl⟩, String.append_assoc ..⟩
    | marker raw formula =>
      simp only [List.cons_append, joinSegments_marker_eq_ok, ih]
      constructor
      · rintro ⟨outcome, -, ho, ⟨front, rest, ha, hb, rfl⟩, rfl⟩
        exact ⟨_, rest, ⟨outcome, front, ho, ha, rfl⟩, hb, (String.append_assoc ..).symm⟩
      · rintro ⟨-, rest, ⟨outcome, front, ho, ha, rfl⟩, hb, rfl⟩
        exact ⟨outcome, _, ho, ⟨front, rest, ha, hb, rfl⟩, String.append_assoc ..⟩

theorem spliceSegments_fragment_eq_ok {pending raw formula : String} {segments : List Segment}
    {nodes out : List Node} (hf : fragment? t scope formula = some nodes) :
    spliceSegments t scope pending (.marker raw formula :: segments) = .ok out ↔
      ∃ rest, spliceSegments t scope "" segments = .ok rest ∧ out = textNodes pending ++ nodes ++ rest := by
  simp only [spliceSegments, hf]
  exact bind_pure_eq_ok

theorem spliceSegments_text_eq_ok {pending raw formula : String} {segments : List Segment} {out : List Node}
    (hf : fragment? t scope formula = none) :
    spliceSegments t scope pending (.marker raw formula :: segments) = .ok out ↔
      ∃ outcome, evaluate t scope formula = .ok outcome ∧
        spliceSegments t scope (pending ++ outcome.textOr raw) segments = .ok out := by
  simp only [spliceSegments, hf, bind_eq_ok]

theorem spliceSegments_literal {pending text : String} {segments : List Segment} :
    spliceSegments t scope pending (.literal text :: segments) =
      spliceSegments t scope (pending ++ text) segments := rfl

/-- Pieces whose markers all stay come to what they are written as. -/
theorem joinSegments_of_deferred {segments : List Segment}
    (h : ∀ raw formula, .marker raw formula ∈ segments → evaluate t scope formula = .ok .deferred) :
    joinSegments t scope segments = .ok (Segment.join segments) := by
  induction segments with
  | nil => rfl
  | cons segment segments ih =>
    have hrest := ih fun raw formula hm => h raw formula (List.mem_cons_of_mem _ hm)
    cases segment with
    | literal text => exact joinSegments_literal_eq_ok.mpr ⟨_, hrest, rfl⟩
    | marker raw formula =>
      exact joinSegments_marker_eq_ok.mpr ⟨.deferred, _, h raw formula List.mem_cons_self, hrest, rfl⟩

theorem fragment?_of_deferred {formula : String} (h : evaluate t scope formula = .ok .deferred) :
    fragment? t scope formula = none := by
  cases hf : fragment? t scope formula with
  | none => rfl
  | some nodes =>
    obtain ⟨path, e, hformula, hl, -⟩ := fragment?_eq_some.mp hf
    have hbound := (evaluate_eq_ok hformula).mp h
    simp only [Formula.eval, hl] at hbound
    cases hr : (Value.markup e).render <;> simp [hr] at hbound

/-- Pieces without markup come to one text, and that is what they come to in an attribute value. -/
theorem spliceSegments_of_no_fragment {segments : List Segment}
    (h : ∀ raw formula, .marker raw formula ∈ segments → fragment? t scope formula = none) {value : String}
    (hv : joinSegments t scope segments = .ok value) (pending : String) :
    spliceSegments t scope pending segments = .ok (textNodes (pending ++ value)) := by
  induction segments generalizing pending value with
  | nil =>
    cases hv
    rw [String.append_empty]
    rfl
  | cons segment segments ih =>
    have hrest := fun raw formula hm => h raw formula (List.mem_cons_of_mem segment hm)
    cases segment with
    | literal text =>
      obtain ⟨rest, hr, rfl⟩ := joinSegments_literal_eq_ok.mp hv
      rw [spliceSegments_literal, ih hrest hr, String.append_assoc]
    | marker raw formula =>
      obtain ⟨outcome, rest, ho, hr, rfl⟩ := joinSegments_marker_eq_ok.mp hv
      refine (spliceSegments_text_eq_ok (h raw formula List.mem_cons_self)).mpr ⟨outcome, ho, ?_⟩
      rw [ih hrest hr, String.append_assoc]

theorem spliceSegments_of_deferred {segments : List Segment}
    (h : ∀ raw formula, .marker raw formula ∈ segments → evaluate t scope formula = .ok .deferred) (pending : String) :
    spliceSegments t scope pending segments = .ok (textNodes (pending ++ Segment.join segments)) :=
  spliceSegments_of_no_fragment (fun raw formula hm => fragment?_of_deferred (h raw formula hm))
    (joinSegments_of_deferred h) pending

theorem mem_textNodes {text : String} {node : Node} : node ∈ textNodes text ↔ text ≠ "" ∧ node = .text text := by
  unfold textNodes
  split <;> simp_all

/-- Pieces come to texts and to the nodes of markup that one of them stands for. -/
theorem mem_of_spliceSegments {segments : List Segment} {pending : String} {nodes : List Node}
    (h : spliceSegments t scope pending segments = .ok nodes) {node : Node} (hn : node ∈ nodes) :
    (∃ text, node = .text text) ∨ ∃ formula fragment, fragment? t scope formula = some fragment ∧ node ∈ fragment := by
  induction segments generalizing pending nodes with
  | nil =>
    cases h
    exact Or.inl ⟨pending, (mem_textNodes.mp hn).2⟩
  | cons segment segments ih =>
    cases segment with
    | literal text => exact ih h hn
    | marker raw formula =>
      cases hf : fragment? t scope formula with
      | some fragment =>
        obtain ⟨rest, hr, rfl⟩ := (spliceSegments_fragment_eq_ok hf).mp h
        rcases List.mem_append.mp hn with hn | hn
        · rcases List.mem_append.mp hn with hn | hn
          · exact Or.inl ⟨pending, (mem_textNodes.mp hn).2⟩
          · exact Or.inr ⟨formula, fragment, hf, hn⟩
        · exact ih hr hn
      | none =>
        obtain ⟨outcome, -, hr⟩ := (spliceSegments_text_eq_ok hf).mp h
        exact ih hr hn

/-- A text that is not empty comes to what its pieces come to, even if there is no marker in it. -/
theorem splice_of_ne_empty {text : String} (h : text ≠ "") :
    splice t scope text = spliceSegments t scope "" (Segment.split text) := by
  unfold splice
  split
  · rename_i hm
    have hnone := Segment.not_mem_split_of_no_marker (List.isEmpty_iff.mp hm)
    rw [spliceSegments_of_deferred fun raw formula hmem => absurd hmem (hnone raw formula)]
    simp [Segment.join_split, textNodes, h]
  · rfl

theorem attributeValue_of_no_marker {value : String} (h : Segment.markers value = []) :
    attributeValue t scope value = .ok value := by
  have hnone := Segment.not_mem_split_of_no_marker h
  rw [attributeValue, joinSegments_of_deferred fun raw formula hmem => absurd hmem (hnone raw formula),
    Segment.join_split]

theorem substituteAttributes_cons_eq_ok {name value : String} {attributes out : List (String × String)} :
    substituteAttributes t scope ((name, value) :: attributes) = .ok out ↔
      ∃ value' rest, attributeValue t scope value = .ok value' ∧
        substituteAttributes t scope attributes = .ok rest ∧ out = (name, value') :: rest := by
  rw [substituteAttributes]
  exact bind_both_eq_ok

/-- An attribute without markers stays. -/
theorem lookup_substituteAttributes {attributes out : List (String × String)} {name : String}
    (h : substituteAttributes t scope attributes = .ok out)
    (hn : ∀ value, attributes.lookup name = some value → Segment.markers value = []) :
    out.lookup name = attributes.lookup name := by
  induction attributes generalizing out with
  | nil =>
    cases h
    rfl
  | cons first attributes ih =>
    obtain ⟨key, value⟩ := first
    obtain ⟨value', rest, hv, hr, rfl⟩ := substituteAttributes_cons_eq_ok.mp h
    rw [List.lookup_cons, List.lookup_cons]
    cases hkey : name == key with
    | true =>
      have hvalue := hn value (by rw [List.lookup_cons, hkey])
      rw [attributeValue_of_no_marker hvalue] at hv
      cases hv
      rfl
    | false => exact ih hr fun found hf => hn found (by rw [List.lookup_cons, hkey]; exact hf)

theorem substituteHead_eq_ok {head head' : Head} :
    substituteHead t scope head = .ok head' ↔
      ∃ attributes, substituteAttributes t scope head.attributes = .ok attributes ∧
        head' = { head with attributes } := by
  rw [substituteHead]
  exact bind_pure_eq_ok

theorem name_of_substituteHead {head head' : Head} (h : substituteHead t scope head = .ok head') :
    head'.name = head.name := by
  obtain ⟨attributes, -, rfl⟩ := substituteHead_eq_ok.mp h
  rfl

theorem substituteNode_element_eq_ok {head : Head} {children out : List Node} :
    substituteNode t scope (.element head children) = .ok out ↔
      ∃ head' children', substituteHead t scope head = .ok head' ∧
        substitute t scope children = .ok children' ∧ out = [.element head' children'] := by
  rw [substituteNode]
  exact bind_both_eq_ok

theorem substitute_cons_eq_ok {node : Node} {nodes out : List Node} :
    substitute t scope (node :: nodes) = .ok out ↔
      ∃ front rest, substituteNode t scope node = .ok front ∧ substitute t scope nodes = .ok rest ∧
        out = front ++ rest := by
  rw [substitute]
  exact bind_both_eq_ok

theorem distributes_substitute (scope : Scope) : Distributes (substitute t scope) :=
  .of_cons (by rw [substitute]; rfl) fun _ _ => by rw [substitute]

theorem substitute_append_eq_ok {a b out : List Node} :
    substitute t scope (a ++ b) = .ok out ↔
      ∃ front rest, substitute t scope a = .ok front ∧ substitute t scope b = .ok rest ∧ out = front ++ rest :=
  (distributes_substitute scope).append_eq_ok

theorem substitute_singleton (node : Node) : substitute t scope [node] = substituteNode t scope node :=
  bind_append_nil (substituteNode t scope node)

theorem forall_of_substitute {G : Node → Prop} {nodes out : List Node} (h : substitute t scope nodes = .ok out)
    (hg : ∀ node ∈ nodes, ∀ out, substituteNode t scope node = .ok out → ∀ n ∈ out, G n) : ∀ n ∈ out, G n :=
  (distributes_substitute scope).forall_mem h fun node hn part hp => hg node hn part (substitute_singleton node ▸ hp)

/-! ### Actions -/

section
variable {run : Scope → List Node → Except Error (List Node)}

theorem runActions_cons_eq_ok {node : Node} {nodes out : List Node} :
    runActions t ctx run scope (node :: nodes) = .ok out ↔
      ∃ front rest, runNode t ctx run scope node = .ok front ∧ runActions t ctx run scope nodes = .ok rest ∧
        out = front ++ rest := by
  rw [runActions]
  exact bind_both_eq_ok

theorem distributes_runActions (scope : Scope) : Distributes (runActions t ctx run scope) :=
  .of_cons (by rw [runActions]; rfl) fun _ _ => by rw [runActions]

theorem runActions_append_eq_ok {a b out : List Node} :
    runActions t ctx run scope (a ++ b) = .ok out ↔
      ∃ front rest, runActions t ctx run scope a = .ok front ∧ runActions t ctx run scope b = .ok rest ∧
        out = front ++ rest :=
  (distributes_runActions scope).append_eq_ok

theorem runActions_singleton (node : Node) : runActions t ctx run scope [node] = runNode t ctx run scope node :=
  bind_append_nil (runNode t ctx run scope node)

theorem forall_of_runActions {G : Node → Prop} {nodes out : List Node} (h : runActions t ctx run scope nodes = .ok out)
    (hg : ∀ node ∈ nodes, ∀ out, runNode t ctx run scope node = .ok out → ∀ n ∈ out, G n) : ∀ n ∈ out, G n :=
  (distributes_runActions scope).forall_mem h fun node hn part hp => hg node hn part (runActions_singleton node ▸ hp)

theorem runNode_plain_eq_ok {head : Head} {children out : List Node} (ha : Action.ofTag? head.name = none) :
    runNode t ctx run scope (.element head children) = .ok out ↔
      ∃ children', runActions t ctx run scope children = .ok children' ∧ out = [.element head children'] := by
  simp only [runNode, ha]
  exact bind_pure_eq_ok

theorem runNode_loop {head : Head} {children : List Node} (ha : Action.ofTag? head.name = some .forEach) :
    runNode t ctx run scope (.element head children) = runLoop t run scope ⟨head, children⟩ := by
  simp only [runNode, ha]

theorem runNode_plain {head : Head} {children : List Node} (ha : Action.ofTag? head.name = none) :
    runNode t ctx run scope (.element head children) =
      runActions t ctx run scope children >>= fun children => .ok [.element head children] := by
  simp only [runNode, ha]
  rfl

end

/-! ### Choices -/

/-- The body of a branch that this key selects. -/
def branch? (key : String) : Node → Option (List Node)
  | .element head children => if head.name = key then some children else none
  | _ => none

theorem branch?_of_eq {label : Head} {key : String} {body : List Node} (h : label.name = key) :
    branch? key (.element label body) = some body :=
  if_pos h

theorem branch?_of_ne {label : Head} {key : String} {body : List Node} (h : label.name ≠ key) :
    branch? key (.element label body) = none :=
  if_neg h

theorem isNamed_eq (key : String) (node : Node) : isNamed key node = (branch? key node).isSome := by
  cases node with
  | element label body =>
    by_cases h : label.name = key
    · rw [branch?_of_eq h]
      exact beq_iff_eq.mpr h
    · rw [branch?_of_ne h]
      exact beq_eq_false_iff_ne.mpr h
  | _ => rfl

theorem length_filter_isNamed (key : String) (nodes : List Node) :
    (nodes.filter (isNamed key)).length = (nodes.filterMap (branch? key)).length := by
  induction nodes with
  | nil => rfl
  | cons node nodes ih =>
    cases hb : branch? key node with
    | none => rw [List.filter_cons_of_neg (by simp [isNamed_eq, hb]), List.filterMap_cons_none hb, ih]
    | some body =>
      rw [List.filter_cons_of_pos (by simp [isNamed_eq, hb]), List.filterMap_cons_some hb, List.length_cons,
        List.length_cons, ih]

/-- The first branch with the key is run, and nothing without one. -/
theorem runBranch_eq {run : Scope → List Node → Except Error (List Node)} {key : String} {nodes : List Node} :
    runBranch t ctx run scope key nodes =
      (nodes.filterMap (branch? key)).head?.elim (.ok []) (runActions t ctx run scope) := by
  induction nodes with
  | nil => rfl
  | cons node nodes ih =>
    cases node with
    | element label children =>
      by_cases hn : label.name = key
      · rw [runBranch, if_pos hn, List.filterMap_cons_some (branch?_of_eq hn)]
        rfl
      · rw [runBranch, if_neg hn, List.filterMap_cons_none (branch?_of_ne hn), ih]
    | _ =>
      simp only [runBranch]
      exact ih

section
variable {run : Scope → List Node → Except Error (List Node)}

theorem runNode_choice {head : Head} {children : List Node} (ha : Action.ofTag? head.name = some .choose) :
    runNode t ctx run scope (.element head children) = choiceKey ctx ⟨head, children⟩ >>= fun key =>
      if 1 < (children.filterMap (branch? key)).length then
        .error (.action .choose (.ambiguous key) (Element.mk head children).outer)
      else runBranch t ctx run scope key children := by
  simp only [runNode, ha, ← length_filter_isNamed]
  congr

theorem runNode_choice_of_key {head : Head} {children : List Node} {key : String}
    (ha : Action.ofTag? head.name = some .choose) (hk : choiceKey ctx ⟨head, children⟩ = .ok key)
    (hn : (children.filterMap (branch? key)).length ≤ 1) :
    runNode t ctx run scope (.element head children) = runBranch t ctx run scope key children := by
  rw [runNode_choice ha, hk]
  exact if_neg (Nat.not_lt.mpr hn)

/-- A choice comes to what its only branch comes to, and to nothing without one. -/
theorem runNode_choice_eq_ok {head : Head} {children out : List Node} (ha : Action.ofTag? head.name = some .choose)
    (h : runNode t ctx run scope (.element head children) = .ok out) :
    ∃ key, choiceKey ctx ⟨head, children⟩ = .ok key ∧
      (children.filterMap (branch? key) = [] ∧ out = [] ∨
        ∃ body, children.filterMap (branch? key) = [body] ∧ runActions t ctx run scope body = .ok out) := by
  rw [runNode_choice ha] at h
  obtain ⟨key, hk, h⟩ := bind_eq_ok.mp h
  refine ⟨key, hk, ?_⟩
  split at h
  · cases h
  · rename_i hn
    cases hsel : children.filterMap (branch? key) with
    | nil =>
      rw [runBranch_eq, hsel] at h
      cases h
      exact Or.inl ⟨rfl, rfl⟩
    | cons body rest =>
      rw [runBranch_eq, hsel] at h
      rw [hsel] at hn
      obtain rfl : rest = [] := List.length_eq_zero_iff.mp (by simpa using hn)
      exact Or.inr ⟨body, rfl, h⟩

end

theorem choiceKey_of_head {head : Head} {children children' : List Node} {key : String}
    (h : choiceKey ctx ⟨head, children⟩ = .ok key) : choiceKey ctx ⟨head, children'⟩ = .ok key := by
  have hattr : ∀ name, Element.attribute? ⟨head, children'⟩ name = Element.attribute? ⟨head, children⟩ name :=
    fun _ => rfl
  unfold choiceKey at h ⊢
  rw [hattr "f", hattr "x", hattr "value"]
  split at h
  · split at h
    · exact h
    · cases h
  · split at h
    · exact h
    · cases h

/-! ### Loops -/

theorem get?_iterationScope (scope : Scope) (index item : String) (number : Nat) (value : Value) (name : String) :
    (iterationScope scope index item number value).get? name =
      if name = item then some value
      else if name = index then some (.text (toString number)) else scope.get? name := by
  simp only [iterationScope, Scope.get?_bind, Scope.get?_push]

/-- Whatever was bound before an iteration still is, to the same or to something of the iteration. -/
theorem bound_iterationScope {name : String} {found : Value} (h : scope.get? name = some found) (index item : String)
    (number : Nat) (value : Value) : ∃ found, (iterationScope scope index item number value).get? name = some found := by
  rw [get?_iterationScope]
  split
  · exact ⟨_, rfl⟩
  · split
    · exact ⟨_, rfl⟩
    · exact ⟨found, h⟩

theorem every_iterationScope {P : String → Prop} {Q : Element → Prop} (hs : scope.Every P Q) {index item : String}
    {number : Nat} {value : Value} (hn : P (toString number)) (hv : value.Every P Q) :
    (iterationScope scope index item number value).Every P Q := by
  intro name found h
  rw [get?_iterationScope] at h
  split at h
  · cases h
    exact hv
  · split at h
    · cases h
      exact .text hn
    · exact hs name found h

theorem items?_eq_some {scope : Scope} {path : List String} {items : List Value} :
    items? scope path = some items ↔ scope.lookup? path = some (.list items) := by
  unfold items?
  split
  · rename_i found hl
    simp [hl]
  · rename_i hne
    exact ⟨nofun, fun hl => absurd hl (hne items)⟩

theorem every_of_items? {P : String → Prop} {Q : Element → Prop} (hs : scope.Every P Q) {path : List String}
    {items : List Value} (h : items? scope path = some items) : ∀ value ∈ items, value.Every P Q := by
  cases hs.lookup? (items?_eq_some.mp h) with
  | list inside => exact inside

theorem loopList_of_head {head : Head} {children children' : List Node} {list : String}
    (h : loopList ⟨head, children⟩ = .ok list) : loopList ⟨head, children'⟩ = .ok list := by
  have hattr : Element.attribute? ⟨head, children'⟩ "list" = Element.attribute? ⟨head, children⟩ "list" := rfl
  unfold loopList at h ⊢
  rw [hattr]
  split at h
  · exact h
  · cases h

theorem itemName_of_head {head : Head} {children children' : List Node} {list item : String} {path : List String}
    (h : itemName t ⟨head, children⟩ list path = .ok item) : itemName t ⟨head, children'⟩ list path = .ok item := by
  unfold itemName at h ⊢
  split at h
  · exact h
  · cases h
  · cases h

/-- In the scope the loop runs over these items and binds each of them to this name. -/
def RunsOver (t : Template) (scope : Scope) (e : Element) (items : List Value) (item : String) : Prop :=
  ∃ list, loopList e = .ok list ∧ items? scope (Text.split (· == '.') list) = some items ∧
    itemName t e list (Text.split (· == '.') list) = .ok item

/-- In the scope there is no list for the loop to run over. -/
def Idle (scope : Scope) (e : Element) : Prop :=
  ∃ list, loopList e = .ok list ∧ items? scope (Text.split (· == '.') list) = none

/-- What a loop runs over is a matter of its attributes alone. -/
theorem RunsOver.of_head {head : Head} {children children' : List Node} {items : List Value} {item : String}
    (h : RunsOver t scope ⟨head, children⟩ items item) : RunsOver t scope ⟨head, children'⟩ items item := by
  obtain ⟨list, hl, hi, hn⟩ := h
  exact ⟨list, loopList_of_head hl, hi, itemName_of_head hn⟩

theorem RunsOver.not_idle {e e' : Element} {items : List Value} {item : String} (h : RunsOver t scope e items item)
    (he : e'.head = e.head) : ¬ Idle scope e' := by
  obtain ⟨head, children⟩ := e
  obtain ⟨head', children'⟩ := e'
  cases he
  rintro ⟨list', hl', hi'⟩
  obtain ⟨list, hl, hi, -⟩ := h.of_head
  cases hl.symm.trans hl'
  rw [hi] at hi'
  cases hi'

theorem RunsOver.unique {e e' : Element} {items items' : List Value} {item item' : String}
    (h : RunsOver t scope e items item) (h' : RunsOver t scope e' items' item') (he : e'.head = e.head) :
    items' = items ∧ item' = item := by
  obtain ⟨head, children⟩ := e
  obtain ⟨head', children'⟩ := e'
  cases he
  obtain ⟨list', hl', hi', hn'⟩ := h'
  obtain ⟨list, hl, hi, hn⟩ := h.of_head
  cases hl.symm.trans hl'
  cases hi.symm.trans hi'
  cases hn.symm.trans hn'
  exact ⟨rfl, rfl⟩

theorem runLoop_of_runsOver {run : Scope → List Node → Except Error (List Node)} {e : Element} {items : List Value}
    {item : String} (h : RunsOver t scope e items item) :
    runLoop t run scope e =
      iterate (fun inner => run inner e.children) scope (loopIndex e) item 1 items >>= fun nodes => .ok (wrap e nodes) := by
  obtain ⟨list, hl, hi, hn⟩ := h
  simp only [runLoop, hl, hi, hn, bind, Except.bind, pure, Except.pure]

theorem runLoop_eq_ok {run : Scope → List Node → Except Error (List Node)} {e : Element} {out : List Node} :
    runLoop t run scope e = .ok out ↔
      Idle scope e ∧ out = [] ∨
      ∃ items item nodes, RunsOver t scope e items item ∧
        iterate (fun inner => run inner e.children) scope (loopIndex e) item 1 items = .ok nodes ∧
        out = wrap e nodes := by
  simp only [runLoop, bind_eq_ok]
  constructor
  · rintro ⟨list, hl, h⟩
    split at h
    · rename_i hi
      cases h
      exact Or.inl ⟨⟨list, hl, hi⟩, rfl⟩
    · rename_i items hi
      obtain ⟨item, hn, nodes, ht, ho⟩ := by simpa only [bind_eq_ok] using h
      cases ho
      exact Or.inr ⟨items, item, nodes, ⟨list, hl, hi, hn⟩, ht, rfl⟩
  · rintro (⟨⟨list, hl, hi⟩, rfl⟩ | ⟨items, item, nodes, ⟨list, hl, hi, hn⟩, ht, rfl⟩)
    · exact ⟨list, hl, by simp only [hi]; rfl⟩
    · refine ⟨list, hl, ?_⟩
      simp only [hi, bind_eq_ok]
      exact ⟨item, hn, nodes, ht, rfl⟩

theorem iterate_cons_eq_ok {f : Scope → Except Error (List Node)} {index item : String} {number : Nat}
    {value : Value} {values : List Value} {out : List Node} :
    iterate f scope index item number (value :: values) = .ok out ↔
      ∃ front rest, f (iterationScope scope index item number value) = .ok front ∧
        iterate f scope index item (number + 1) values = .ok rest ∧ out = front ++ rest := by
  rw [iterate]
  exact bind_both_eq_ok

/-- What holds of all that an iteration gives, whichever it is, holds of all that the loop gives. -/
theorem forall_of_iterate {G : Node → Prop} {f : Scope → Except Error (List Node)} {index item : String} {number : Nat}
    {values : List Value} {out : List Node} (h : iterate f scope index item number values = .ok out)
    (hf : ∀ number, ∀ value ∈ values, ∀ nodes, f (iterationScope scope index item number value) = .ok nodes →
      ∀ node ∈ nodes, G node) : ∀ node ∈ out, G node := by
  induction values generalizing number out with
  | nil =>
    cases h
    exact nofun
  | cons value values ih =>
    obtain ⟨front, rest, hfront, hrest, rfl⟩ := iterate_cons_eq_ok.mp h
    exact List.forall_mem_append.mpr ⟨hf number value List.mem_cons_self front hfront,
      ih hrest fun number v hv => hf number v (List.mem_cons_of_mem _ hv)⟩

end Expansion
end Letterpress
