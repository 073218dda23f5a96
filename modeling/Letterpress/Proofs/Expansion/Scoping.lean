import Letterpress.Proofs.Expansion.Frame
import Letterpress.Proofs.Expansion.Plain

/-! Which binding a loop variable gets its value from. The scope of an iteration is the innermost one, but
    the markers of its body have been through a pass in every scope around it by then, the outermost first.
    So a marker takes its value from the outermost scope that binds its name: from the loop itself if
    nothing around the loop binds the name, and otherwise not. -/

namespace Letterpress
namespace Expansion
open Markup (Node Element Head)

variable {t : Template} {ctx : Context}

/-! ### Places in a body -/

/-- Some nodes of a body as they are written, the scope in which they are expanded, and the scopes around
    that one, the outermost first. -/
structure Place where
  around : List Scope
  scope : Scope
  nodes : List Node

/-- The scopes in which there is a pass over the nodes. -/
def Place.scopes (p : Place) : List Scope :=
  p.around ++ [p.scope]

/-- An expansion of the nodes of the first place comes to those of the second one. -/
inductive Enters (t : Template) (ctx : Context) (p : Place) : Place → Prop
  | here : Enters t ctx p p
  | inside {q : Place} {head : Head} {children : List Node} (h : Enters t ctx p q)
      (mem : .element head children ∈ q.nodes) (tag : Action.ofTag? head.name = none) :
      Enters t ctx p ⟨q.around, q.scope, children⟩
  | branch {q : Place} {head head' label : Head} {children body : List Node} (h : Enters t ctx p q)
      (mem : .element head children ∈ q.nodes) (tag : Action.ofTag? head.name = some .choose)
      (hh : headPasses t q.scopes head = .ok head') (hk : choiceKey ctx ⟨head', children⟩ = .ok label.name)
      (hb : .element label body ∈ children) : Enters t ctx p ⟨q.around, q.scope, body⟩
  | iteration {q : Place} {head head' : Head} {children : List Node} {items : List Value} {item : String} {k : Nat}
      {value : Value} (h : Enters t ctx p q) (mem : .element head children ∈ q.nodes)
      (tag : Action.ofTag? head.name = some .forEach) (hh : headPasses t q.scopes head = .ok head')
      (hr : RunsOver t q.scope ⟨head', children⟩ items item) (hv : items[k]? = some value) :
      Enters t ctx p ⟨q.scopes, iterationScope q.scope (loopIndex ⟨head', children⟩) item (1 + k) value, children⟩

/-- The nodes of the place have been expanded to these. -/
def Runs (t : Template) (ctx : Context) (p : Place) (out : List Node) : Prop :=
  ∃ limit middle, passes t p.scopes p.nodes = .ok middle ∧ runActions t ctx (expand t ctx limit) p.scope middle = .ok out

/-- The first nodes stand side by side among the second ones, or inside an element of them. -/
inductive Within (part : List Node) : List Node → Prop
  | here {whole : List Node} (h : part <:+: whole) : Within part whole
  | inside {head : Head} {children whole : List Node} (h : Within part children)
      (mem : .element head children ∈ whole) : Within part whole

theorem Within.mono {part middle whole : List Node} (h : Within part middle) (hi : middle <:+: whole) :
    Within part whole := by
  cases h with
  | here h => exact .here (h.trans hi)
  | inside h mem => exact .inside h (hi.subset mem)

theorem Within.trans {part middle whole : List Node} (h : Within part middle) (h' : Within middle whole) :
    Within part whole := by
  induction h' with
  | here hi => exact h.mono hi
  | inside _ mem ih => exact .inside ih mem

/-! ### What an expansion does at a place -/

theorem runActions_of_mem {run : Scope → List Node → Except Error (List Node)} {scope : Scope} {nodes out : List Node}
    {node : Node} (h : runActions t ctx run scope nodes = .ok out) (mem : node ∈ nodes) :
    ∃ part, runNode t ctx run scope node = .ok part ∧ part <:+: out := by
  obtain ⟨a, b, rfl⟩ := List.append_of_mem mem
  obtain ⟨front, rest, -, hr, rfl⟩ := runActions_append_eq_ok.mp h
  obtain ⟨part, last, hp, -, rfl⟩ := runActions_cons_eq_ok.mp hr
  exact ⟨part, hp, ⟨front, last, List.append_assoc ..⟩⟩

theorem iterate_of_getElem? {f : Scope → Except Error (List Node)} {scope : Scope} {index item : String} {number k : Nat}
    {values : List Value} {value : Value} {out : List Node} (h : iterate f scope index item number values = .ok out)
    (hv : values[k]? = some value) :
    ∃ part, f (iterationScope scope index item (number + k) value) = .ok part ∧ part <:+: out := by
  induction values generalizing number k out with
  | nil => cases hv
  | cons first values ih =>
    obtain ⟨front, rest, hf, hr, rfl⟩ := iterate_cons_eq_ok.mp h
    cases k with
    | zero =>
      cases hv
      exact ⟨front, hf, List.infix_append' [] front rest⟩
    | succ k =>
      obtain ⟨part, hp, hi⟩ := ih hr (by simpa using hv)
      rw [show number + 1 + k = number + (k + 1) by omega] at hp
      exact ⟨part, hp, hi.trans (List.suffix_append front rest).isInfix⟩

theorem within_wrap {e : Element} {part nodes : List Node} (h : part <:+: nodes) : Within part (wrap e nodes) := by
  unfold wrap
  split
  · exact .inside (.here h) List.mem_cons_self
  · exact .here h

/-- What an element of a place comes to is a part of what the place comes to. -/
theorem Runs.element {p : Place} {out : List Node} (h : Runs t ctx p out) {head : Head} {children : List Node}
    (mem : .element head children ∈ p.nodes) :
    ∃ limit head' children' part, headPasses t p.scopes head = .ok head' ∧ passes t p.scopes children = .ok children' ∧
      runNode t ctx (expand t ctx limit) p.scope (.element head' children') = .ok part ∧ part <:+: out := by
  obtain ⟨limit, middle, hm, hr⟩ := h
  obtain ⟨piece, hp, hi⟩ := passes_of_mem hm mem
  obtain ⟨head', children', hh, hc, rfl⟩ := passes_element hp
  obtain ⟨part, hpart, hout⟩ := runActions_of_mem hr (hi.subset List.mem_cons_self)
  exact ⟨limit, head', children', part, hh, hc, hpart, hout⟩

theorem branch_of_passes {scopes : List Scope} {children children' body : List Node} {label : Head}
    (h : passes t scopes children = .ok children') (mem : .element label body ∈ children) :
    ∃ body', passes t scopes body = .ok body' ∧ body' ∈ children'.filterMap (branch? label.name) := by
  obtain ⟨piece, hp, hi⟩ := passes_of_mem h mem
  obtain ⟨label', body', hl, hb, rfl⟩ := passes_element hp
  refine ⟨body', hb, List.mem_filterMap.mpr ⟨_, hi.subset List.mem_cons_self, ?_⟩⟩
  exact branch?_of_eq (name_of_headPasses hl)

/-- Every place that an expansion comes to has been expanded, and to a part of the output. -/
theorem Enters.runs {p q : Place} {out : List Node} (h : Enters t ctx p q) (hp : Runs t ctx p out) :
    ∃ part, Runs t ctx q part ∧ Within part out := by
  induction h with
  | here => exact ⟨out, hp, .here (List.infix_refl out)⟩
  | inside _ mem tag ih =>
    obtain ⟨middle, hq, hw⟩ := ih
    obtain ⟨limit, head', children', part, hh, hc, hrun, hi⟩ := hq.element mem
    obtain ⟨inner, hr, rfl⟩ := (runNode_plain_eq_ok (by rwa [name_of_headPasses hh])).mp hrun
    exact ⟨inner, ⟨limit, children', hc, hr⟩,
      .trans (.inside (.here (List.infix_refl inner)) (hi.subset List.mem_cons_self)) hw⟩
  | @branch q head head₁ label children body _ mem tag hh hk hb ih =>
    obtain ⟨middle, hq, hw⟩ := ih
    obtain ⟨limit, head', children', part, hh', hc, hrun, hi⟩ := hq.element mem
    cases hh.symm.trans hh'
    obtain ⟨key, hkey, hrun⟩ := runNode_choice_eq_ok (by rwa [name_of_headPasses hh]) hrun
    cases (choiceKey_of_head hk).symm.trans hkey
    obtain ⟨body', hbody, hmem⟩ := branch_of_passes hc hb
    rcases hrun with ⟨hsel, -⟩ | ⟨chosen, hsel, hrb⟩
    · rw [hsel] at hmem
      cases hmem
    · -- There is one branch only, so it is the one that is run.
      rw [hsel] at hmem
      cases List.mem_singleton.mp hmem
      exact ⟨part, ⟨limit, _, hbody, hrb⟩, (Within.here hi).trans hw⟩
  | @iteration q head head₁ children items item k value _ mem tag hh hr hv ih =>
    obtain ⟨middle, hq, hw⟩ := ih
    obtain ⟨limit, head', children', part, hh', hc, hrun, hi⟩ := hq.element mem
    cases hh.symm.trans hh'
    rw [runNode_loop (by rwa [name_of_headPasses hh])] at hrun
    rcases runLoop_eq_ok.mp hrun with ⟨hidle, rfl⟩ | ⟨items', item', nodes, hr', hiter, rfl⟩
    · exact absurd hidle (hr.not_idle rfl)
    · obtain ⟨rfl, rfl⟩ := hr.unique hr' rfl
      obtain ⟨inner, hf, hin⟩ := iterate_of_getElem? hiter hv
      cases limit with
      | zero => cases hf
      | succ limit =>
        obtain ⟨again, hs, hout⟩ := bind_eq_ok.mp hf
        refine ⟨inner, ⟨limit, again, ?_, hout⟩, ((within_wrap hin).mono hi).trans hw⟩
        exact foldlM_append_eq_ok.mpr ⟨children', hc, foldlM_cons_eq_ok.mpr ⟨again, hs, rfl⟩⟩

theorem Enters.scopes_eq {p q : Place} (h : Enters t ctx p q) : ∃ deeper, q.scopes = p.scopes ++ deeper := by
  induction h with
  | here => exact ⟨[], (List.append_nil _).symm⟩
  | inside _ _ _ ih => exact ih
  | branch _ _ _ _ _ _ ih => exact ih
  | iteration _ _ _ _ _ _ ih =>
    obtain ⟨deeper, hd⟩ := ih
    exact ⟨deeper ++ [_], by rw [← List.append_assoc, ← hd]; rfl⟩

theorem runs_of_expandElement {limit : Nat} {scope : Scope} {e out : Element}
    (h : expandElement t ctx limit scope e = .ok out) : Runs t ctx ⟨[], scope, e.children⟩ out.children := by
  obtain ⟨head, -, h⟩ := bind_eq_ok.mp h
  obtain ⟨children, hc, h⟩ := bind_eq_ok.mp h
  cases h
  cases limit with
  | zero => cases hc
  | succ limit =>
    obtain ⟨middle, hm, hr⟩ := bind_eq_ok.mp hc
    exact ⟨limit, middle, foldlM_cons_eq_ok.mpr ⟨middle, hm, rfl⟩, hr⟩

/-! ### The fate of a marker -/

/-- The passes over the nodes in `outer` leave the marker, and the pass in `first` puts the value in its
    place, while what stands around the marker develops as it would without it. What comes of that in
    the passes in `later` is a part of the nodes `middle`. -/
structure Resolves (t : Template) (outer : List Scope) (first : Scope) (later : List Scope) (inner : List Char)
    (value : Value) (nodes middle : List Node) : Prop where
  texts : ∀ a b, .text (a ++ Segment.rawOf inner ++ b) ∈ nodes → ∃ f f' filled part,
    (Frame.mk [] a b []).passes t outer = .ok f ∧ f.pass t first = .ok f' ∧ f'.put value = .ok filled ∧
    passes t outer [.text (a ++ Segment.rawOf inner ++ b)] = .ok (f.fill (Segment.rawOf inner)) ∧
    substitute t first (f.fill (Segment.rawOf inner)) = .ok filled ∧
    passes t later filled = .ok part ∧ part <:+: middle
  attributes : ∀ head children key a b, .element head children ∈ nodes →
    (key, a ++ Segment.rawOf inner ++ b) ∈ head.attributes → ∃ x y x' y' filled written head' children',
    attributePasses t outer a = .ok x ∧ attributePasses t outer b = .ok y ∧
    attributeValue t first x = .ok x' ∧ attributeValue t first y = .ok y' ∧ value.render = .ok filled ∧
    attributePasses t outer (a ++ Segment.rawOf inner ++ b) = .ok (x ++ Segment.rawOf inner ++ y) ∧
    attributeValue t first (x ++ Segment.rawOf inner ++ y) = .ok (x' ++ filled ++ y') ∧
    attributePasses t later (x' ++ filled ++ y') = .ok written ∧
    (key, written) ∈ head'.attributes ∧ .element head' children' ∈ middle

/-- The first scope that binds the name decides. -/
theorem resolves_of_unbound {outer later : List Scope} {first : Scope} {inner : List Char} {name : String}
    {value : Value} {nodes middle : List Node} (hm : IsVariable t inner name)
    (hn : ∀ scope ∈ outer, scope.get? name = none) (hv : first.get? name = some value)
    (h : passes t (outer ++ first :: later) nodes = .ok middle) :
    Resolves t outer first later inner value nodes middle where
  texts a b mem := by
    obtain ⟨part, hp, hi⟩ := passes_of_mem h mem
    -- The passes before the first scope leave the marker, that scope fills it, and the later ones get the filled
    -- text.
    obtain ⟨left, hl, hrest⟩ := foldlM_append_eq_ok.mp hp
    obtain ⟨filled, hf, hlater⟩ := foldlM_cons_eq_ok.mp hrest
    have hl' : passes t outer ((Frame.mk [] a b []).fill (Segment.rawOf inner)) = .ok left := by
      rw [Frame.fill, textNodes, if_neg (Segment.rawOf_append_ne_empty a b inner)]
      exact hl
    obtain ⟨f, hframe, rfl⟩ := (Frame.passes_fill_unbound hm hn).mp hl'
    obtain ⟨f', hframe', hput⟩ := (Frame.substitute_fill_bound hm hv).mp hf
    exact ⟨f, f', filled, part, hframe, hframe', hput, hl, hf, hlater, hi⟩
  attributes head children key a b mem hmem := by
    obtain ⟨piece, hp, hi⟩ := passes_of_mem h mem
    obtain ⟨head', children', hh, -, rfl⟩ := passes_element hp
    obtain ⟨written, hw, hmem'⟩ := attribute_of_headPasses hh hmem
    obtain ⟨left, hl, hrest⟩ := foldlM_append_eq_ok.mp hw
    obtain ⟨filled, hf, hlater⟩ := foldlM_cons_eq_ok.mp hrest
    obtain ⟨x, y, hx, hy, rfl⟩ := (attributePasses_unbound hm hn).mp hl
    obtain ⟨x', text, y', hx', ht, hy', rfl⟩ := (attributeValue_bound hm hv).mp hf
    exact ⟨x, y, x', y', text, written, head', children', hx, hy, hx', hy', ht, hl, hf, hlater, hmem',
      hi.subset List.mem_cons_self⟩

/-- In an iteration of a loop a marker with one of its variables gets the value of the iteration if no scope
    around the loop binds the name, and otherwise that of the outermost scope that binds it. -/
theorem loop_variable_outermost {limit : Nat} {scope : Scope} {out : Element}
    (h : expandElement t ctx limit scope t.content = .ok out) {q p : Place}
    (hq : Enters t ctx ⟨[], scope, t.content.children⟩ q) {head head' : Head} {children : List Node}
    (mem : .element head children ∈ q.nodes) (tag : Action.ofTag? head.name = some .forEach)
    (hh : headPasses t q.scopes head = .ok head') {items : List Value} {item : String}
    (hr : RunsOver t q.scope ⟨head', children⟩ items item) {k : Nat} {value : Value} (hv : items[k]? = some value)
    {own : Scope} (hown : own = iterationScope q.scope (loopIndex ⟨head', children⟩) item (1 + k) value)
    (hp : Enters t ctx ⟨q.scopes, own, children⟩ p) {inner : List Char} {name : String}
    (hm : IsVariable t inner name) (hname : name = item ∨ name = loopIndex ⟨head', children⟩) :
    ∃ deeper middle limit' part, p.scopes = q.scopes ++ own :: deeper ∧ passes t p.scopes p.nodes = .ok middle ∧
      runActions t ctx (expand t ctx limit') p.scope middle = .ok part ∧ Within part out.children ∧
      ((∀ s ∈ q.scopes, s.get? name = none) → Resolves t q.scopes own deeper inner
        (if name = item then value else .text (toString (1 + k))) p.nodes middle) ∧
      ∀ outer first rest found, q.scopes = outer ++ first :: rest → (∀ s ∈ outer, s.get? name = none) →
        first.get? name = some found → Resolves t outer first (rest ++ own :: deeper) inner found p.nodes middle := by
  subst hown
  obtain ⟨partq, hrunq, hwq⟩ := hq.runs (runs_of_expandElement h)
  obtain ⟨parti, hruni, hwi⟩ := (Enters.iteration .here mem tag hh hr hv).runs hrunq
  obtain ⟨part, ⟨limit', middle, hmid, hact⟩, hw⟩ := hp.runs hruni
  obtain ⟨deeper, hd⟩ := hp.scopes_eq
  have hdeeper : p.scopes = q.scopes ++ _ :: deeper := hd.trans (List.append_assoc ..)
  refine ⟨deeper, middle, limit', part, hdeeper, hmid, hact, (hw.trans hwi).trans hwq, fun hn => ?_, ?_⟩
  · refine resolves_of_unbound hm hn ?_ (hdeeper ▸ hmid)
    rw [get?_iterationScope]
    by_cases hi : name = item
    · rw [if_pos hi, if_pos hi]
    · rw [if_neg hi, if_neg hi, if_pos (hname.resolve_left hi)]
  · intro outer first rest found hsplit hn hfound
    refine resolves_of_unbound hm hn hfound ?_
    rw [← hmid, hdeeper, hsplit, List.append_assoc, List.cons_append]

/-- Two loops, one inside the other, that give the number of the iteration the same name. -/
def numbered : Template where
  name := "numbered"
  params := [.list "rows" true (.list "row" true (.text "cell" true .generic))]
  content := ⟨{ name := "content" },
    [.element { name := "ForEach", attributes := [("list", "rows")] }
      [.element { name := "ForEach", attributes := [("list", "row")] } [.text "{{__iter}}{{cell}} "]]]⟩
  formulas := [("__iter", .var ["__iter"]), ("cell", .var ["cell"])]

def numberedScope : Scope :=
  Scope.ofParams [("rows", .list [.list [.text "a", .text "b"], .list [.text "c"]])]

/-- In the first row. -/
def numberedRow : Scope :=
  iterationScope numberedScope "__iter" "row" 1 (.list [.text "a", .text "b"])

/-- At the second cell of the first row. -/
def numberedCell : Scope :=
  iterationScope numberedRow "__iter" "cell" 2 (.text "b")

theorem numbered_cell_takes_row_number :
    ∃ deeper middle, Resolves numbered [numberedScope] numberedRow (numberedCell :: deeper) "__iter".toList (.text "1")
      [.text "{{__iter}}{{cell}} "] middle := by
  have hexpand : expandElement numbered { probe := ⟨fun _ => false, fun _ => false⟩ } 3 numberedScope numbered.content =
      .ok ⟨{ name := "content" }, [.text "1a ", .text "1b ", .text "2c "]⟩ := eq_ok_of_toOption (by decide +kernel)
  have hrow : Enters numbered { probe := ⟨fun _ => false, fun _ => false⟩ } ⟨[], numberedScope, numbered.content.children⟩
      ⟨[numberedScope], numberedRow,
        [.element { name := "ForEach", attributes := [("list", "row")] } [.text "{{__iter}}{{cell}} "]]⟩ :=
    @Enters.iteration _ _ _ _ _ { name := "ForEach", attributes := [("list", "rows")] } _ _ "row" 0 _ .here
      List.mem_cons_self rfl (eq_ok_of_toOption (by decide +kernel)) ⟨"rows", rfl, rfl, rfl⟩ rfl
  obtain ⟨deeper, middle, -, -, -, -, -, -, -, h⟩ := @loop_variable_outermost _ _ _ _ _ hexpand _ _ hrow _
    { name := "ForEach", attributes := [("list", "row")] } _ List.mem_cons_self rfl
    (eq_ok_of_toOption (by decide +kernel)) [.text "a", .text "b"] "cell" ⟨"row", rfl, rfl, rfl⟩ 1 (.text "b") rfl
    numberedCell rfl .here "__iter".toList "__iter" ⟨by decide, by decide +kernel⟩ (Or.inr rfl)
  exact ⟨deeper, middle, h [numberedScope] numberedRow [] (.text "1") rfl (List.forall_mem_singleton.mpr rfl) rfl⟩

end Expansion
end Letterpress
