import Letterpress.Proofs.Expansion.Basic

/-! A marker in the middle of a text, and several passes over it. What stands around the marker develops as
    if the marker were not there, and the marker itself stays until a pass binds its variable, which puts
    the value in its place. -/

namespace Letterpress
open Markup (Node Element Head)

/-- A marker with this between its braces, as it is written. -/
def Segment.rawOf (inner : List Char) : String :=
  String.ofList (Segment.markerChars inner)

/-- The text of the formula between the braces of a marker. -/
def Segment.formulaOf (inner : List Char) : String :=
  String.ofList (Text.trimChars inner)

theorem Segment.rawOf_append_ne_empty (left right : String) (inner : List Char) :
    left ++ Segment.rawOf inner ++ right ≠ "" := by
  intro h
  have := congrArg String.toList h
  simp [rawOf, markerChars] at this

namespace Expansion

variable {t : Template} {scope : Scope}

/-! ### Several passes -/

theorem foldlM_cons_eq_ok {ε α β : Type} {f : β → α → Except ε β} {x : α} {xs : List α} {b out : β} :
    (x :: xs).foldlM f b = .ok out ↔ ∃ c, f b x = .ok c ∧ xs.foldlM f c = .ok out := by
  rw [List.foldlM_cons, bind_eq_ok]

theorem foldlM_append_eq_ok {ε α β : Type} {f : β → α → Except ε β} {xs ys : List α} {b out : β} :
    (xs ++ ys).foldlM f b = .ok out ↔ ∃ c, xs.foldlM f b = .ok c ∧ ys.foldlM f c = .ok out := by
  rw [List.foldlM_append, bind_eq_ok]

/-- The nodes after a pass in each of the scopes, one after the other. -/
def passes (t : Template) (scopes : List Scope) (nodes : List Node) : Except Error (List Node) :=
  scopes.foldlM (fun nodes scope => substitute t scope nodes) nodes

/-- An attribute value after a pass in each of the scopes. -/
def attributePasses (t : Template) (scopes : List Scope) (value : String) : Except Error String :=
  scopes.foldlM (fun value scope => attributeValue t scope value) value

/-- The head of an element after a pass in each of the scopes. -/
def headPasses (t : Template) (scopes : List Scope) (head : Head) : Except Error Head :=
  scopes.foldlM (fun head scope => substituteHead t scope head) head

theorem passes_append_eq_ok {scopes : List Scope} {a b out : List Node} :
    passes t scopes (a ++ b) = .ok out ↔
      ∃ front rest, passes t scopes a = .ok front ∧ passes t scopes b = .ok rest ∧ out = front ++ rest := by
  unfold passes
  induction scopes generalizing a b with
  | nil => simp [pure, Except.pure, eq_comm]
  | cons scope scopes ih =>
    simp only [foldlM_cons_eq_ok, substitute_append_eq_ok]
    constructor
    · rintro ⟨-, ⟨a', b', ha, hb, rfl⟩, h⟩
      obtain ⟨front, rest, hf, hr, rfl⟩ := ih.mp h
      exact ⟨front, rest, ⟨a', ha, hf⟩, ⟨b', hb, hr⟩, rfl⟩
    · rintro ⟨front, rest, ⟨a', ha, hf⟩, ⟨b', hb, hr⟩, rfl⟩
      exact ⟨_, ⟨a', b', ha, hb, rfl⟩, ih.mpr ⟨front, rest, hf, hr, rfl⟩⟩

theorem passes_of_mem {scopes : List Scope} {nodes out : List Node} {node : Node} (h : passes t scopes nodes = .ok out)
    (mem : node ∈ nodes) : ∃ part, passes t scopes [node] = .ok part ∧ part <:+: out := by
  obtain ⟨a, b, rfl⟩ := List.append_of_mem mem
  obtain ⟨front, rest, hf, hr, rfl⟩ := passes_append_eq_ok.mp h
  rw [← List.singleton_append] at hr
  obtain ⟨part, last, hp, -, rfl⟩ := passes_append_eq_ok.mp hr
  exact ⟨part, hp, ⟨front, last, List.append_assoc ..⟩⟩

theorem passes_element {scopes : List Scope} {head : Head} {children out : List Node}
    (h : passes t scopes [.element head children] = .ok out) :
    ∃ head' children', headPasses t scopes head = .ok head' ∧ passes t scopes children = .ok children' ∧
      out = [.element head' children'] := by
  induction scopes generalizing head children with
  | nil =>
    cases h
    exact ⟨head, children, rfl, rfl, rfl⟩
  | cons scope scopes ih =>
    obtain ⟨middle, hm, h⟩ := foldlM_cons_eq_ok.mp h
    obtain ⟨front, rest, hn, hr, rfl⟩ := substitute_cons_eq_ok.mp hm
    cases hr
    obtain ⟨head₁, children₁, hh, hc, rfl⟩ := substituteNode_element_eq_ok.mp hn
    obtain ⟨head₂, children₂, hh', hc', rfl⟩ := ih h
    exact ⟨head₂, children₂, foldlM_cons_eq_ok.mpr ⟨head₁, hh, hh'⟩, foldlM_cons_eq_ok.mpr ⟨children₁, hc, hc'⟩, rfl⟩

theorem name_of_headPasses {scopes : List Scope} {head head' : Head} (h : headPasses t scopes head = .ok head') :
    head'.name = head.name := by
  induction scopes generalizing head with
  | nil =>
    cases h
    rfl
  | cons scope scopes ih =>
    obtain ⟨head₁, hh, h⟩ := foldlM_cons_eq_ok.mp h
    rw [ih h, name_of_substituteHead hh]

/-! ### A place in a text -/

/-- What stands around a place in a text: nodes, and the text between them and the place. -/
structure Frame where
  before : List Node := []
  left : String
  right : String
  after : List Node := []

/-- The nodes for the pieces before a place, and the text that is still pending at the place. -/
def spliceBefore (t : Template) (scope : Scope) (pending : String) :
    List Segment → Except Error (List Node × String)
  | [] => .ok ([], pending)
  | .literal text :: segments => spliceBefore t scope (pending ++ text) segments
  | .marker raw formula :: segments =>
    match fragment? t scope formula with
    | some nodes => do
      let (front, last) ← spliceBefore t scope "" segments
      return (textNodes pending ++ nodes ++ front, last)
    | none => do
      let outcome ← evaluate t scope formula
      spliceBefore t scope (pending ++ outcome.textOr raw) segments

/-- The text that the pieces behind a place begin with, and the nodes after that text. -/
def spliceBehind (t : Template) (scope : Scope) : List Segment → Except Error (String × List Node)
  | [] => .ok ("", [])
  | .literal text :: segments => do
    let (first, back) ← spliceBehind t scope segments
    return (text ++ first, back)
  | .marker raw formula :: segments =>
    match fragment? t scope formula with
    | some nodes => do
      let rest ← spliceSegments t scope "" segments
      return ("", nodes ++ rest)
    | none => do
      let outcome ← evaluate t scope formula
      let (first, back) ← spliceBehind t scope segments
      return (outcome.textOr raw ++ first, back)

theorem spliceSegments_append_eq_ok {a b : List Segment} {pending : String} {out : List Node} :
    spliceSegments t scope pending (a ++ b) = .ok out ↔
      ∃ front last rest, spliceBefore t scope pending a = .ok (front, last) ∧
        spliceSegments t scope last b = .ok rest ∧ out = front ++ rest := by
  induction a generalizing pending out with
  | nil =>
    constructor
    · exact fun h => ⟨[], pending, out, rfl, h, rfl⟩
    · rintro ⟨_, _, rest, ⟨⟩, h, rfl⟩
      exact h
  | cons segment a ih =>
    cases segment with
    | literal text => exact ih
    | marker raw formula =>
      cases hf : fragment? t scope formula with
      | some nodes =>
        simp only [List.cons_append, spliceSegments_fragment_eq_ok hf, ih, spliceBefore, hf, bind_eq_ok, pure,
          Except.pure, Except.ok.injEq, Prod.exists, Prod.mk.injEq]
        constructor
        · rintro ⟨-, ⟨front, last, rest, hb, hr, rfl⟩, rfl⟩
          exact ⟨_, last, rest, ⟨front, last, hb, rfl, rfl⟩, hr, by simp⟩
        · rintro ⟨_, _, rest, ⟨front, last, hb, rfl, rfl⟩, hr, rfl⟩
          exact ⟨_, ⟨front, last, rest, hb, hr, rfl⟩, by simp⟩
      | none =>
        simp only [List.cons_append, spliceSegments_text_eq_ok hf, ih, spliceBefore, hf, bind_eq_ok]
        constructor
        · rintro ⟨outcome, ho, front, last, rest, hb, hr, rfl⟩
          exact ⟨front, last, rest, ⟨outcome, ho, hb⟩, hr, rfl⟩
        · rintro ⟨front, last, rest, ⟨outcome, ho, hb⟩, hr, rfl⟩
          exact ⟨outcome, ho, front, last, rest, hb, hr, rfl⟩

theorem spliceSegments_eq_ok {segments : List Segment} {pending : String} {out : List Node} :
    spliceSegments t scope pending segments = .ok out ↔
      ∃ first back, spliceBehind t scope segments = .ok (first, back) ∧ out = textNodes (pending ++ first) ++ back := by
  induction segments generalizing pending out with
  | nil =>
    constructor
    · rintro ⟨⟩
      exact ⟨"", [], rfl, by simp⟩
    · rintro ⟨-, -, ⟨⟩, rfl⟩
      simp [spliceSegments]
  | cons segment segments ih =>
    cases segment with
    | literal text =>
      simp only [spliceSegments_literal, ih, spliceBehind, bind_eq_ok, pure, Except.pure, Except.ok.injEq, Prod.exists,
        Prod.mk.injEq]
      constructor
      · rintro ⟨first, back, hb, rfl⟩
        exact ⟨_, back, ⟨first, back, hb, rfl, rfl⟩, by simp [String.append_assoc]⟩
      · rintro ⟨_, _, ⟨first, back, hb, rfl, rfl⟩, rfl⟩
        exact ⟨first, back, hb, by simp [String.append_assoc]⟩
    | marker raw formula =>
      cases hf : fragment? t scope formula with
      | some nodes =>
        simp only [spliceSegments_fragment_eq_ok hf, spliceBehind, hf, bind_eq_ok, pure, Except.pure, Except.ok.injEq,
          Prod.mk.injEq]
        constructor
        · rintro ⟨rest, hr, rfl⟩
          exact ⟨"", _, ⟨rest, hr, rfl, rfl⟩, by simp⟩
        · rintro ⟨-, -, ⟨rest, hr, rfl, rfl⟩, rfl⟩
          exact ⟨rest, hr, by simp⟩
      | none =>
        simp only [spliceSegments_text_eq_ok hf, ih, spliceBehind, hf, bind_eq_ok, pure, Except.pure, Except.ok.injEq,
          Prod.exists, Prod.mk.injEq]
        constructor
        · rintro ⟨outcome, ho, first, back, hb, rfl⟩
          exact ⟨_, back, ⟨outcome, ho, first, back, hb, rfl, rfl⟩, by simp [String.append_assoc]⟩
        · rintro ⟨_, _, ⟨outcome, ho, first, back, hb, rfl, rfl⟩, rfl⟩
          exact ⟨outcome, ho, first, back, hb, by simp [String.append_assoc]⟩

theorem substitute_textNodes {text : String} (hne : text ≠ "") {out : List Node} :
    substitute t scope (textNodes text) = .ok out ↔ spliceSegments t scope "" (Segment.split text) = .ok out := by
  rw [textNodes, if_neg hne, ← splice_of_ne_empty hne, substitute_cons_eq_ok]
  constructor
  · rintro ⟨front, -, hf, ⟨⟩, rfl⟩
    rw [List.append_nil]
    exact hf
  · exact fun h => ⟨out, [], h, rfl, (List.append_nil out).symm⟩

namespace Frame

/-- The nodes with a text at the place. -/
def fill (f : Frame) (text : String) : List Node :=
  f.before ++ textNodes (f.left ++ text ++ f.right) ++ f.after

/-- The nodes with a value at the place: markup ends the text around it. -/
def put (f : Frame) : Value → Except Value.Fault (List Node)
  | .markup e => .ok (f.before ++ (textNodes f.left ++ e.children ++ textNodes f.right) ++ f.after)
  | value => value.render.map f.fill

/-- What stands around the place after a pass. -/
def pass (t : Template) (scope : Scope) (f : Frame) : Except Error Frame := do
  let before ← substitute t scope f.before
  let (front, left) ← spliceBefore t scope "" (Segment.split f.left)
  let (right, back) ← spliceBehind t scope (Segment.split f.right)
  let after ← substitute t scope f.after
  return ⟨before ++ front, left, right, back ++ after⟩

/-- What stands around the place after a pass in each of the scopes. -/
def passes (t : Template) (scopes : List Scope) (f : Frame) : Except Error Frame :=
  scopes.foldlM (fun f scope => f.pass t scope) f

theorem pass_eq_ok {f f' : Frame} :
    f.pass t scope = .ok f' ↔ ∃ before front left right back after, substitute t scope f.before = .ok before ∧
      spliceBefore t scope "" (Segment.split f.left) = .ok (front, left) ∧
      spliceBehind t scope (Segment.split f.right) = .ok (right, back) ∧
      substitute t scope f.after = .ok after ∧ f' = ⟨before ++ front, left, right, back ++ after⟩ := by
  simp only [pass, bind_eq_ok, pure, Except.pure, Except.ok.injEq, Prod.exists]
  constructor
  · rintro ⟨before, hb, front, left, hl, right, back, hr, after, ha, rfl⟩
    exact ⟨before, front, left, right, back, after, hb, hl, hr, ha, rfl⟩
  · rintro ⟨before, front, left, right, back, after, hb, hl, hr, ha, rfl⟩
    exact ⟨before, hb, front, left, hl, right, back, hr, after, ha, rfl⟩

/-- A pass over a marker is a pass over what stands before it, the marker itself and what stands behind. -/
theorem substitute_fill_eq_ok {f : Frame} {inner : List Char} (hi : Segment.isInner inner = true) {out : List Node} :
    substitute t scope (f.fill (Segment.rawOf inner)) = .ok out ↔
      ∃ before front left rest after, substitute t scope f.before = .ok before ∧
        spliceBefore t scope "" (Segment.split f.left) = .ok (front, left) ∧
        spliceSegments t scope left (Segment.ofInner inner :: Segment.split f.right) = .ok rest ∧
        substitute t scope f.after = .ok after ∧ out = before ++ (front ++ rest) ++ after := by
  have hsplit : Segment.split (f.left ++ Segment.rawOf inner ++ f.right) =
      Segment.split f.left ++ Segment.ofInner inner :: Segment.split f.right := Segment.split_marker hi
  have hne := Segment.rawOf_append_ne_empty f.left f.right inner
  simp only [fill, substitute_append_eq_ok, substitute_textNodes hne, hsplit,
    spliceSegments_append_eq_ok]
  constructor
  · rintro ⟨-, after, ⟨before, -, hb, ⟨front, left, rest, hl, hr, rfl⟩, rfl⟩, ha, rfl⟩
    exact ⟨before, front, left, rest, after, hb, hl, hr, ha, rfl⟩
  · rintro ⟨before, front, left, rest, after, hb, hl, hr, ha, rfl⟩
    exact ⟨_, after, ⟨before, _, hb, ⟨front, left, rest, hl, hr, rfl⟩, rfl⟩, ha, rfl⟩

/-- A marker that stands for no markup is replaced by what its formula comes to, if it comes to anything. -/
theorem substitute_fill_text {f : Frame} {inner : List Char} (hi : Segment.isInner inner = true)
    (hf : fragment? t scope (Segment.formulaOf inner) = none) {outcome : Outcome}
    (he : evaluate t scope (Segment.formulaOf inner) = .ok outcome) {out : List Node} :
    substitute t scope (f.fill (Segment.rawOf inner)) = .ok out ↔
      ∃ f', f.pass t scope = .ok f' ∧ out = f'.fill (outcome.textOr (Segment.rawOf inner)) := by
  have hmarker : ∀ {left rest}, spliceSegments t scope left (Segment.ofInner inner :: Segment.split f.right) = .ok rest ↔
      ∃ right back, spliceBehind t scope (Segment.split f.right) = .ok (right, back) ∧
        rest = textNodes (left ++ outcome.textOr (Segment.rawOf inner) ++ right) ++ back := by
    intro left rest
    rw [← spliceSegments_eq_ok]
    refine (spliceSegments_text_eq_ok hf).trans ⟨?_, fun h => ⟨outcome, he, h⟩⟩
    rintro ⟨outcome', he', h⟩
    cases he.symm.trans he'
    exact h
  simp only [substitute_fill_eq_ok hi, hmarker, pass_eq_ok]
  constructor
  · rintro ⟨before, front, left, -, after, hb, hl, ⟨right, back, hr, rfl⟩, ha, rfl⟩
    exact ⟨_, ⟨before, front, left, right, back, after, hb, hl, hr, ha, rfl⟩, by simp [fill]⟩
  · rintro ⟨-, ⟨before, front, left, right, back, after, hb, hl, hr, ha, rfl⟩, rfl⟩
    exact ⟨before, front, left, _, after, hb, hl, ⟨right, back, hr, rfl⟩, ha, by simp [fill]⟩

theorem substitute_fill_markup {f : Frame} {inner : List Char} (hi : Segment.isInner inner = true) {e : Element}
    (hf : fragment? t scope (Segment.formulaOf inner) = some e.children) {out : List Node} :
    substitute t scope (f.fill (Segment.rawOf inner)) = .ok out ↔
      ∃ f', f.pass t scope = .ok f' ∧ f'.put (.markup e) = .ok out := by
  have hmarker : ∀ {left rest}, spliceSegments t scope left (Segment.ofInner inner :: Segment.split f.right) = .ok rest ↔
      ∃ right back, spliceBehind t scope (Segment.split f.right) = .ok (right, back) ∧
        rest = textNodes left ++ e.children ++ (textNodes right ++ back) := by
    intro left rest
    refine (spliceSegments_fragment_eq_ok hf).trans ?_
    simp only [spliceSegments_eq_ok, String.empty_append]
    constructor
    · rintro ⟨-, ⟨right, back, hr, rfl⟩, rfl⟩
      exact ⟨right, back, hr, rfl⟩
    · rintro ⟨right, back, hr, rfl⟩
      exact ⟨_, ⟨right, back, hr, rfl⟩, rfl⟩
  simp only [substitute_fill_eq_ok hi, hmarker, pass_eq_ok, put, Except.ok.injEq]
  constructor
  · rintro ⟨before, front, left, -, after, hb, hl, ⟨right, back, hr, rfl⟩, ha, rfl⟩
    exact ⟨_, ⟨before, front, left, right, back, after, hb, hl, hr, ha, rfl⟩, by simp⟩
  · rintro ⟨-, ⟨before, front, left, right, back, after, hb, hl, hr, ha, rfl⟩, rfl⟩
    exact ⟨before, front, left, _, after, hb, hl, ⟨right, back, hr, rfl⟩, ha, by simp⟩

end Frame

/-! ### A marker with a variable -/

/-- The marker with this between its braces is a variable of this name and nothing else. -/
def IsVariable (t : Template) (inner : List Char) (name : String) : Prop :=
  Segment.isInner inner = true ∧ formula? t (Segment.formulaOf inner) = some (.var [name])

section
variable {inner : List Char} {name : String} {value : Value}

theorem IsVariable.fragment?_eq_none (hm : IsVariable t inner name)
    (hn : ∀ e, scope.get? name ≠ some (.markup e)) : fragment? t scope (Segment.formulaOf inner) = none := by
  simp only [fragment?, hm.2, Scope.lookup?_singleton]

theorem IsVariable.fragment?_markup (hm : IsVariable t inner name) {e : Element}
    (hv : scope.get? name = some (.markup e)) :
    fragment? t scope (Segment.formulaOf inner) = some e.children := by
  simp only [fragment?, hm.2, Scope.lookup?_singleton, hv]

theorem IsVariable.evaluate_unbound (hm : IsVariable t inner name) (hn : scope.get? name = none) :
    evaluate t scope (Segment.formulaOf inner) = .ok .deferred := by
  rw [evaluate_eq_ok hm.2]
  simp [Formula.eval, Scope.lookup?_singleton, hn]

theorem IsVariable.evaluate_bound (hm : IsVariable t inner name) (hv : scope.get? name = some value) {outcome : Outcome} :
    evaluate t scope (Segment.formulaOf inner) = .ok outcome ↔ ∃ text, value.render = .ok text ∧ outcome = .resolved text := by
  rw [evaluate_eq_ok hm.2]
  cases hr : value.render with
  | error fault => simp [Formula.eval, Scope.lookup?_singleton, hv, hr]
  | ok text => simp [Formula.eval, Scope.lookup?_singleton, hv, hr, eq_comm]

namespace Frame

theorem substitute_fill_unbound {f : Frame} (hm : IsVariable t inner name) (hn : scope.get? name = none) {out : List Node} :
    substitute t scope (f.fill (Segment.rawOf inner)) = .ok out ↔
      ∃ f', f.pass t scope = .ok f' ∧ out = f'.fill (Segment.rawOf inner) :=
  substitute_fill_text hm.1 (hm.fragment?_eq_none (by simp [hn])) (hm.evaluate_unbound hn)

theorem substitute_fill_bound {f : Frame} (hm : IsVariable t inner name) (hv : scope.get? name = some value)
    {out : List Node} :
    substitute t scope (f.fill (Segment.rawOf inner)) = .ok out ↔
      ∃ f', f.pass t scope = .ok f' ∧ f'.put value = .ok out := by
  -- Markup is spliced in as nodes; every other value is put in as its text, if it has one.
  by_cases hk : ∃ e, value = .markup e
  · obtain ⟨e, rfl⟩ := hk
    exact substitute_fill_markup hm.1 (hm.fragment?_markup hv)
  · have hput : ∀ f' : Frame, f'.put value = value.render.map f'.fill := fun f' => by
      cases value with
      | markup e => exact absurd ⟨e, rfl⟩ hk
      | _ => rfl
    have hf : fragment? t scope (Segment.formulaOf inner) = none :=
      hm.fragment?_eq_none fun e he => hk ⟨e, Option.some.inj (hv.symm.trans he)⟩
    simp only [hput]
    cases hr : value.render with
    | ok text =>
      rw [substitute_fill_text hm.1 hf ((hm.evaluate_bound hv).mpr ⟨text, hr, rfl⟩)]
      simp only [Except.map, Except.ok.injEq, Outcome.textOr, eq_comm]
    | error fault =>
      constructor
      · intro h
        obtain ⟨-, -, left, rest, -, -, -, hrest, -, -⟩ := (substitute_fill_eq_ok hm.1).mp h
        obtain ⟨outcome, he, -⟩ := (spliceSegments_text_eq_ok hf).mp hrest
        obtain ⟨text, ht, -⟩ := (hm.evaluate_bound hv).mp he
        rw [hr] at ht
        cases ht
      · rintro ⟨f', -, ⟨⟩⟩

/-- The marker stays as long as no scope binds its variable. -/
theorem passes_fill_unbound {scopes : List Scope} {f : Frame} (hm : IsVariable t inner name)
    (hn : ∀ scope ∈ scopes, scope.get? name = none) {out : List Node} :
    Expansion.passes t scopes (f.fill (Segment.rawOf inner)) = .ok out ↔
      ∃ f', f.passes t scopes = .ok f' ∧ out = f'.fill (Segment.rawOf inner) := by
  unfold Expansion.passes passes
  induction scopes generalizing f with
  | nil =>
    constructor
    · rintro ⟨⟩
      exact ⟨f, rfl, rfl⟩
    · rintro ⟨_, ⟨⟩, rfl⟩
      rfl
  | cons scope scopes ih =>
    have ih := fun {f} => @ih f fun s hs => hn s (List.mem_cons_of_mem _ hs)
    simp only [foldlM_cons_eq_ok, substitute_fill_unbound hm (hn scope List.mem_cons_self)]
    constructor
    · rintro ⟨_, ⟨f₁, hf, rfl⟩, h⟩
      obtain ⟨f', hf', rfl⟩ := ih.mp h
      exact ⟨f', ⟨f₁, hf, hf'⟩, rfl⟩
    · rintro ⟨f', ⟨f₁, hf, hf'⟩, rfl⟩
      exact ⟨_, ⟨f₁, hf, rfl⟩, ih.mpr ⟨f', hf', rfl⟩⟩

end Frame

theorem attributeValue_marker (hi : Segment.isInner inner = true) {a b out : String} :
    attributeValue t scope (a ++ Segment.rawOf inner ++ b) = .ok out ↔
      ∃ x outcome y, attributeValue t scope a = .ok x ∧ evaluate t scope (Segment.formulaOf inner) = .ok outcome ∧
        attributeValue t scope b = .ok y ∧ out = x ++ outcome.textOr (Segment.rawOf inner) ++ y := by
  have hsplit : Segment.split (a ++ Segment.rawOf inner ++ b) =
      Segment.split a ++ Segment.marker (Segment.rawOf inner) (Segment.formulaOf inner) :: Segment.split b :=
    Segment.split_marker hi
  simp only [attributeValue, hsplit, joinSegments_append_eq_ok, joinSegments_marker_eq_ok]
  constructor
  · rintro ⟨x, -, hx, ⟨outcome, y, ho, hy, rfl⟩, rfl⟩
    exact ⟨x, outcome, y, hx, ho, hy, (String.append_assoc ..).symm⟩
  · rintro ⟨x, outcome, y, hx, ho, hy, rfl⟩
    exact ⟨x, _, hx, ⟨outcome, y, ho, hy, rfl⟩, String.append_assoc ..⟩

theorem attributeValue_bound (hm : IsVariable t inner name) (hv : scope.get? name = some value) {a b out : String} :
    attributeValue t scope (a ++ Segment.rawOf inner ++ b) = .ok out ↔
      ∃ x text y, attributeValue t scope a = .ok x ∧ value.render = .ok text ∧ attributeValue t scope b = .ok y ∧
        out = x ++ text ++ y := by
  rw [attributeValue_marker hm.1]
  simp only [hm.evaluate_bound hv]
  constructor
  · rintro ⟨x, _, y, hx, ⟨text, ht, rfl⟩, hy, rfl⟩
    exact ⟨x, text, y, hx, ht, hy, rfl⟩
  · rintro ⟨x, text, y, hx, ht, hy, rfl⟩
    exact ⟨x, _, y, hx, ⟨text, ht, rfl⟩, hy, rfl⟩

theorem attributePasses_unbound {scopes : List Scope} (hm : IsVariable t inner name)
    (hn : ∀ scope ∈ scopes, scope.get? name = none) {a b out : String} :
    attributePasses t scopes (a ++ Segment.rawOf inner ++ b) = .ok out ↔
      ∃ x y, attributePasses t scopes a = .ok x ∧ attributePasses t scopes b = .ok y ∧
        out = x ++ Segment.rawOf inner ++ y := by
  unfold attributePasses
  induction scopes generalizing a b with
  | nil =>
    constructor
    · rintro ⟨⟩
      exact ⟨a, b, rfl, rfl, rfl⟩
    · rintro ⟨_, _, ⟨⟩, ⟨⟩, rfl⟩
      rfl
  | cons scope scopes ih =>
    have ih := fun {a b} => @ih (fun s hs => hn s (List.mem_cons_of_mem _ hs)) a b
    simp only [foldlM_cons_eq_ok, attributeValue_marker hm.1, hm.evaluate_unbound (hn scope List.mem_cons_self)]
    constructor
    · rintro ⟨_, ⟨x₁, _, y₁, hx₁, ⟨⟩, hy₁, rfl⟩, h⟩
      obtain ⟨x, y, hx, hy, rfl⟩ := ih.mp h
      exact ⟨x, y, ⟨x₁, hx₁, hx⟩, ⟨y₁, hy₁, hy⟩, rfl⟩
    · rintro ⟨x, y, ⟨x₁, hx₁, hx⟩, ⟨y₁, hy₁, hy⟩, rfl⟩
      exact ⟨_, ⟨x₁, _, y₁, hx₁, rfl, hy₁, rfl⟩, ih.mpr ⟨x, y, hx, hy, rfl⟩⟩

end

theorem attribute_of_headPasses {scopes : List Scope} {head head' : Head} (h : headPasses t scopes head = .ok head')
    {key value : String} (mem : (key, value) ∈ head.attributes) :
    ∃ value', attributePasses t scopes value = .ok value' ∧ (key, value') ∈ head'.attributes := by
  -- One pass keeps the attribute under its key, and the passes go on from what it leaves there.
  have once : ∀ {scope : Scope} {attributes out : List (String × String)} {value : String},
      substituteAttributes t scope attributes = .ok out → (key, value) ∈ attributes →
      ∃ value', attributeValue t scope value = .ok value' ∧ (key, value') ∈ out := by
    intro scope attributes out value hs hmem
    induction attributes generalizing out with
    | nil => cases hmem
    | cons a attributes ih =>
      obtain ⟨value₁, rest, hv, hr, rfl⟩ := substituteAttributes_cons_eq_ok.mp hs
      rcases List.mem_cons.mp hmem with rfl | hmem
      · exact ⟨value₁, hv, List.mem_cons_self⟩
      · obtain ⟨value', hv', hm'⟩ := ih hr hmem
        exact ⟨value', hv', List.mem_cons_of_mem _ hm'⟩
  unfold attributePasses
  induction scopes generalizing head value with
  | nil =>
    cases h
    exact ⟨value, rfl, mem⟩
  | cons scope scopes ih =>
    obtain ⟨head₁, hh, h⟩ := foldlM_cons_eq_ok.mp h
    obtain ⟨attributes, hs, rfl⟩ := substituteHead_eq_ok.mp hh
    obtain ⟨value₁, hv₁, mem₁⟩ := once hs mem
    obtain ⟨value', hv', mem'⟩ := ih h mem₁
    exact ⟨value', foldlM_cons_eq_ok.mpr ⟨value₁, hv₁, hv'⟩, mem'⟩

end Expansion
end Letterpress
