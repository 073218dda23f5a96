import Letterpress.Proofs.Scope
import Mathlib.Data.List.Induction

/-! Scopes and what has been done to them. A new scope is changed by pushing, popping and binding; its layers are
    those that have been pushed and not popped since, and each of them has for every name the value bound to it
    last. What is done between a push and its pop leaves no trace. -/

namespace Letterpress
namespace Scope

/-- What can be done to a scope. -/
inductive Operation where
  | push
  | pop
  | bind (name : String) (value : Value)

/-- The scope behind the operation. -/
def Operation.apply (s : Scope) : Operation → Scope
  | push => s.push
  | pop => s.pop
  | bind name value => s.bind name value

/-- The scope behind the operations, one after the other. -/
def run (s : Scope) (ops : List Operation) : Scope :=
  ops.foldl Operation.apply s

theorem run_concat (s : Scope) (ops : List Operation) (op : Operation) : s.run (ops ++ [op]) = op.apply (s.run ops) :=
  List.foldl_concat ..

/-! ### The history -/

/-- The number of layers above the outermost one behind the operation, if it was `n` before. -/
def Operation.height (n : Nat) : Operation → Nat
  | push => n + 1
  | pop => n - 1
  | bind _ _ => n

/-- The number of layers above the outermost one behind the operations on a new scope. -/
def height (ops : List Operation) : Nat :=
  ops.foldl Operation.height 0

theorem height_concat (ops : List Operation) (op : Operation) : height (ops ++ [op]) = op.height (height ops) :=
  List.foldl_concat ..

theorem height_take_concat (ops : List Operation) (op : Operation) (n : Nat) : height ((ops ++ [op]).take n) =
    if n ≤ ops.length then height (ops.take n) else op.height (height ops) := by
  split
  · rename_i h
    rw [List.take_append_of_le_length h]
  · rename_i h
    rw [List.take_of_length_le (by simp; omega), height_concat]

/-- The operation at this place binds the name in a layer with so many others below it, and the layer is still
    there at the end: the layers have never been fewer since. -/
structure BoundAt (ops : List Operation) (name : String) (place level : Nat) (value : Value) : Prop where
  binds : ops[place]? = some (.bind name value)
  level_eq : height (ops.take place) = level
  stays : ∀ n, place ≤ n → level ≤ height (ops.take n)

/-- The value bound last to the name in the layer at this level, of the layers that are there at the end. The
    outermost layer starts with the parameters. -/
inductive LastBound (params : Layer) (ops : List Operation) (name : String) : Nat → Value → Prop
  | bound {place level : Nat} {value : Value} (h : BoundAt ops name place level value)
      (last : ∀ later other, BoundAt ops name later level other → later ≤ place) : LastBound params ops name level value
  | param {value : Value} (h : params.lookup name = some value) (unbound : ∀ place other, ¬BoundAt ops name place 0 other) :
      LastBound params ops name 0 value

variable {params : Layer} {ops ops' : List Operation} {op : Operation} {name : String} {place level : Nat} {value : Value}

namespace BoundAt

theorem place_lt (h : BoundAt ops name place level value) : place < ops.length :=
  (List.getElem?_eq_some_iff.mp h.binds).1

theorem level_le (h : BoundAt ops name place level value) : level ≤ height ops := by
  have hend := h.stays ops.length (Nat.le_of_lt h.place_lt)
  rwa [List.take_length] at hend

end BoundAt

/-- A layer stays through one more operation if that leaves as many layers as are below it. -/
theorem stays_concat (hle : place ≤ ops.length) : (∀ n, place ≤ n → level ≤ height ((ops ++ [op]).take n)) ↔
    (∀ n, place ≤ n → level ≤ height (ops.take n)) ∧ level ≤ op.height (height ops) := by
  constructor
  · intro h
    have hbefore : level ≤ height ops := by
      have hlast := h ops.length hle
      rwa [height_take_concat, if_pos (Nat.le_refl _), List.take_length] at hlast
    refine ⟨fun n hn => ?_, ?_⟩
    · by_cases hn' : n ≤ ops.length
      · have hthen := h n hn
        rwa [height_take_concat, if_pos hn'] at hthen
      · rwa [List.take_of_length_le (Nat.le_of_not_le hn')]
    · have hend := h (ops.length + 1) (Nat.le_succ_of_le hle)
      rwa [height_take_concat, if_neg (Nat.not_succ_le_self _)] at hend
  · rintro ⟨h, hend⟩ n hn
    rw [height_take_concat]
    split
    · exact h n hn
    · exact hend

/-- One more operation leaves the bindings of the layers that stay, and may add one in the innermost layer. -/
theorem boundAt_concat : BoundAt (ops ++ [op]) name place level value ↔
    (BoundAt ops name place level value ∧ level ≤ op.height (height ops)) ∨
      (op = .bind name value ∧ place = ops.length ∧ level = height ops) := by
  constructor
  · rintro ⟨hbinds, hlevel, hstays⟩
    have hlt := (List.getElem?_eq_some_iff.mp hbinds).1
    rw [List.length_append, List.length_singleton] at hlt
    have hle := Nat.le_of_lt_succ hlt
    obtain ⟨hstays, hend⟩ := (stays_concat hle).mp hstays
    rw [height_take_concat, if_pos hle] at hlevel
    rcases Nat.lt_or_eq_of_le hle with hlt | rfl
    · rw [List.getElem?_append_left hlt] at hbinds
      exact Or.inl ⟨⟨hbinds, hlevel, hstays⟩, hend⟩
    · rw [List.take_length] at hlevel
      exact Or.inr ⟨by simpa using hbinds, rfl, hlevel.symm⟩
  · rintro (⟨h, hend⟩ | ⟨rfl, rfl, rfl⟩)
    · have hle := Nat.le_of_lt h.place_lt
      refine ⟨by rw [List.getElem?_append_left h.place_lt, h.binds], ?_, (stays_concat hle).mpr ⟨h.stays, hend⟩⟩
      rw [height_take_concat, if_pos hle, h.level_eq]
    · refine ⟨by simp, ?_, (stays_concat (Nat.le_refl _)).mpr ⟨fun n hn => ?_, Nat.le_refl _⟩⟩
      · rw [height_take_concat, if_pos (Nat.le_refl _), List.take_length]
      · exact Nat.le_of_eq (by rw [List.take_of_length_le hn])

theorem LastBound.of_boundAt (hb : LastBound params ops name level value)
    (h : ∀ place other, BoundAt ops' name place level other ↔ BoundAt ops name place level other) :
    LastBound params ops' name level value := by
  cases hb with
  | bound hb last => exact .bound ((h _ _).mpr hb) fun later other hl => last later other ((h _ _).mp hl)
  | param hp unbound => exact .param hp fun place other hb => unbound place other ((h _ _).mp hb)

theorem lastBound_congr (h : ∀ place other, BoundAt ops' name place level other ↔ BoundAt ops name place level other) :
    LastBound params ops' name level value ↔ LastBound params ops name level value :=
  ⟨fun hb => hb.of_boundAt fun place other => (h place other).symm, fun hb => hb.of_boundAt h⟩

theorem LastBound.level_le (h : LastBound params ops name level value) : level ≤ height ops := by
  cases h with
  | bound h => exact h.level_le
  | param => exact Nat.zero_le _

/-- Pushing and popping bind nothing. -/
theorem lastBound_concat (hop : ∀ name value, op ≠ .bind name value) (hle : level ≤ op.height (height ops)) :
    LastBound params (ops ++ [op]) name level value ↔ LastBound params ops name level value := by
  refine lastBound_congr fun place other => boundAt_concat.trans ⟨?_, fun h => Or.inl ⟨h, hle⟩⟩
  rintro (⟨h, -⟩ | ⟨rfl, -⟩)
  · exact h
  · exact absurd rfl (hop _ _)

/-- A value is bound to one name in the innermost layer, and to no other and in no other layer. -/
theorem lastBound_concat_bind {bound : String} {new : Value} :
    LastBound params (ops ++ [.bind bound new]) name level value ↔
      if name = bound ∧ level = height ops then value = new else LastBound params ops name level value := by
  split
  · rename_i h
    obtain ⟨rfl, hlevel⟩ := h
    have hnew : BoundAt (ops ++ [.bind name new]) name ops.length level new :=
      boundAt_concat.mpr (Or.inr ⟨rfl, rfl, hlevel⟩)
    constructor
    · rintro (⟨h, hlast⟩ | ⟨-, hnone⟩)
      · rcases boundAt_concat.mp h with ⟨hold, -⟩ | ⟨heq, -⟩
        · exact absurd (hlast _ _ hnew) (Nat.not_le_of_lt hold.place_lt)
        · cases heq
          rfl
      · exact absurd hnew (hnone _ _)
    · rintro rfl
      refine .bound hnew fun later other hlater => ?_
      have hlt := hlater.place_lt
      rw [List.length_append, List.length_singleton] at hlt
      exact Nat.le_of_lt_succ hlt
  · rename_i h
    -- Another name, or the name in another layer, is bound where it was before.
    refine lastBound_congr fun place other => boundAt_concat.trans ⟨?_, fun hb => Or.inl ⟨hb, hb.level_le⟩⟩
    rintro (⟨hb, -⟩ | ⟨heq, -, hlevel⟩)
    · exact hb
    · cases heq
      exact absurd ⟨rfl, hlevel⟩ h

/-! ### The layers -/

/-- The layers, the outermost first. -/
def stack (s : Scope) : List Layer :=
  s.outermost :: s.inner.reverse

theorem layers_eq (s : Scope) : s.layers = s.stack.reverse := by
  simp [layers, stack]

theorem stack_push (s : Scope) : s.push.stack = s.stack ++ [[]] := by
  simp [stack, push]

theorem stack_pop (s : Scope) : s.pop.stack = s.stack.take (s.stack.length - 2 + 1) := by
  obtain ⟨inner, outermost⟩ := s
  cases inner with
  | nil => rfl
  | cons layer inner => simp [stack, pop]

theorem stack_bind (s : Scope) (name : String) (value : Value) :
    (s.bind name value).stack = s.stack.modify (s.stack.length - 1) ((name, value) :: ·) := by
  obtain ⟨inner, outermost⟩ := s
  cases inner with
  | nil => rfl
  | cons layer inner =>
    have htop : (inner.reverse ++ [layer]).modify inner.length ((name, value) :: ·) =
        inner.reverse ++ [(name, value) :: layer] := by
      rw [List.modify_eq_take_drop, List.take_left' List.length_reverse, List.drop_left' List.length_reverse]
      rfl
    simp [stack, bind, htop]

/-- The scope has the layers that are there at the end of the history, and in each the values bound last. -/
structure Follows (params : Layer) (ops : List Operation) (s : Scope) : Prop where
  length : s.stack.length = height ops + 1
  lookup : ∀ level layer, s.stack[level]? = some layer →
    ∀ name value, layer.lookup name = some value ↔ LastBound params ops name level value

theorem follows_ofParams (params : Layer) : Follows params [] (ofParams params) := by
  refine ⟨rfl, fun level layer hlayer name value => ?_⟩
  have hnone : ∀ {place level other}, ¬BoundAt [] name place level other := fun h => nomatch h.binds
  cases level with
  | zero =>
    cases hlayer
    constructor
    · exact fun h => .param h fun _ _ => hnone
    · rintro (⟨h, -⟩ | ⟨h, -⟩)
      · exact absurd h hnone
      · exact h
  | succ level => cases hlayer

namespace Follows

variable {s : Scope}

theorem push (h : Follows params ops s) : Follows params (ops ++ [.push]) s.push := by
  refine ⟨by rw [stack_push, height_concat, List.length_append, h.length]; rfl, fun level layer hlayer name value => ?_⟩
  rw [stack_push] at hlayer
  have hlevel : level ≤ height ops + 1 := by
    have hlt := (List.getElem?_eq_some_iff.mp hlayer).1
    rw [List.length_append, h.length] at hlt
    exact Nat.le_of_lt_succ hlt
  have hbinds : ∀ name value, Operation.push ≠ .bind name value := nofun
  rw [lastBound_concat hbinds hlevel]
  rcases Nat.lt_or_eq_of_le hlevel with hlt | rfl
  · rw [List.getElem?_append_left (h.length ▸ hlt)] at hlayer
    exact h.lookup level layer hlayer name value
  · rw [← h.length, List.getElem?_concat_length] at hlayer
    cases hlayer
    exact iff_of_false (by simp) fun hb => Nat.not_succ_le_self _ hb.level_le

theorem pop (h : Follows params ops s) : Follows params (ops ++ [.pop]) s.pop := by
  have hcount : s.stack.length - 2 + 1 = height ops - 1 + 1 := by
    rw [h.length]
    rfl
  refine ⟨?_, fun level layer hlayer name value => ?_⟩
  · rw [stack_pop, hcount, List.length_take, h.length, height_concat]
    exact Nat.min_eq_left (Nat.succ_le_succ (Nat.sub_le _ _))
  · rw [stack_pop, hcount, List.getElem?_take] at hlayer
    split at hlayer
    · rename_i hlt
      have hbinds : ∀ name value, Operation.pop ≠ .bind name value := nofun
      rw [lastBound_concat hbinds (Nat.le_of_lt_succ hlt)]
      exact h.lookup level layer hlayer name value
    · cases hlayer

theorem bind (h : Follows params ops s) (bound : String) (new : Value) :
    Follows params (ops ++ [.bind bound new]) (s.bind bound new) := by
  have htop : s.stack.length - 1 = height ops := by
    rw [h.length]
    rfl
  refine ⟨?_, fun level layer hlayer name value => ?_⟩
  · rw [stack_bind, List.length_modify, h.length, height_concat]
    rfl
  · rw [stack_bind, htop, List.getElem?_modify] at hlayer
    obtain ⟨before, hbefore, rfl⟩ := Option.map_eq_some_iff.mp hlayer
    have hlookup := h.lookup level before hbefore name value
    rw [lastBound_concat_bind, ← hlookup]
    by_cases hlevel : height ops = level
    · rw [if_pos hlevel, lookup_cons_eq]
      simp only [hlevel, and_true]
      split
      · exact Option.some_inj.trans eq_comm
      · rfl
    · rw [if_neg hlevel, if_neg fun hb => hlevel hb.2.symm]

theorem apply (h : Follows params ops s) (op : Operation) : Follows params (ops ++ [op]) (op.apply s) := by
  cases op with
  | push => exact h.push
  | pop => exact h.pop
  | bind name value => exact h.bind name value

end Follows

theorem follows_run (params : Layer) (ops : List Operation) : Follows params ops ((ofParams params).run ops) := by
  induction ops using List.reverseRecOn with
  | nil => exact follows_ofParams params
  | append_singleton ops op ih =>
    rw [run_concat]
    exact ih.apply op

/-- A name stands for what the innermost of the layers that bind it says. -/
theorem get?_eq_some {s : Scope} : s.get? name = some value ↔
    ∃ (level : Nat) (layer : Layer), s.stack[level]? = some layer ∧ layer.lookup name = some value ∧
      ∀ (inner : Nat) (above : Layer), level < inner → s.stack[inner]? = some above → above.lookup name = none := by
  -- The layers are searched from the last of the stack to the first.
  rw [get?, layers_eq, List.findSome?_eq_some_iff]
  constructor
  · rintro ⟨nearer, layer, farther, hstack, hlookup, hover⟩
    rw [List.reverse_eq_iff, List.reverse_append, List.reverse_cons, List.append_assoc, List.singleton_append] at hstack
    refine ⟨farther.reverse.length, layer, ?_, hlookup, fun inner above hinner habove => ?_⟩
    · rw [hstack, List.getElem?_append_right (Nat.le_refl _), Nat.sub_self]
      rfl
    refine hover above (List.mem_reverse.mp ?_)
    rw [hstack, List.getElem?_append_right (Nat.le_of_lt hinner)] at habove
    obtain ⟨n, hn⟩ : ∃ n, inner - farther.reverse.length = n + 1 := ⟨inner - farther.reverse.length - 1, by omega⟩
    rw [hn, List.getElem?_cons_succ] at habove
    exact List.mem_of_getElem? habove
  · rintro ⟨level, layer, hlayer, hlookup, hover⟩
    obtain ⟨hlt, rfl⟩ := List.getElem?_eq_some_iff.mp hlayer
    refine ⟨(s.stack.drop (level + 1)).reverse, s.stack[level], (s.stack.take level).reverse, ?_, hlookup, ?_⟩
    · rw [List.reverse_eq_iff, List.reverse_append, List.reverse_cons, List.reverse_reverse, List.reverse_reverse]
      simp
    · intro above habove
      obtain ⟨n, hn⟩ := List.mem_iff_getElem?.mp (List.mem_reverse.mp habove)
      rw [List.getElem?_drop] at hn
      exact hover _ above (by omega) hn

namespace Follows

variable {s : Scope}

theorem exists_layer (h : Follows params ops s) (hle : level ≤ height ops) : ∃ layer, s.stack[level]? = some layer :=
  ⟨_, List.getElem?_eq_getElem (h.length ▸ Nat.lt_succ_of_le hle)⟩

theorem get?_eq_some (h : Follows params ops s) : s.get? name = some value ↔
    ∃ level, LastBound params ops name level value ∧
      ∀ inner other, level < inner → ¬LastBound params ops name inner other := by
  rw [Scope.get?_eq_some]
  constructor
  · rintro ⟨level, layer, hlayer, hlookup, hover⟩
    refine ⟨level, (h.lookup level layer hlayer name value).mp hlookup, fun inner other hinner hbound => ?_⟩
    obtain ⟨above, habove⟩ := h.exists_layer hbound.level_le
    have hnone := hover inner above hinner habove
    rw [(h.lookup inner above habove name other).mpr hbound] at hnone
    cases hnone
  · rintro ⟨level, hbound, hover⟩
    obtain ⟨layer, hlayer⟩ := h.exists_layer hbound.level_le
    refine ⟨level, layer, hlayer, (h.lookup level layer hlayer name value).mpr hbound, fun inner above hinner habove => ?_⟩
    refine Option.eq_none_iff_forall_ne_some.mpr fun other hother => hover inner other hinner ?_
    exact (h.lookup inner above habove name other).mp hother

end Follows

/-! ### What a pop takes back -/

/-- Each pop among the operations takes back a push among them, and each push is taken back. -/
inductive Balanced : List Operation → Prop
  | nil : Balanced []
  | bind (name : String) (value : Value) {rest : List Operation} (h : Balanced rest) : Balanced (.bind name value :: rest)
  | layer {inside rest : List Operation} (hi : Balanced inside) (hr : Balanced rest) :
      Balanced (.push :: (inside ++ .pop :: rest))

theorem run_append (s : Scope) (ops more : List Operation) : s.run (ops ++ more) = (s.run ops).run more :=
  List.foldl_append

/-- Balanced operations change the innermost layer only. -/
theorem Balanced.run_eq (h : Balanced ops) (layer : Layer) (inner : List Layer) (outermost : Layer) :
    ∃ grown, run ⟨layer :: inner, outermost⟩ ops = ⟨grown :: inner, outermost⟩ := by
  induction h generalizing layer inner with
  | nil => exact ⟨layer, rfl⟩
  | bind name value _ ih => exact ih ((name, value) :: layer) inner
  | @layer inside rest _ _ ihi ihr =>
    obtain ⟨filled, hfilled⟩ := ihi [] (layer :: inner)
    obtain ⟨grown, hgrown⟩ := ihr layer inner
    refine ⟨grown, ?_⟩
    calc run ⟨layer :: inner, outermost⟩ (.push :: (inside ++ .pop :: rest))
      _ = run (run ⟨[] :: layer :: inner, outermost⟩ inside) (.pop :: rest) := run_append _ inside _
      _ = run ⟨layer :: inner, outermost⟩ rest := by rw [hfilled]; rfl
      _ = ⟨grown :: inner, outermost⟩ := hgrown

/-- A push and its pop leave the scope as it was, whatever balanced operations are between them. -/
theorem Balanced.run_push_pop (h : Balanced ops) (s : Scope) : s.run (.push :: (ops ++ [.pop])) = s := by
  obtain ⟨grown, hgrown⟩ := h.run_eq [] s.inner s.outermost
  calc s.run (.push :: (ops ++ [.pop]))
    _ = (run ⟨[] :: s.inner, s.outermost⟩ ops).run [.pop] := run_append _ ops _
    _ = s := by rw [hgrown]; rfl

theorem pop_of_depth {s : Scope} (h : s.depth = 1) : s.pop = s := by
  obtain ⟨inner, outermost⟩ := s
  cases inner with
  | nil => rfl
  | cons layer inner => simp [depth, layers] at h

/-- A new scope stays a stack of layers, whatever is done to it. The outermost layer is never popped; a name stands
    for the value bound to it last in the innermost of the layers that bind it; and what is done between a push and
    its pop makes no difference to any name or path behind the pop. -/
theorem run_is_stack (params : Layer) (ops : List Operation) {s : Scope} (h : (ofParams params).run ops = s) :
    (1 ≤ s.depth ∧ s.depth = height ops + 1) ∧ (s.depth = 1 → s.pop = s) ∧
      (∀ name value, s.get? name = some value ↔ ∃ level, LastBound params ops name level value ∧
        ∀ inner other, level < inner → ¬LastBound params ops name inner other) ∧
      ∀ inside, Balanced inside → (∀ name, (s.run (.push :: (inside ++ [.pop]))).get? name = s.get? name) ∧
        ∀ path, (s.run (.push :: (inside ++ [.pop]))).lookup? path = s.lookup? path := by
  have hs : Follows params ops s := h ▸ follows_run params ops
  have hdepth : s.depth = height ops + 1 := by
    rw [depth, layers_eq, List.length_reverse, hs.length]
  refine ⟨⟨hdepth ▸ Nat.succ_pos _, hdepth⟩, pop_of_depth, fun name value => hs.get?_eq_some, fun inside hi => ?_⟩
  rw [hi.run_push_pop s]
  exact ⟨fun _ => rfl, fun _ => rfl⟩

/-- A surplus pop, a layer with a title of its own, and a further layer that has been popped again. -/
def titleHistory : List Operation :=
  [.pop, .push, .bind "title" (.text "Section"), .push, .bind "title" (.text "Aside"), .bind "part" (.text "1"), .pop,
    .bind "title" (.text "Chapter")]

def titleScope : Scope :=
  ⟨[[("title", .text "Chapter"), ("title", .text "Section")]], [("title", .text "Page")]⟩

theorem chapter_title_stands :
    (ofParams [("title", .text "Page")]).run titleHistory = titleScope ∧ titleScope.depth = height titleHistory + 1 ∧
      (∃ level, LastBound [("title", .text "Page")] titleHistory "title" level (.text "Chapter") ∧
        ∀ inner other, level < inner → ¬LastBound [("title", .text "Page")] titleHistory "title" inner other) ∧
      (∀ name, (titleScope.run [.push, .bind "title" (.text "Note"), .push, .pop, .pop]).get? name =
        titleScope.get? name) ∧
      titleScope.pop.pop = titleScope.pop := by
  obtain ⟨⟨-, hdepth⟩, -, hget, hrestore⟩ := run_is_stack [("title", .text "Page")] titleHistory (s := titleScope) rfl
  have hinside : Balanced [.bind "title" (.text "Note"), .push, .pop] := .bind _ _ (.layer .nil .nil)
  obtain ⟨-, hpop, -⟩ := run_is_stack [("title", .text "Page")] (titleHistory ++ [.pop]) (s := titleScope.pop) rfl
  exact ⟨rfl, hdepth, (hget _ _).mp rfl, (hrestore _ hinside).1, hpop rfl⟩

end Scope
end Letterpress
