import Letterpress.Path
import Mathlib.Data.List.Basic

/-! The parts of a path that is put together: those of the base come first, those of the path seen from it
    follow. The steps that the path takes follow each other in the same way. -/

namespace Letterpress
namespace Text

variable {isSeparator : Char → Bool}

theorem splitChars_append {c : Char} (hc : isSeparator c = true) (front rest : List Char) :
    splitChars isSeparator (front ++ c :: rest) = splitChars isSeparator front ++ splitChars isSeparator rest := by
  induction front with
  | nil => simp [splitChars, hc]
  | cons d front ih =>
    by_cases hd : isSeparator d = true
    · simp [splitChars, hd, ih]
    · cases hf : splitChars isSeparator front with
      | nil => exact absurd hf (splitChars_ne_nil _ front)
      | cons part parts => simp [splitChars, hd, ih, hf]

theorem not_mem_of_mem_splitChars {cs part : List Char} (h : part ∈ splitChars isSeparator cs) :
    ∀ c ∈ part, isSeparator c = false := by
  induction cs generalizing part with
  | nil =>
    rw [splitChars, List.mem_singleton] at h
    exact h ▸ List.forall_mem_nil _
  | cons c cs ih =>
    unfold splitChars at h
    split at h
    · rcases List.mem_cons.mp h with rfl | h
      · exact List.forall_mem_nil _
      · exact ih h
    · rename_i hc
      rw [Bool.not_eq_true] at hc
      split at h
      · rw [List.mem_singleton] at h
        exact h ▸ List.forall_mem_singleton.mpr hc
      · rename_i first parts hparts
        rcases List.mem_cons.mp h with rfl | h
        · exact List.forall_mem_cons.mpr ⟨hc, ih (hparts ▸ List.mem_cons_self)⟩
        · exact ih (hparts ▸ List.mem_cons_of_mem _ h)

theorem splitChars_of_free {cs : List Char} (h : ∀ c ∈ cs, isSeparator c = false) : splitChars isSeparator cs = [cs] := by
  induction cs with
  | nil => rfl
  | cons c cs ih =>
    obtain ⟨hc, hcs⟩ := List.forall_mem_cons.mp h
    simp [splitChars, hc, ih hcs]

/-- The separators at the start of a text have only empty parts before them. -/
theorem splitChars_dropWhile (cs : List Char) :
    ∃ n, splitChars isSeparator cs = List.replicate n [] ++ splitChars isSeparator (cs.dropWhile isSeparator) := by
  induction cs with
  | nil => exact ⟨0, rfl⟩
  | cons c cs ih =>
    by_cases hc : isSeparator c = true
    · obtain ⟨n, ih⟩ := ih
      refine ⟨n + 1, ?_⟩
      rw [splitChars, if_pos hc, List.dropWhile_cons_of_pos hc, ih, List.replicate_succ, List.cons_append]
    · exact ⟨0, by rw [List.dropWhile_cons_of_neg hc]; rfl⟩

end Text

namespace Path

theorem isIdle_eq_false {part : String} : isIdle part = false ↔ part ≠ "" ∧ part ≠ "." := by
  rw [isIdle, Bool.or_eq_false_iff, beq_eq_false_iff_ne, beq_eq_false_iff_ne]

theorem ofPart?_eq_none {part : String} : Component.ofPart? part = none ↔ isIdle part = true := by
  unfold Component.ofPart?
  split
  · exact iff_of_true rfl rfl
  · exact iff_of_true rfl rfl
  · exact iff_of_false nofun nofun
  · rename_i hempty hdot _
    rw [isIdle_eq_false.mpr ⟨hempty, hdot⟩]
    exact iff_of_false nofun nofun

/-- Two dots lead to the parent directory, and every other part that is not idle is a name. -/
theorem ofPart?_eq_some {part : String} {step : Component} : Component.ofPart? part = some step ↔
    part = ".." ∧ step = .parent ∨ isIdle part = false ∧ part ≠ ".." ∧ step = .name part := by
  by_cases hidle : isIdle part = true
  · rw [ofPart?_eq_none.mpr hidle, hidle]
    refine iff_of_false nofun ?_
    rintro (⟨rfl, -⟩ | ⟨⟨⟩, -⟩)
    cases hidle
  · rw [Bool.not_eq_true] at hidle
    obtain ⟨hempty, hdot⟩ := isIdle_eq_false.mp hidle
    unfold Component.ofPart?
    split
    · exact absurd rfl hempty
    · exact absurd rfl hdot
    · constructor
      · rintro ⟨⟩
        exact Or.inl ⟨rfl, rfl⟩
      · rintro (⟨-, rfl⟩ | ⟨-, hup, -⟩)
        · rfl
        · exact absurd rfl hup
    · rename_i hup
      constructor
      · rintro ⟨⟩
        exact Or.inr ⟨hidle, hup, rfl⟩
      · rintro (⟨heq, -⟩ | ⟨-, -, rfl⟩)
        · exact absurd heq hup
        · rfl

/-- A name that an entry of a directory can have. -/
def IsName (name : String) : Prop :=
  name ≠ "" ∧ name ≠ "." ∧ name ≠ ".." ∧ '/' ∉ name.toList

instance (name : String) : Decidable (IsName name) :=
  inferInstanceAs (Decidable (_ ∧ _))

namespace IsName

variable {name : String}

theorem not_idle (h : IsName name) : isIdle name = false :=
  isIdle_eq_false.mpr ⟨h.1, h.2.1⟩

theorem ofPart?_eq (h : IsName name) : Component.ofPart? name = some (.name name) :=
  ofPart?_eq_some.mpr (Or.inr ⟨h.not_idle, h.2.2.1, rfl⟩)

end IsName

/-! ### Parts -/

theorem parts_ne_nil (path : String) : parts path ≠ [] := by
  simpa [parts, Text.split] using Text.splitChars_ne_nil _ _

theorem free_of_mem_parts {path part : String} (h : part ∈ parts path) : '/' ∉ part.toList := by
  obtain ⟨cs, hcs, rfl⟩ := List.mem_map.mp h
  intro hc
  rw [String.toList_ofList] at hc
  simpa using Text.not_mem_of_mem_splitChars hcs '/' hc

theorem parts_of_free {path : String} (h : '/' ∉ path.toList) : parts path = [path] := by
  have hfree : ∀ c ∈ path.toList, (c == '/') = false := fun c hc => beq_eq_false_iff_ne.mpr fun heq => h (heq ▸ hc)
  simp [parts, Text.split, Text.splitChars_of_free hfree]

theorem parts_append (front rest : String) : parts (front ++ "/" ++ rest) = parts front ++ parts rest := by
  have hlist : (front ++ "/" ++ rest).toList = front.toList ++ '/' :: rest.toList := by simp
  rw [parts, parts, parts, Text.split, Text.split, Text.split, hlist, Text.splitChars_append (by rfl), List.map_append]

theorem parts_ofParts {names : List String} (hne : names ≠ []) (h : ∀ name ∈ names, '/' ∉ name.toList) :
    parts (ofParts names) = names := by
  induction names with
  | nil => exact absurd rfl hne
  | cons name names ih =>
    obtain ⟨hname, hnames⟩ := List.forall_mem_cons.mp h
    cases names with
    | nil => exact parts_of_free hname
    | cons next names =>
      have hcons : ofParts (name :: next :: names) = name ++ "/" ++ ofParts (next :: names) := by
        simp [ofParts, String.intercalate_cons_cons]
      rw [hcons, parts_append, parts_of_free hname, ih (List.cons_ne_nil _ _) hnames, List.singleton_append]

/-- Only the empty path has no part but an empty one, and only absolute paths have another behind it. -/
theorem isAbsolute_eq {path first : String} {rest : List String} (hp : parts path = first :: rest) :
    isAbsolute path = (first.isEmpty && !rest.isEmpty) ∧ (first = "" → rest = [] → path = "") := by
  unfold parts Text.split at hp
  unfold isAbsolute
  cases hcs : path.toList with
  | nil =>
    have hpath : path = "" := String.toList_injective hcs
    rw [hcs, Text.splitChars, List.map_singleton] at hp
    cases hp
    exact ⟨rfl, fun _ _ => hpath⟩
  | cons c cs =>
    rw [hcs, Text.splitChars] at hp
    by_cases hc : c = '/'
    · obtain ⟨part, parts, hparts⟩ := List.exists_cons_of_ne_nil (Text.splitChars_ne_nil (· == '/') cs)
      simp only [hc, hparts, beq_self_eq_true, if_true, List.map_cons] at hp
      cases hp
      simp [hc]
    · obtain ⟨part, parts, hparts⟩ := List.exists_cons_of_ne_nil (Text.splitChars_ne_nil (· == '/') cs)
      simp only [hparts, beq_iff_eq, hc, if_false, List.map_cons] at hp
      cases hp
      have hne : String.ofList (c :: part) ≠ "" := fun h => List.cons_ne_nil c part (String.ofList_injective h)
      have hempty : (String.ofList (c :: part)).isEmpty = false :=
        Bool.eq_false_iff.mpr fun h => hne (String.isEmpty_iff.mp h)
      refine ⟨?_, fun h => absurd h hne⟩
      rw [hempty, Bool.false_and]
      exact beq_eq_false_iff_ne.mpr fun h => hc (Option.some.inj h)

/-- The parts of the base come before those of the path, without the empty one behind a slash at its end. -/
theorem parts_join {base path : String} (hb : base ≠ "") (hp : isAbsolute path = false) :
    ∃ trunk, trunk ≠ [] ∧ (parts base = trunk ∨ parts base = trunk ++ [""]) ∧
      parts (join base path) = trunk ++ parts path := by
  have hempty : base.isEmpty = false := by simpa using hb
  simp only [join, hp, hempty, Bool.or_self, Bool.false_eq_true, if_false]
  split
  · rename_i hlast
    obtain ⟨cs, hcs⟩ := List.getLast?_eq_some_iff.mp hlast
    have hbase : base = String.ofList cs ++ "/" ++ "" := String.toList_injective (by simp [hcs])
    have hpath : base ++ path = String.ofList cs ++ "/" ++ path := String.toList_injective (by simp [hcs])
    refine ⟨parts (String.ofList cs), parts_ne_nil _, Or.inr ?_, ?_⟩
    · conv_lhs => rw [hbase, parts_append]
      rfl
    · rw [hpath, parts_append]
  · exact ⟨parts base, parts_ne_nil _, Or.inl rfl, parts_append base path⟩

/-- The parts that lead somewhere. -/
def named (ps : List String) : List String :=
  ps.filter (!isIdle ·)

theorem named_append (front rest : List String) : named (front ++ rest) = named front ++ named rest :=
  List.filter_append ..

theorem named_trunk {ps trunk : List String} (h : ps = trunk ∨ ps = trunk ++ [""]) : named ps = named trunk := by
  rcases h with rfl | rfl
  · rfl
  · rw [named_append]
    exact List.append_nil _

theorem join_empty (path : String) : join "" path = path := by
  simp [join]

theorem isAbsolute_join {base path : String} (hb : base ≠ "") (hp : isAbsolute path = false) :
    isAbsolute (join base path) = isAbsolute base := by
  have hempty : base.isEmpty = false := Bool.eq_false_iff.mpr fun h => hb (String.isEmpty_iff.mp h)
  have hlist : base.toList ≠ [] := fun h => hb (String.toList_injective h)
  simp only [join, hp, hempty, Bool.or_self, Bool.false_eq_true, if_false]
  split
  · simp [isAbsolute, List.head?_append_of_ne_nil _ hlist]
  · simp [isAbsolute, List.head?_append_of_ne_nil _ hlist]

theorem named_join {base path : String} (hp : isAbsolute path = false) :
    named (parts (join base path)) = named (parts base) ++ named (parts path) := by
  by_cases hb : base = ""
  · rw [hb, join_empty]
    rfl
  · obtain ⟨trunk, -, hbase, hjoin⟩ := parts_join hb hp
    rw [hjoin, named_append, named_trunk hbase]

/-- The path goes on from the base by some names. -/
structure Continues (base : String) (names : List String) (path : String) : Prop where
  absolute : isAbsolute path = isAbsolute base
  named : named (parts path) = named (parts base) ++ names

theorem continues_refl (base : String) : Continues base [] base :=
  ⟨rfl, (List.append_nil _).symm⟩

theorem continues_join {base path : String} (hp : isAbsolute path = false) :
    Continues base (named (parts path)) (join base path) := by
  refine ⟨?_, named_join hp⟩
  by_cases hb : base = ""
  · rw [hb, join_empty, hp]
    rfl
  · exact isAbsolute_join hb hp

theorem Continues.named_names {base path : String} {names : List String} (h : Continues base names path) :
    Path.named names = names := by
  refine List.filter_eq_self.mpr fun name hm => ?_
  have hm' : name ∈ Path.named (parts path) := h.named ▸ List.mem_append_right _ hm
  exact (List.mem_filter.mp hm').2

/-! ### Steps -/

/-- The step that the first part of a path takes. -/
def Component.ofFirst : String → List Component
  | "" => [.root]
  | "." => [.here]
  | part => (ofPart? part).toList

/-- A part that takes a step takes the same one in front. -/
theorem ofFirst_of_not_idle {part : String} (h : isIdle part = false) :
    Component.ofFirst part = (Component.ofPart? part).toList := by
  unfold Component.ofFirst
  split
  · cases h
  · cases h
  · rfl

/-- What the step of the first part is: one that only a first part takes, or the one that it takes anywhere. -/
inductive FirstStep : String → Component → Prop
  | root : FirstStep "" .root
  | here : FirstStep "." .here
  | part {first : String} {step : Component} (h : Component.ofPart? first = some step) : FirstStep first step

theorem exists_firstStep (first : String) : ∃ step, Component.ofFirst first = [step] ∧ FirstStep first step := by
  unfold Component.ofFirst
  split
  · exact ⟨.root, rfl, .root⟩
  · exact ⟨.here, rfl, .here⟩
  · rename_i hempty hdot
    have hidle : ¬isIdle first = true := Bool.eq_false_iff.mp (isIdle_eq_false.mpr ⟨hempty, hdot⟩)
    obtain ⟨step, hstep⟩ := Option.ne_none_iff_exists'.mp (mt ofPart?_eq_none.mp hidle)
    exact ⟨step, by rw [hstep, Option.toList_some], .part hstep⟩

theorem components_eq {path first : String} {rest : List String} (hp : parts path = first :: rest)
    (hne : first = "" → rest ≠ []) : components path = Component.ofFirst first ++ rest.filterMap Component.ofPart? := by
  unfold components
  rw [hp]
  split
  · rename_i h
    cases h
  · rename_i h
    cases h
    exact absurd rfl (hne rfl)
  · rename_i h
    cases h
    rfl
  · rename_i h
    cases h
    rfl
  · rename_i hroot hhere h
    cases h
    rw [ofFirst_of_not_idle (isIdle_eq_false.mpr ⟨hroot, hhere⟩), List.filterMap_cons]
    cases Component.ofPart? first <;> rfl

theorem components_trunk {path first : String} {more : List String} (hne : path ≠ "")
    (hp : parts path = first :: more ∨ parts path = first :: more ++ [""]) :
    components path = Component.ofFirst first ++ more.filterMap Component.ofPart? := by
  rcases hp with hp | hp
  · exact components_eq hp fun hf hm => hne ((isAbsolute_eq hp).2 hf hm)
  · rw [List.cons_append] at hp
    rw [components_eq hp fun _ => List.append_ne_nil_of_right_ne_nil _ (List.cons_ne_nil _ _)]
    simp [Component.ofPart?]

theorem components_join {base path : String} (hb : base ≠ "") (hp : isAbsolute path = false) :
    components (join base path) = components base ++ (parts path).filterMap Component.ofPart? := by
  obtain ⟨trunk, hne, hbase, hjoin⟩ := parts_join hb hp
  obtain ⟨first, more, rfl⟩ := List.exists_cons_of_ne_nil hne
  rw [List.cons_append] at hjoin
  rw [components_eq hjoin fun _ => List.append_ne_nil_of_right_ne_nil _ (parts_ne_nil path), components_trunk hb hbase,
    List.filterMap_append, List.append_assoc]

theorem filterMap_ofPart?_named (ps : List String) :
    (named ps).filterMap Component.ofPart? = ps.filterMap Component.ofPart? := by
  rw [named, List.filterMap_filter]
  refine List.filterMap_congr fun part _ => ?_
  by_cases hidle : isIdle part = true
  · rcases Bool.or_eq_true_iff.mp hidle with h | h
    · rw [eq_of_beq h]
      rfl
    · rw [eq_of_beq h]
      rfl
  · simp [hidle]

end Path
end Letterpress
