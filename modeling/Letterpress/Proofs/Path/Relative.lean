import Letterpress.Proofs.Path.Parts
import Mathlib.Data.List.TakeWhile

/-! Relative paths, those that stay under a root directory, and the parts at both ends of a path. -/

namespace Letterpress
namespace Path

variable {path base name : String} {names : List String}

theorem IsName.not_absolute (h : IsName name) : isAbsolute name = false := by
  rw [(isAbsolute_eq (parts_of_free h.2.2.2)).1]
  exact Bool.and_false _

theorem IsName.ne_up (h : ∀ name ∈ names, IsName name) : ".." ∉ names :=
  fun hm => (h _ hm).2.2.1 rfl

/-! ### Names at the end -/

theorem not_of_dropWhile {α : Type} {p : α → Bool} {as rest : List α} {a : α} (h : as.dropWhile p = a :: rest) :
    p a = false := by
  have hfirst := List.head?_dropWhile_not p as
  rw [h] at hfirst
  exact hfirst

theorem named_dropWhile (ps : List String) : named (ps.dropWhile isIdle) = named ps := by
  induction ps with
  | nil => rfl
  | cons part ps ih =>
    by_cases hidle : isIdle part = true
    · have hnamed : named (part :: ps) = named ps := by simp [named, hidle]
      rw [List.dropWhile_cons, if_pos hidle, ih, hnamed]
    · rw [List.dropWhile_cons, if_neg hidle]

theorem named_reverse (ps : List String) : named ps.reverse = (named ps).reverse :=
  List.filter_reverse ..

/-- The steps of a path end with those of its parts. -/
theorem components_named (path : String) :
    ∃ front, components path = front ++ (named (parts path)).filterMap Component.ofPart? := by
  obtain ⟨first, rest, hp⟩ := List.exists_cons_of_ne_nil (parts_ne_nil path)
  by_cases hempty : first = "" ∧ rest = []
  · obtain ⟨rfl, rfl⟩ := hempty
    refine ⟨[], ?_⟩
    rw [components, hp]
    rfl
  · rw [components_eq hp fun hf hr => hempty ⟨hf, hr⟩, hp, filterMap_ofPart?_named]
    by_cases hidle : isIdle first = true
    · refine ⟨Component.ofFirst first, ?_⟩
      rcases Bool.or_eq_true_iff.mp hidle with h | h
      · rw [eq_of_beq h]
        rfl
      · rw [eq_of_beq h]
        rfl
    · refine ⟨[], ?_⟩
      rw [ofFirst_of_not_idle (Bool.not_eq_true _ ▸ hidle), List.filterMap_cons]
      cases Component.ofPart? first <;> rfl

theorem fileName?_of_named {front : List String} (h : named (parts path) = front ++ [name]) (hn : IsName name) :
    fileName? path = some name := by
  obtain ⟨start, hstart⟩ := components_named path
  have hlast : (components path).getLast? = some (.name name) := by
    rw [hstart, h, List.filterMap_append, List.filterMap_cons, hn.ofPart?_eq]
    simp
  rw [fileName?, hlast]

/-! ### Paths seen from a root directory -/

theorem not_isAbsolute_relative (path : String) : isAbsolute (relative path) = false := by
  rw [isAbsolute, relative, String.toList_ofList, beq_eq_false_iff_ne]
  intro hhead
  obtain ⟨rest, hrest⟩ := List.head?_eq_some_iff.mp hhead
  cases not_of_dropWhile hrest

/-- Without the slashes at its start a path has the same parts, but for the empty ones before these. -/
theorem parts_relative (path : String) : ∃ n, parts path = List.replicate n "" ++ parts (relative path) := by
  obtain ⟨n, h⟩ := @Text.splitChars_dropWhile (· == '/') path.toList
  refine ⟨n, ?_⟩
  rw [parts, parts, Text.split, Text.split, relative, String.toList_ofList, h, List.map_append, List.map_replicate]

theorem up_mem_parts_relative : ".." ∈ parts (relative path) ↔ ".." ∈ parts path := by
  obtain ⟨n, h⟩ := parts_relative path
  simp [h]

theorem ofPart?_eq_parent {part : String} : Component.ofPart? part = some .parent ↔ part = ".." := by
  rw [ofPart?_eq_some]
  simp

theorem ofPart?_ne_root (part : String) : Component.ofPart? part ≠ some .root := by
  intro h
  rcases ofPart?_eq_some.mp h with ⟨-, ⟨⟩⟩ | ⟨-, -, ⟨⟩⟩

theorem parent_mem_ofFirst {first : String} : .parent ∈ Component.ofFirst first ↔ first = ".." := by
  obtain ⟨step, hfirst, hstep⟩ := exists_firstStep first
  rw [hfirst, List.mem_singleton]
  cases hstep with
  | root => exact iff_of_false nofun nofun
  | here => exact iff_of_false nofun (by decide)
  | part h => rw [← ofPart?_eq_parent, h, Option.some_inj, eq_comm]

theorem root_mem_ofFirst {first : String} : .root ∈ Component.ofFirst first ↔ first = "" := by
  obtain ⟨step, hfirst, hstep⟩ := exists_firstStep first
  rw [hfirst, List.mem_singleton]
  cases hstep with
  | root => exact iff_of_true rfl rfl
  | here => exact iff_of_false nofun nofun
  | part h =>
    refine iff_of_false (fun heq => ofPart?_ne_root first (heq ▸ h)) ?_
    rintro rfl
    cases h

/-- Only parts of two dots lead to a parent directory. -/
theorem parent_mem_components : .parent ∈ components path ↔ ".." ∈ parts path := by
  by_cases hne : path = ""
  · subst hne
    decide
  · obtain ⟨first, rest, hp⟩ := List.exists_cons_of_ne_nil (parts_ne_nil path)
    have hrest : .parent ∈ rest.filterMap Component.ofPart? ↔ ".." ∈ rest := by
      simp only [List.mem_filterMap, ofPart?_eq_parent, exists_eq_right]
    rw [components_trunk hne (Or.inl hp), hp, List.mem_append, parent_mem_ofFirst, hrest, List.mem_cons, eq_comm]

/-- Only absolute paths lead to the root of the file system. -/
theorem root_mem_components : .root ∈ components path ↔ isAbsolute path = true := by
  by_cases hne : path = ""
  · subst hne
    decide
  · obtain ⟨first, rest, hp⟩ := List.exists_cons_of_ne_nil (parts_ne_nil path)
    have hrest : .root ∉ rest.filterMap Component.ofPart? := by
      simp [ofPart?_ne_root]
    have hsome : first = "" → rest ≠ [] := fun hf hr => hne ((isAbsolute_eq hp).2 hf hr)
    rw [components_trunk hne (Or.inl hp), (isAbsolute_eq hp).1, List.mem_append, or_iff_left hrest, root_mem_ofFirst]
    simpa using hsome

/-- A path is refused if a part of it leads to a parent directory, and else seen from the root. -/
theorem joinUnder_eq (root path : String) :
    joinUnder root path = if ".." ∈ parts path then none else some (join root (relative path)) := by
  unfold joinUnder
  by_cases hup : ".." ∈ parts path
  · have hparent : .parent ∈ components (relative path) := parent_mem_components.mpr (up_mem_parts_relative.mpr hup)
    rw [if_pos hup, if_neg]
    exact fun hall => nomatch List.all_eq_true.mp hall _ hparent
  · rw [if_neg hup, if_pos]
    refine List.all_eq_true.mpr fun step hstep => ?_
    cases step with
    | root => cases (not_isAbsolute_relative path).symm.trans (root_mem_components.mp hstep)
    | parent => exact absurd (up_mem_parts_relative.mp (parent_mem_components.mp hstep)) hup
    | here => rfl
    | name => rfl

/-- The path is a relative one seen from the root, and no part of that one leads to a parent directory. -/
def StaysUnder (root path : String) : Prop :=
  ∃ inner, isAbsolute inner = false ∧ ".." ∉ parts inner ∧ path = join root inner

theorem staysUnder_of_joinUnder {root full : String} (h : joinUnder root path = some full) : StaysUnder root full := by
  rw [joinUnder_eq] at h
  split at h
  · cases h
  · rename_i hup
    cases h
    exact ⟨relative path, not_isAbsolute_relative path, mt up_mem_parts_relative.mp hup, rfl⟩

/-- A path that stays under a root directory goes down from it. -/
theorem StaysUnder.continues {root full : String} (h : StaysUnder root full) :
    ∃ names, ".." ∉ names ∧ Continues root names full := by
  obtain ⟨inner, hrel, hup, rfl⟩ := h
  exact ⟨named (parts inner), fun hm => hup (List.mem_of_mem_filter hm), continues_join hrel⟩

/-- What is asked of a path seen from a root directory is asked of one that stays under it. -/
theorem any_joinUnder_congr {root : String} {f g : String → Bool} (h : ∀ full, StaysUnder root full → f full = g full) :
    (joinUnder root path).any f = (joinUnder root path).any g := by
  cases hjoin : joinUnder root path with
  | none => rfl
  | some full => exact h full (staysUnder_of_joinUnder hjoin)

/-! ### The last part and the first one -/

theorem named_cons {part : String} (h : isIdle part = false) (ps : List String) : named (part :: ps) = part :: named ps := by
  simp [named, h]

/-- Without the last part that leads somewhere the others are left. -/
theorem named_before_last {ps before : List String} {last : String} (h : ps.reverse.dropWhile isIdle = last :: before) :
    named ps = named (before.dropWhile isIdle).reverse ++ [last] := by
  have hreverse : named ps.reverse = last :: named before := by
    rw [← named_dropWhile, h, named_cons (not_of_dropWhile h)]
  rw [named_reverse, List.reverse_eq_iff] at hreverse
  rw [hreverse, named_reverse, named_dropWhile, List.reverse_cons]

end Path
end Letterpress
