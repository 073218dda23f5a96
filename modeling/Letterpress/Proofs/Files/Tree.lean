import Letterpress.FileTree
import Letterpress.Proofs.Table
import Mathlib.Data.List.Infix

/-! What stands at the places of a file tree when directories are made in it and files are put into it. Only
    the places on the way change, and no directory becomes a file or a file a directory. -/

namespace Letterpress
namespace FileTree

variable {tree tree' : FileTree} {place names : List String} {content : ByteArray}

/-- A directory stands at the place. -/
def IsDirectoryAt (tree : FileTree) (place : List String) : Prop :=
  ∃ entries, tree.at? place = some (directory entries)

/-- A file stands at the place. -/
def IsFileAt (tree : FileTree) (place : List String) : Prop :=
  ∃ content, tree.at? place = some (file content)

/-- The bytes of the file at a place. -/
def fileAt? (tree : FileTree) (place : List String) : Option ByteArray :=
  match tree.at? place with
  | some (file content) => some content
  | _ => none

theorem fileAt?_eq_some : tree.fileAt? place = some content ↔ tree.at? place = some (file content) := by
  unfold fileAt?
  split
  · rename_i h
    simp [h]
  · rename_i h
    exact ⟨nofun, fun heq => absurd heq (h content)⟩

theorem not_isFileAt_of_isDirectoryAt (h : tree.IsDirectoryAt place) : ¬tree.IsFileAt place := by
  rintro ⟨content, hf⟩
  obtain ⟨entries, hd⟩ := h
  cases hd.symm.trans hf

theorem fileAt?_eq_none_of_isDirectoryAt (h : tree.IsDirectoryAt place) : tree.fileAt? place = none := by
  obtain ⟨entries, hd⟩ := h
  simp [fileAt?, hd]

theorem isDirectoryAt_or_isFileAt {found : FileTree} (h : tree.at? place = some found) :
    tree.IsDirectoryAt place ∨ tree.IsFileAt place := by
  cases found with
  | file content => exact Or.inr ⟨content, h⟩
  | directory entries => exact Or.inl ⟨entries, h⟩

/-! ### Places -/

@[simp] theorem at?_nil : tree.at? [] = some tree := by
  cases tree <;> rfl

theorem at?_cons {entries : List (String × FileTree)} {name : String} :
    (directory entries).at? (name :: names) = (entries.lookup name).bind (·.at? names) := by
  rw [at?]
  cases entries.lookup name <;> rfl

theorem at?_append (tree : FileTree) (place names : List String) :
    tree.at? (place ++ names) = (tree.at? place).bind (·.at? names) := by
  induction place generalizing tree with
  | nil => simp
  | cons name place ih =>
    cases tree with
    | file content => rfl
    | directory entries =>
      rw [List.cons_append, at?_cons, at?_cons]
      cases entries.lookup name with
      | none => rfl
      | some inner => exact ih inner

theorem isDirectoryAt_of_append {found : FileTree} (h : tree.at? (place ++ names) = some found) (hne : names ≠ []) :
    tree.IsDirectoryAt place := by
  rw [at?_append] at h
  obtain ⟨inner, hi, h⟩ := Option.bind_eq_some_iff.mp h
  cases inner with
  | directory entries => exact ⟨entries, hi⟩
  | file content =>
    obtain ⟨name, names, rfl⟩ := List.exists_cons_of_ne_nil hne
    cases h

/-- A place lies in directories only. -/
theorem isDirectoryAt_of_prefix {q : List String} {found : FileTree} (h : tree.at? place = some found)
    (hq : q <+: place) (hne : q ≠ place) : tree.IsDirectoryAt q := by
  obtain ⟨names, rfl⟩ := hq
  exact isDirectoryAt_of_append h fun hnil => hne (by rw [hnil, List.append_nil])

/-! ### Entries -/

theorem lookup_putEntry {name key : String} {entries : List (String × FileTree)} :
    (putEntry name tree entries).lookup key = if key = name then some tree else entries.lookup key := by
  induction entries with
  | nil => rw [putEntry, lookup_cons_eq]
  | cons other entries ih =>
    obtain ⟨other, found⟩ := other
    unfold putEntry
    split
    · rename_i ho
      cases ho
      simp only [lookup_cons_eq]
      split <;> rfl
    · rename_i ho
      simp only [lookup_cons_eq, ih]
      by_cases hk : key = other
      · rw [if_pos hk, if_pos hk, if_neg (hk ▸ ho)]
      · rw [if_neg hk, if_neg hk]

theorem putEntry_self {name : String} {entries : List (String × FileTree)} (h : entries.lookup name = some tree) :
    putEntry name tree entries = entries := by
  induction entries with
  | nil => cases h
  | cons other entries ih =>
    obtain ⟨other, found⟩ := other
    unfold putEntry
    rw [lookup_cons_eq] at h
    by_cases ho : name = other
    · rw [if_pos ho] at h
      cases h
      rw [if_pos ho.symm, ho]
    · rw [if_neg ho] at h
      rw [if_neg (Ne.symm ho), ih h]

theorem at?_putEntry {entries : List (String × FileTree)} {name key : String} :
    (directory (putEntry name tree entries)).at? (key :: place) =
      if key = name then tree.at? place else (directory entries).at? (key :: place) := by
  rw [at?_cons, at?_cons, lookup_putEntry]
  split <;> rfl

/-- An entry that agrees with the one before, apart from some names in it, makes no difference apart from these names
    under its own. -/
theorem at?_putEntry_apart {entries : List (String × FileTree)} {name : String}
    (h : ∀ q, ¬q <+: names → tree.at? q = (entries.lookup name).bind (·.at? q)) {q : List String}
    (hq : ¬q <+: name :: names) : (directory (putEntry name tree entries)).at? q = (directory entries).at? q := by
  cases q with
  | nil => exact absurd List.nil_prefix hq
  | cons key q =>
    rw [at?_putEntry, at?_cons]
    split
    · rename_i hk
      rw [hk, h q fun hq' => hq (List.cons_prefix_cons.mpr ⟨hk, hq'⟩)]
    · rfl

/-! ### Directories -/

theorem at?_makeDirectories (h : makeDirectories names tree = some tree') {q : List String} (hq : ¬q <+: names) :
    tree'.at? q = tree.at? q := by
  fun_induction makeDirectories names tree generalizing tree' q with
  | case1 entries =>
    cases h
    rfl
  | case2 name names entries ih =>
    obtain ⟨inner', hinner, rfl⟩ := Option.map_eq_some_iff.mp h
    refine at?_putEntry_apart (fun q hq => ?_) hq
    rw [ih hinner hq]
    cases entries.lookup name with
    | some inner => rfl
    | none =>
      obtain ⟨first, rest, rfl⟩ := List.exists_cons_of_ne_nil (fun hnil => hq (hnil ▸ List.nil_prefix) : q ≠ [])
      rfl
  | case3 names content => cases h

theorem isDirectoryAt_makeDirectories (h : makeDirectories names tree = some tree') {q : List String}
    (hq : q <+: names) : tree'.IsDirectoryAt q := by
  fun_induction makeDirectories names tree generalizing tree' q with
  | case1 entries =>
    cases h
    rw [List.prefix_nil.mp hq]
    exact ⟨entries, at?_nil⟩
  | case2 name names entries ih =>
    obtain ⟨inner', hinner, rfl⟩ := Option.map_eq_some_iff.mp h
    cases q with
    | nil => exact ⟨_, at?_nil⟩
    | cons key q =>
      obtain ⟨rfl, hq'⟩ := List.cons_prefix_cons.mp hq
      obtain ⟨found, hf⟩ := ih hinner hq'
      exact ⟨found, by rw [at?_putEntry, if_pos rfl, hf]⟩
  | case3 names content => cases h

/-- Directories cannot be made if and only if a file is in the way. -/
theorem makeDirectories_eq_none : makeDirectories names tree = none ↔ ∃ q, q <+: names ∧ tree.IsFileAt q := by
  fun_induction makeDirectories names tree with
  | case1 entries =>
    refine ⟨nofun, ?_⟩
    rintro ⟨q, hq, content, hf⟩
    rw [List.prefix_nil.mp hq] at hf
    cases hf
  | case2 name names entries ih =>
    rw [Option.map_eq_none_iff, ih]
    constructor
    · rintro ⟨q, hq, content, hf⟩
      cases hl : entries.lookup name with
      | none =>
        -- A directory that is missing is made with nothing in it.
        rw [hl] at hf
        cases q <;> cases hf
      | some inner =>
        rw [hl] at hf
        exact ⟨name :: q, List.cons_prefix_cons.mpr ⟨rfl, hq⟩, content, by rw [at?_cons, hl]; exact hf⟩
    · rintro ⟨q, hq, content, hf⟩
      cases q with
      | nil => cases hf
      | cons key q =>
        obtain ⟨rfl, hq'⟩ := List.cons_prefix_cons.mp hq
        rw [at?_cons] at hf
        obtain ⟨inner, hl, hf⟩ := Option.bind_eq_some_iff.mp hf
        exact ⟨q, hq', content, by rw [hl]; exact hf⟩
  | case3 names content => exact ⟨fun _ => ⟨[], List.nil_prefix, content, rfl⟩, fun _ => rfl⟩

/-- Directories that are there are not made again. -/
theorem makeDirectories_self (h : tree.IsDirectoryAt names) : makeDirectories names tree = some tree := by
  fun_induction makeDirectories names tree with
  | case1 entries => rfl
  | case2 name names entries ih =>
    obtain ⟨found, h⟩ := h
    rw [at?_cons] at h
    obtain ⟨inner, hl, h⟩ := Option.bind_eq_some_iff.mp h
    rw [hl, Option.getD_some] at ih ⊢
    rw [ih ⟨found, h⟩, Option.map_some, putEntry_self hl]
  | case3 names content =>
    obtain ⟨found, h⟩ := h
    cases names <;> cases h

/-! ### Files -/

theorem putFile_cons {name : String} {entries : List (String × FileTree)} (hne : names ≠ []) :
    putFile content (name :: names) (directory entries) = (entries.lookup name).bind fun inner =>
      (putFile content names inner).map fun inner => directory (putEntry name inner entries) := by
  obtain ⟨next, names, rfl⟩ := List.exists_cons_of_ne_nil hne
  rw [putFile]
  · simp only [Option.map_eq_bind]
    rfl
  · exact fun h => nomatch h

theorem putFile_singleton {name : String} {entries : List (String × FileTree)} :
    putFile content [name] (directory entries) = some tree' ↔
      ¬(directory entries).IsDirectoryAt [name] ∧ directory (putEntry name (file content) entries) = tree' := by
  rw [putFile, IsDirectoryAt, at?_cons]
  cases entries.lookup name with
  | none => simp
  | some found => cases found <;> simp

/-- What putting a file comes to, by the first of the names. -/
theorem putFile_eq_some {name : String} : putFile content (name :: names) tree = some tree' ↔
    ∃ entries, tree = directory entries ∧
      ((names = [] ∧ ¬tree.IsDirectoryAt [name] ∧ directory (putEntry name (file content) entries) = tree') ∨
        (names ≠ [] ∧ ∃ inner inner', entries.lookup name = some inner ∧ putFile content names inner = some inner' ∧
          directory (putEntry name inner' entries) = tree')) := by
  cases tree with
  | file content' =>
    constructor
    · intro h
      cases names <;> cases h
    · rintro ⟨_, ⟨⟩, _⟩
  | directory entries =>
    simp only [directory.injEq, exists_eq_left']
    by_cases hnames : names = []
    · subst hnames
      simp only [putFile_singleton, ne_eq, not_true_eq_false, false_and, or_false, true_and]
    · rw [putFile_cons hnames]
      simp only [hnames, false_and, false_or, ne_eq, not_false_eq_true, true_and, Option.bind_eq_some_iff,
        Option.map_eq_some_iff, exists_and_left]

/-- A file is put at a place in directories that are there, and nothing else changes. -/
theorem at?_putFile (h : putFile content place tree = some tree') :
    tree'.at? place = some (file content) ∧ (∀ q, ¬q <+: place → tree'.at? q = tree.at? q) ∧
      ∀ q, q <+: place → q ≠ place → tree.IsDirectoryAt q ∧ tree'.IsDirectoryAt q := by
  induction place generalizing tree tree' with
  | nil => cases tree <;> cases h
  | cons name place ih =>
    obtain ⟨entries, rfl, ⟨rfl, hfree, rfl⟩ | ⟨hne, inner, inner', hl, hinner, rfl⟩⟩ := putFile_eq_some.mp h
    · refine ⟨by rw [at?_putEntry, if_pos rfl, at?_nil], fun q => at?_putEntry_apart fun q hq => ?_, fun q hq hne => ?_⟩
      · -- nothing stands below the place, since no directory stands there
        cases q with
        | nil => exact absurd List.nil_prefix hq
        | cons next q =>
          rw [← at?_cons]
          symm
          refine Option.eq_none_iff_forall_ne_some.mpr fun found hfound => hfree ?_
          have happend : (directory entries).at? ([name] ++ next :: q) = some found := hfound
          exact isDirectoryAt_of_append happend (List.cons_ne_nil next q)
      · cases q with
        | nil => exact ⟨⟨_, at?_nil⟩, ⟨_, at?_nil⟩⟩
        | cons key q =>
          obtain ⟨rfl, hq'⟩ := List.cons_prefix_cons.mp hq
          exact absurd (by rw [List.prefix_nil.mp hq']) hne
    · obtain ⟨hat, hother, hway⟩ := ih hinner
      refine ⟨by rw [at?_putEntry, if_pos rfl, hat], fun q => at?_putEntry_apart fun q hq => ?_, fun q hq hne => ?_⟩
      · rw [hother q hq, hl, Option.bind_some]
      · cases q with
        | nil => exact ⟨⟨_, at?_nil⟩, ⟨_, at?_nil⟩⟩
        | cons key q =>
          obtain ⟨rfl, hq'⟩ := List.cons_prefix_cons.mp hq
          obtain ⟨⟨before, hb⟩, ⟨after, ha⟩⟩ := hway q hq' fun heq => hne (by rw [heq])
          exact ⟨⟨before, by rw [at?_cons, hl, Option.bind_some, hb]⟩, ⟨after, by rw [at?_putEntry, if_pos rfl, ha]⟩⟩

/-- In a directory a file is not put where a directory stands, but anywhere else. -/
theorem putFile_eq_none_iff (h : tree.IsDirectoryAt place) {name : String} :
    putFile content (place ++ [name]) tree = none ↔ tree.IsDirectoryAt (place ++ [name]) := by
  induction place generalizing tree with
  | nil =>
    obtain ⟨entries, h⟩ := h
    cases at?_nil.symm.trans h
    rw [List.nil_append, ← not_iff_not]
    constructor
    · intro hput
      obtain ⟨tree', hput⟩ := Option.ne_none_iff_exists'.mp hput
      exact (putFile_singleton.mp hput).1
    · intro hfree hnone
      cases hnone.symm.trans (putFile_singleton.mpr ⟨hfree, rfl⟩)
  | cons key place ih =>
    obtain ⟨found, h⟩ := h
    cases tree with
    | file content' => cases h
    | directory entries =>
      rw [at?_cons] at h
      obtain ⟨inner, hl, h⟩ := Option.bind_eq_some_iff.mp h
      have hinner := ih ⟨found, h⟩
      rw [List.cons_append, putFile_cons (by simp), hl, Option.bind_some, Option.map_eq_none_iff, hinner]
      simp only [IsDirectoryAt, at?_cons, hl, Option.bind_some]

/-- A file that is there is put in its own place. -/
theorem putFile_self (hne : place ≠ []) (h : tree.at? place = some (file content)) :
    putFile content place tree = some tree := by
  induction place generalizing tree with
  | nil => exact absurd rfl hne
  | cons name place ih =>
    cases tree with
    | file content' => cases h
    | directory entries =>
      rw [at?_cons] at h
      obtain ⟨inner, hl, hat⟩ := Option.bind_eq_some_iff.mp h
      refine putFile_eq_some.mpr ⟨entries, rfl, ?_⟩
      by_cases hplace : place = []
      · subst hplace
        cases at?_nil.symm.trans hat
        refine Or.inl ⟨rfl, fun hd => ?_, congrArg directory (putEntry_self hl)⟩
        exact not_isFileAt_of_isDirectoryAt hd ⟨content, by rw [at?_cons, hl]; rfl⟩
      · exact Or.inr ⟨hplace, inner, inner, hl, ih hplace hat, congrArg directory (putEntry_self hl)⟩

theorem not_isDirectoryAt_of_putFile (h : putFile content place tree = some tree') : ¬tree.IsDirectoryAt place := by
  intro hd
  obtain rfl | ⟨front, name, rfl⟩ := List.eq_nil_or_concat place
  · cases tree <;> cases h
  · rw [List.concat_eq_append] at h hd
    obtain ⟨-, -, hway⟩ := at?_putFile h
    have hfront := (hway front (List.prefix_append _ _) (by simp)).1
    cases ((putFile_eq_none_iff hfront).mpr hd).symm.trans h

/-! ### Growth -/

/-- Whatever was a directory or a file in one tree still is in the other. -/
structure Grows (tree tree' : FileTree) : Prop where
  directory : ∀ place, tree.IsDirectoryAt place → tree'.IsDirectoryAt place
  file : ∀ place, tree.IsFileAt place → tree'.IsFileAt place

namespace Grows

theorem refl (tree : FileTree) : tree.Grows tree :=
  ⟨fun _ => id, fun _ => id⟩

theorem trans {tree'' : FileTree} (h : tree.Grows tree') (h' : tree'.Grows tree'') : tree.Grows tree'' :=
  ⟨fun place => h'.directory place ∘ h.directory place, fun place => h'.file place ∘ h.file place⟩

theorem isSome (h : tree.Grows tree') (hp : (tree.at? place).isSome) : (tree'.at? place).isSome := by
  obtain ⟨found, hfound⟩ := Option.isSome_iff_exists.mp hp
  rcases isDirectoryAt_or_isFileAt hfound with hd | hf
  · obtain ⟨entries, hd⟩ := h.directory place hd
    rw [hd, Option.isSome_some]
  · obtain ⟨content, hf⟩ := h.file place hf
    rw [hf, Option.isSome_some]

theorem makeDirectories (h : FileTree.makeDirectories names tree = some tree') : tree.Grows tree' where
  directory q hd := by
    by_cases hq : q <+: names
    · exact isDirectoryAt_makeDirectories h hq
    · rwa [IsDirectoryAt, at?_makeDirectories h hq]
  file q hf := by
    by_cases hq : q <+: names
    · cases (makeDirectories_eq_none.mpr ⟨q, hq, hf⟩).symm.trans h
    · rwa [IsFileAt, at?_makeDirectories h hq]

theorem putFile (h : FileTree.putFile content place tree = some tree') : tree.Grows tree' := by
  obtain ⟨hat, hother, hway⟩ := at?_putFile h
  constructor
  · intro q hd
    by_cases hq : q <+: place
    · by_cases heq : q = place
      · exact absurd (heq ▸ hd) (not_isDirectoryAt_of_putFile h)
      · exact (hway q hq heq).2
    · rwa [IsDirectoryAt, hother q hq]
  · intro q hf
    by_cases hq : q <+: place
    · by_cases heq : q = place
      · exact ⟨content, heq ▸ hat⟩
      · exact absurd hf (not_isFileAt_of_isDirectoryAt (hway q hq heq).1)
    · rwa [IsFileAt, hother q hq]

end Grows

end FileTree
end Letterpress
