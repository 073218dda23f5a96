import Letterpress.Proofs.Site.Pages
import Letterpress.Proofs.Text.Bytes
import Mathlib.Data.List.Sort

/-! Discovery of the files of a site. All files below a directory are found whose names have a suffix, each of them once and
    in the order of the steps of their paths. The order in which directories list their entries makes no difference. -/

namespace Letterpress

/-! ### The order of paths -/

namespace Path

/-- The bytes of a step. -/
def Component.bytes : Component → List UInt8
  | root => Text.bytes "/"
  | here => Text.bytes "."
  | parent => Text.bytes ".."
  | name text => Text.bytes text

/-- The order of paths by their steps, of which the bytes are compared. It is not that of the texts of the paths, where
    a slash stands behind some of the characters of names. -/
def Precedes (path other : String) : Prop :=
  (components path).map Component.bytes < (components other).map Component.bytes

instance (path other : String) : Decidable (Precedes path other) :=
  inferInstanceAs (Decidable (_ < _))

instance : Std.Irrefl Precedes :=
  ⟨fun _ => List.lt_irrefl _⟩

instance : Std.Asymm Precedes :=
  ⟨fun _ _ => List.lt_asymm⟩

variable {base first second path other : String} {names more : List String}

/-- Where two paths go into different entries of a directory, these entries decide. -/
theorem Below.precedes (h : Below base (first :: names) path) (h' : Below base (second :: more) other) (hlt : first < second) :
    Precedes path other := by
  rw [Precedes, h, h', List.map_append, List.map_append]
  exact List.append_left_lt (List.Lex.rel (Text.bytes_lt_bytes.mpr hlt))

end Path

/-! ### The order of entries -/

/-- The same tree, with the entries of its directories listed in another order. -/
inductive FileTree.Relisted : FileTree → FileTree → Prop
  | file (content : ByteArray) : Relisted (.file content) (.file content)
  | directory {entries entries' : List (String × FileTree)} (names : (entries.map Prod.fst).Perm (entries'.map Prod.fst))
      (inner : ∀ entry ∈ entries, ∀ entry' ∈ entries', entry.1 = entry'.1 → Relisted entry.2 entry'.2) :
      Relisted (.directory entries) (.directory entries')

namespace FileTree.Relisted

variable {tree tree' : FileTree} {place : List String} {content : ByteArray}

theorem wellFormed (h : tree.Relisted tree') (hw : tree.WellFormed) : tree'.WellFormed := by
  induction h with
  | file content => exact hw
  | @directory entries entries' hnames _ ih =>
    cases hw with
    | directory names distinct inner =>
      have hentry : ∀ entry' ∈ entries', ∃ entry ∈ entries, entry.1 = entry'.1 := fun entry' hentry' =>
        List.mem_map.mp (hnames.mem_iff.mpr (List.mem_map_of_mem hentry'))
      refine .directory (fun entry' hentry' => ?_) (hnames.nodup_iff.mp distinct) fun entry' hentry' => ?_
      · obtain ⟨entry, hm, heq⟩ := hentry entry' hentry'
        exact heq ▸ names entry hm
      · obtain ⟨entry, hm, heq⟩ := hentry entry' hentry'
        exact ih entry hm entry' hentry' heq (inner entry hm)

theorem refl (hw : tree.WellFormed) : tree.Relisted tree := by
  induction hw with
  | file content => exact .file content
  | directory _ distinct _ ih =>
    refine .directory (.refl _) fun entry hentry entry' hentry' heq => ?_
    obtain rfl := List.inj_on_of_nodup_map distinct hentry hentry' heq
    exact ih entry hentry

theorem of_perm {entries entries' : List (String × FileTree)} (hw : (FileTree.directory entries).WellFormed)
    (h : entries.Perm entries') : (FileTree.directory entries).Relisted (.directory entries') := by
  cases hw with
  | directory _ distinct inner =>
    refine .directory (h.map _) fun entry hentry entry' hentry' heq => ?_
    obtain rfl := List.inj_on_of_nodup_map distinct hentry (h.mem_iff.mpr hentry') heq
    exact refl (inner entry hentry)

theorem at? (h : tree.Relisted tree') (place : List String) : Option.Rel Relisted (tree.at? place) (tree'.at? place) := by
  induction h generalizing place with
  | file content =>
    cases place with
    | nil => exact .some (.file content)
    | cons name place => exact .none
  | @directory entries entries' hnames inner ih =>
    cases place with
    | nil => exact .some (.directory hnames inner)
    | cons name place =>
      rw [at?_cons, at?_cons]
      have hmem := hnames.mem_iff (a := name)
      cases hl : entries.lookup name <;> cases hl' : entries'.lookup name
      · exact .none
      · exact absurd (hmem.mpr (List.mem_map_of_mem (mem_of_lookup hl'))) (lookup_eq_none.mp hl)
      · exact absurd (hmem.mp (List.mem_map_of_mem (mem_of_lookup hl))) (lookup_eq_none.mp hl')
      · exact ih _ (mem_of_lookup hl) _ (mem_of_lookup hl') rfl place

theorem at?_file (h : tree.Relisted tree') :
    tree.at? place = some (.file content) ↔ tree'.at? place = some (.file content) := by
  have hplace := h.at? place
  generalize tree.at? place = found at hplace
  generalize tree'.at? place = found' at hplace
  cases hplace with
  | none => exact Iff.rfl
  | some hfound =>
    cases hfound with
    | file => exact Iff.rfl
    | directory => exact ⟨nofun, nofun⟩

theorem isSome_at? (h : tree.Relisted tree') (place : List String) : (tree.at? place).isSome = (tree'.at? place).isSome := by
  have hplace := h.at? place
  generalize tree.at? place = found at hplace
  generalize tree'.at? place = found' at hplace
  cases hplace <;> rfl

theorem step? (h : tree.Relisted tree') : FileSystem.step? tree = FileSystem.step? tree' := by
  funext place part
  unfold FileSystem.step?
  rw [h.isSome_at?]
  have hplace := h.at? place
  generalize tree.at? place = found at hplace
  generalize tree'.at? place = found' at hplace
  cases hplace with
  | none => rfl
  | some hfound => cases hfound <;> rfl

theorem find? {files files' : FileSystem} (h : files.root.Relisted files'.root) (hhere : files'.here = files.here)
    (path : String) : Option.Rel Relisted (files.find? path) (files'.find? path) := by
  have hplace : files'.place? path = files.place? path := by
    rw [FileSystem.place?, FileSystem.place?, FileSystem.start, FileSystem.start, hhere, h.step?]
  rw [FileSystem.find?, FileSystem.find?, hplace]
  cases files.place? path with
  | none => exact .none
  | some place => exact h.at? place

end FileTree.Relisted

namespace Site
open Path (IsName)

variable {suffix path name root found : String} {tree : FileTree} {files files' : FileSystem}
  {entries : List (String × FileTree)}

/-! ### What is found -/

/-- Entries with distinct names are put into the strict order of these. -/
theorem pairwise_mergeSort_lt {α : Type} {entries : List (String × α)} (distinct : (entries.map Prod.fst).Nodup) :
    (entries.mergeSort fun a b => !decide (b.1 < a.1)).Pairwise fun a b => a.1 < b.1 := by
  have hle : ∀ a b : String × α, (!decide (b.1 < a.1)) = true ↔ a.1 ≤ b.1 := fun a b => by
    rw [Bool.not_eq_true', decide_eq_false_iff_not, not_lt]
  have hsorted : (entries.mergeSort fun a b => !decide (b.1 < a.1)).Pairwise fun a b => a.1 ≤ b.1 := by
    refine (List.pairwise_mergeSort (fun a b c hab hbc => ?_) (fun a b => ?_) entries).imp (hle _ _).mp
    · exact (hle a c).mpr (((hle a b).mp hab).trans ((hle b c).mp hbc))
    · rw [Bool.or_eq_true, hle, hle]
      exact le_total a.1 b.1
  have hdistinct : (entries.mergeSort fun a b => !decide (b.1 < a.1)).Pairwise fun a b => a.1 ≠ b.1 :=
    List.pairwise_map.mp ((List.mergeSort_perm entries _).map Prod.fst |>.nodup_iff.mpr distinct)
  exact (hsorted.and hdistinct).imp fun h => lt_of_le_of_ne h.1 h.2

/-- What is found in an entry lies below the directory, by the name of the entry first. -/
theorem exists_below_of_mem_filesBelow (hw : tree.WellFormed) (hname : IsName name)
    (h : found ∈ filesBelow suffix (Path.join path name) name tree) : ∃ names, Path.Below path (name :: names) found := by
  obtain ⟨names, content, hat, -, rfl⟩ := (mem_filesBelow hw).mp h
  have hnames : ∀ next ∈ name :: names, IsName next := List.forall_mem_cons.mpr ⟨hname, hw.isName_of_at? hat⟩
  exact ⟨names, Path.below_foldl_join hnames⟩

/-- The files of a tree are found in the order of their paths. -/
theorem pairwise_filesBelow (hw : tree.WellFormed) : (filesBelow suffix path name tree).Pairwise Path.Precedes := by
  induction hw generalizing path name with
  | file content =>
    rw [filesBelow]
    split
    · exact List.pairwise_singleton _ _
    · exact .nil
  | @directory entries names distinct inner ih =>
    rw [filesBelow, inNameOrder, List.pairwise_flatMap]
    have hentry : ∀ listed ∈ (filesOfEntries suffix path entries).mergeSort fun a b => !decide (b.1 < a.1),
        ∃ entry ∈ entries, (entry.1, filesBelow suffix (Path.join path entry.1) entry.1 entry.2) = listed :=
      fun listed h => by
        rw [List.mem_mergeSort, filesOfEntries_eq_map] at h
        exact List.mem_map.mp h
    -- within an entry the files are in order by induction, and across two of them their names decide
    refine ⟨fun listed h => ?_, (pairwise_mergeSort_lt ?_).imp_of_mem fun {listed listed'} h h' hlt found hf found' hf' => ?_⟩
    · obtain ⟨entry, hm, rfl⟩ := hentry listed h
      exact ih entry hm
    · rw [filesOfEntries_eq_map, List.map_map]
      exact distinct
    · obtain ⟨entry, hm, rfl⟩ := hentry listed h
      obtain ⟨entry', hm', rfl⟩ := hentry listed' h'
      obtain ⟨more, hbelow⟩ := exists_below_of_mem_filesBelow (inner entry hm) (names entry hm) hf
      obtain ⟨more', hbelow'⟩ := exists_below_of_mem_filesBelow (inner entry' hm') (names entry' hm') hf'
      exact hbelow.precedes hbelow' hlt

theorem pairwise_findFiles (hw : files.root.WellFormed) : (findFiles files root suffix).Pairwise Path.Precedes := by
  cases hfind : files.find? root with
  | none =>
    rw [findFiles, hfind]
    exact .nil
  | some found =>
    cases found with
    | file content =>
      rw [findFiles, hfind]
      exact .nil
    | directory entries =>
      rw [findFiles_eq_filesBelow "" hfind]
      exact pairwise_filesBelow (hw.find? hfind)

theorem nodup_findFiles (hw : files.root.WellFormed) : (findFiles files root suffix).Nodup :=
  (pairwise_findFiles hw).nodup

theorem findFiles_relisted (hw : files.root.WellFormed) (h : files.root.Relisted files'.root) (hhere : files'.here = files.here) :
    findFiles files' root suffix = findFiles files root suffix := by
  have hantisymm : Std.Antisymm Path.Precedes := Std.Asymm.antisymm _
  have hw' := h.wellFormed hw
  -- both lists are in the same strict order, so all depends on their members
  refine (pairwise_findFiles hw').eq_of_mem_iff (pairwise_findFiles hw) fun found => ?_
  have hroot := h.find? hhere root
  generalize hfind : files.find? root = found at hroot
  generalize hfind' : files'.find? root = found' at hroot
  cases hroot with
  | none => rw [findFiles, findFiles, hfind, hfind']
  | some hlisted =>
    cases hlisted with
    | file content => rw [findFiles, findFiles, hfind, hfind']
    | directory hnames inner =>
      rw [mem_findFiles hw hfind, mem_findFiles hw' hfind']
      simp only [(FileTree.Relisted.directory hnames inner).at?_file]

/-- Under a directory exactly the files are found, however deep below it, whose names end with the suffix and are longer than
    it, each once and in the strict order of the steps of their paths. How the directories list their entries makes no
    difference. -/
theorem found_in_order (suffix : String) (hw : files.root.WellFormed) (hroot : files.find? root = some (.directory entries)) :
    (∀ path, path ∈ findFiles files root suffix ↔ ∃ front stem content, stem ≠ "" ∧
      (FileTree.directory entries).at? (front ++ [stem ++ suffix]) = some (.file content) ∧
      path = (front ++ [stem ++ suffix]).foldl Path.join root) ∧
    (findFiles files root suffix).Nodup ∧ (findFiles files root suffix).Pairwise Path.Precedes ∧
    ∀ files' : FileSystem, files'.here = files.here → files.root.Relisted files'.root →
      findFiles files' root suffix = findFiles files root suffix := by
  refine ⟨fun path => ?_, nodup_findFiles hw, pairwise_findFiles hw, fun files' hhere h => findFiles_relisted hw h hhere⟩
  rw [mem_findFiles hw hroot]
  constructor
  · rintro ⟨front, last, content, hat, hsuffix, hpath⟩
    obtain ⟨stem, hstem, rfl⟩ := hasSuffix_iff.mp hsuffix
    exact ⟨front, stem, content, hstem, hat, hpath⟩
  · rintro ⟨front, stem, content, hstem, hat, hpath⟩
    exact ⟨front, stem ++ suffix, content, hat, hasSuffix_iff.mpr ⟨stem, hstem, rfl⟩, hpath⟩

/-- A directory beside a file whose name goes on with a dot, and in it a file that has nothing but the suffix for a name. -/
def drawer : List (String × FileTree) :=
  [("a", .directory [(".t", .file .empty), ("b.t", .file .empty)]), ("a.t", .file .empty)]

/-- The directory under the root. -/
def drawerFiles : FileSystem :=
  ⟨.directory drawer, []⟩

/-- The same with the other entry first. -/
def turnedFiles : FileSystem :=
  ⟨.directory drawer.reverse, []⟩

theorem drawer_wellFormed : drawerFiles.root.WellFormed := by
  refine .directory (by decide) (by decide) (List.forall_mem_cons.mpr ⟨?_, List.forall_mem_singleton.mpr (.file _)⟩)
  exact .directory (by decide) (by decide) (List.forall_mem_cons.mpr ⟨.file _, List.forall_mem_singleton.mpr (.file _)⟩)

theorem drawer_turned : drawerFiles.root.Relisted turnedFiles.root :=
  .of_perm drawer_wellFormed (List.reverse_perm _).symm

/-- The file in the directory comes first, though its path as a text comes last. -/
theorem drawer_found :
    drawerFiles.root.WellFormed ∧ drawerFiles.find? "/" = some (.directory drawer) ∧
    findFiles turnedFiles "/" ".t" = ["/a/b.t", "/a.t"] ∧ "/a.t" < "/a/b.t" := by
  have hroot : drawerFiles.find? "/" = some (.directory drawer) := rfl
  obtain ⟨-, -, -, hrelisted⟩ := found_in_order ".t" drawer_wellFormed hroot
  refine ⟨drawer_wellFormed, hroot, ?_, by decide⟩
  rw [hrelisted turnedFiles rfl drawer_turned, findFiles_of_pairwise hroot (by decide)]
  show filesBelow ".t" "/a" "a" _ ++ _ = _
  rw [filesBelow_of_pairwise (by decide)]
  rfl

end Site
end Letterpress
