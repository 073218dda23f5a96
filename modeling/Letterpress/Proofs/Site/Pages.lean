import Letterpress.Site
import Letterpress.Proofs.Files.Tree
import Letterpress.Proofs.Path.Below

/-! The pages of a site: where they are found, and where they are written. A page lies under the source
    directory by some names, and its output lies under the output directory by the same names, the last of
    them with another suffix. Distinct pages have distinct outputs. -/

namespace Letterpress

/-- The entries of each directory have names that a path can lead to, each a name of its own. -/
inductive FileTree.WellFormed : FileTree → Prop
  | file (content : ByteArray) : WellFormed (.file content)
  | directory {entries : List (String × FileTree)} (names : ∀ entry ∈ entries, Path.IsName entry.1)
      (distinct : (entries.map Prod.fst).Nodup) (inner : ∀ entry ∈ entries, WellFormed entry.2) : WellFormed (.directory entries)

namespace FileTree.WellFormed

variable {tree found : FileTree} {place : List String}

theorem at? (h : tree.WellFormed) (hat : tree.at? place = some found) : found.WellFormed := by
  induction h generalizing place with
  | file content =>
    cases place with
    | nil =>
      cases hat
      exact .file content
    | cons name place => cases hat
  | @directory entries names distinct inner ih =>
    cases place with
    | nil =>
      cases hat
      exact .directory names distinct inner
    | cons name place =>
      rw [at?_cons] at hat
      obtain ⟨next, hnext, hat⟩ := Option.bind_eq_some_iff.mp hat
      exact ih (name, next) (mem_of_lookup hnext) hat

theorem isName_of_at? (h : tree.WellFormed) (hat : tree.at? place = some found) : ∀ name ∈ place, Path.IsName name := by
  induction h generalizing place with
  | file content =>
    cases place with
    | nil => exact List.forall_mem_nil _
    | cons name place => cases hat
  | @directory entries names distinct inner ih =>
    cases place with
    | nil => exact List.forall_mem_nil _
    | cons name place =>
      rw [at?_cons] at hat
      obtain ⟨next, hnext, hat⟩ := Option.bind_eq_some_iff.mp hat
      exact List.forall_mem_cons.mpr ⟨names (name, next) (mem_of_lookup hnext), ih (name, next) (mem_of_lookup hnext) hat⟩

theorem find? {files : FileSystem} {path : String} (h : files.root.WellFormed) (hfind : files.find? path = some found) :
    found.WellFormed := by
  obtain ⟨place, -, hat⟩ := Option.bind_eq_some_iff.mp hfind
  exact h.at? hat

end FileTree.WellFormed

namespace Site
open Path (IsName)

variable {config : Config} {suffix path name page found : String} {tree : FileTree} {files : FileSystem} {root : String}
  {entries : List (String × FileTree)}

/-! ### Finding -/

theorem mem_inNameOrder {entries : List (String × List String)} :
    found ∈ inNameOrder entries ↔ ∃ entry ∈ entries, found ∈ entry.2 := by
  rw [inNameOrder, List.mem_flatMap]
  simp only [List.mem_mergeSort]

theorem filesOfEntries_eq_map (entries : List (String × FileTree)) : filesOfEntries suffix path entries =
    entries.map fun entry => (entry.1, filesBelow suffix (Path.join path entry.1) entry.1 entry.2) := by
  induction entries with
  | nil => rfl
  | cons entry entries ih => rw [filesOfEntries, ih, List.map_cons]

theorem mem_filesOfEntries {entries : List (String × FileTree)} :
    found ∈ inNameOrder (filesOfEntries suffix path entries) ↔
      ∃ entry ∈ entries, found ∈ filesBelow suffix (Path.join path entry.1) entry.1 entry.2 := by
  rw [mem_inNameOrder, filesOfEntries_eq_map]
  simp only [List.mem_map, exists_exists_and_eq_and]

/-- In a tree the files at all of its places are found whose last name has the suffix. -/
theorem mem_filesBelow (hw : tree.WellFormed) : found ∈ filesBelow suffix path name tree ↔
    ∃ names content, tree.at? names = some (.file content) ∧ hasSuffix suffix (names.getLastD name) = true ∧
      found = names.foldl Path.join path := by
  induction hw generalizing path name with
  | file content =>
    rw [filesBelow]
    constructor
    · intro h
      split at h
      · rename_i hsuffix
        exact ⟨[], content, FileTree.at?_nil, hsuffix, List.mem_singleton.mp h⟩
      · cases h
    · rintro ⟨names, _, hat, hsuffix, rfl⟩
      cases names with
      | nil =>
        rw [List.getLastD_nil] at hsuffix
        rw [if_pos hsuffix]
        exact List.mem_singleton_self _
      | cons => cases hat
  | directory names distinct inner ih =>
    rw [filesBelow, mem_filesOfEntries]
    constructor
    · rintro ⟨entry, hentry, h⟩
      obtain ⟨more, content, hat, hsuffix, hfound⟩ := (ih entry hentry).mp h
      refine ⟨entry.1 :: more, content, ?_, by rwa [List.getLastD_cons], hfound⟩
      rw [FileTree.at?_cons, lookup_of_mem distinct hentry]
      exact hat
    · rintro ⟨more, content, hat, hsuffix, hfound⟩
      -- the directory itself is no file, so the place begins with the name of an entry
      cases more with
      | nil => cases hat
      | cons next more =>
        rw [FileTree.at?_cons] at hat
        obtain ⟨tree, hnext, hat⟩ := Option.bind_eq_some_iff.mp hat
        rw [List.getLastD_cons] at hsuffix
        exact ⟨(next, tree), mem_of_lookup hnext, (ih _ (mem_of_lookup hnext)).mpr ⟨more, content, hat, hsuffix, hfound⟩⟩

theorem findFiles_eq_filesBelow (name : String) (h : files.find? root = some (.directory entries)) :
    findFiles files root suffix = filesBelow suffix root name (.directory entries) := by
  rw [findFiles, h, filesBelow]

/-- Under a directory the files at all places below it are found whose last name has the suffix. -/
theorem mem_findFiles (hw : files.root.WellFormed) (hroot : files.find? root = some (.directory entries)) :
    found ∈ findFiles files root suffix ↔ ∃ front last content,
      (FileTree.directory entries).at? (front ++ [last]) = some (.file content) ∧ hasSuffix suffix last = true ∧
        found = (front ++ [last]).foldl Path.join root := by
  rw [findFiles_eq_filesBelow "" hroot, mem_filesBelow (hw.find? hroot)]
  constructor
  · rintro ⟨names, content, hat, hsuffix, hfound⟩
    rcases List.eq_nil_or_concat' names with rfl | ⟨front, last, rfl⟩
    · cases hat
    · rw [List.getLastD_concat] at hsuffix
      exact ⟨front, last, content, hat, hsuffix, hfound⟩
  · rintro ⟨front, last, content, hat, hsuffix, hfound⟩
    exact ⟨front ++ [last], content, hat, by rwa [List.getLastD_concat], hfound⟩

/-- In a directory whose entries stand in order, files are found in that order. -/
theorem filesBelow_of_pairwise (hordered : (entries.map Prod.fst).Pairwise fun name other => !decide (other < name)) :
    filesBelow suffix path name (.directory entries) =
      entries.flatMap fun entry => filesBelow suffix (Path.join path entry.1) entry.1 entry.2 := by
  have hsorted : (filesOfEntries suffix path entries).Pairwise fun a b => !decide (b.1 < a.1) := by
    rw [filesOfEntries_eq_map, List.pairwise_map]
    exact List.pairwise_map.mp hordered
  rw [filesBelow, inNameOrder, List.mergeSort_of_pairwise hsorted, filesOfEntries_eq_map, List.flatMap_map]

theorem findFiles_of_pairwise (h : files.find? root = some (.directory entries))
    (hordered : (entries.map Prod.fst).Pairwise fun name other => !decide (other < name)) :
    findFiles files root suffix = entries.flatMap fun entry => filesBelow suffix (Path.join root entry.1) entry.1 entry.2 := by
  rw [findFiles_eq_filesBelow "" h, filesBelow_of_pairwise hordered]

theorem stem?_append (stem suffix : String) : stem? suffix (stem ++ suffix) = some stem := by
  have hlist : (stem ++ suffix).toList = stem.toList ++ suffix.toList := String.toList_append
  have hsuffix : suffix.toList.isSuffixOf (stem ++ suffix).toList = true := by
    rw [hlist, List.isSuffixOf_iff_suffix]
    exact List.suffix_append _ _
  rw [stem?, if_pos hsuffix, hlist, List.length_append, Nat.add_sub_cancel, List.take_left, String.ofList_toList]

theorem hasSuffix_iff : hasSuffix suffix name = true ↔ ∃ stem, stem ≠ "" ∧ name = stem ++ suffix := by
  rw [hasSuffix, Bool.and_eq_true, decide_eq_true_eq, List.isSuffixOf_iff_suffix]
  constructor
  · rintro ⟨hlonger, front, hfront⟩
    refine ⟨String.ofList front, ?_, String.toList_injective ?_⟩
    · intro hempty
      rw [String.ofList_eq_empty_iff.mp hempty] at hfront
      rw [← hfront] at hlonger
      exact lt_irrefl _ hlonger
    · rw [← hfront, String.toList_append, String.toList_ofList]
  · rintro ⟨stem, hstem, rfl⟩
    have hlength : 0 < stem.toList.length :=
      List.length_pos_iff.mpr fun hnil => hstem (String.toList_eq_nil_iff.mp hnil)
    rw [String.toList_append, List.length_append]
    exact ⟨by omega, List.suffix_append _ _⟩

/-- What is found under a directory lies below it, under a last name with the suffix. -/
theorem exists_names_of_mem_findFiles (hw : files.root.WellFormed) (h : found ∈ findFiles files root suffix) :
    ∃ front last, (∀ name ∈ front ++ [last], IsName name) ∧ hasSuffix suffix last = true ∧
      found = (front ++ [last]).foldl Path.join root := by
  obtain ⟨entries, hroot⟩ : ∃ entries, files.find? root = some (.directory entries) := by
    unfold findFiles at h
    split at h
    · exact ⟨_, ‹_›⟩
    · cases h
  obtain ⟨front, last, content, hat, hfound⟩ := (mem_findFiles hw hroot).mp h
  exact ⟨front, last, (hw.find? hroot).isName_of_at? hat, hfound⟩

/-- A page is found under the source directory by these names and one with the page suffix. -/
structure IsPage (config : Config) (front : List String) (stem page : String) : Prop where
  names : ∀ name ∈ front, IsName name
  last : IsName (stem ++ config.pageSuffix)
  path : page = (front ++ [stem ++ config.pageSuffix]).foldl Path.join config.source

theorem exists_isPage (hw : files.root.WellFormed)
    (h : page ∈ findFiles files config.source config.pageSuffix) : ∃ front stem, IsPage config front stem page := by
  obtain ⟨front, last, hnames, hsuffix, hpage⟩ := exists_names_of_mem_findFiles hw h
  obtain ⟨stem, -, rfl⟩ := hasSuffix_iff.mp hsuffix
  obtain ⟨hfront, hlast⟩ := List.forall_mem_append.mp hnames
  exact ⟨front, stem, hfront, List.forall_mem_singleton.mp hlast, hpage⟩

/-! ### Outputs -/

theorem isName_html {stem : String} (h : IsName (stem ++ suffix)) : IsName (stem ++ ".html") := by
  have hlist : (stem ++ ".html").toList = stem.toList ++ ['.', 'h', 't', 'm', 'l'] := String.toList_append
  have hlonger : ∀ {other : String}, other.toList.length < 5 → stem ++ ".html" ≠ other := fun hshort heq => by
    rw [← heq, hlist, List.length_append, List.length_cons] at hshort
    simp only [List.length_cons, List.length_nil] at hshort
    omega
  refine ⟨hlonger (by decide), hlonger (by decide), hlonger (by decide), fun hslash => ?_⟩
  rw [hlist, List.mem_append] at hslash
  refine hslash.elim (fun hstem => h.2.2.2 ?_) (by decide)
  rw [String.toList_append]
  exact List.mem_append_left _ hstem

/-- A path that leads down from the base by these names, the last of them at its end. -/
structure IsOutput (base : String) (front : List String) (name output : String) : Prop where
  names : ∀ name ∈ front, IsName name
  last : IsName name
  path : Path.Continues base (front ++ [name]) output
  ending : (Path.parts output).getLast? = some name

/-- A page below the source directory has an output that lies below the output directory by the same names, the last of
    them with another suffix. -/
theorem outputPath_below {front : List String} {stem : String}
    (h : Path.Below config.source (front ++ [stem ++ config.pageSuffix]) page) :
    ∃ output, outputPath config page = .ok output ∧ Path.Below config.output (front ++ [stem ++ ".html"]) output ∧
      (Path.parts output).getLast? = some (stem ++ ".html") := by
  obtain ⟨relative, hstrip, hrelative⟩ := h.stripBase? (List.append_ne_nil_of_right_ne_nil _ (List.cons_ne_nil _ _))
  have hhtml : IsName (stem ++ ".html") := isName_html (h.isName _ List.mem_concat_self)
  have hlast : Path.components relative = front.map .name ++ [.name (stem ++ config.pageSuffix)] := by
    rw [hrelative, List.map_append]
    rfl
  have hjoin : Path.components (Path.join config.output relative) =
      (Path.components config.output ++ front.map .name) ++ [.name (stem ++ config.pageSuffix)] := by
    rw [Path.below_join hrelative, List.map_append, List.append_assoc]
    rfl
  refine ⟨_, ?_, ?_, Path.getLast?_parts_withFileName (Path.fileName?_of_components hjoin) hhtml⟩
  · rw [outputPath, hstrip]
    dsimp only
    rw [Path.fileName?_of_components hlast]
    dsimp only
    rw [stem?_append]
  · rw [Path.Below, Path.components_withFileName hjoin hhtml, List.map_append, List.append_assoc]
    rfl

/-- A page is written under the output directory by the names it has under the source directory. -/
theorem outputPath_eq {front : List String} {stem : String} (h : IsPage config front stem page) :
    ∃ output, outputPath config page = .ok output ∧ IsOutput config.output front (stem ++ ".html") output := by
  have hbelow : Path.Below config.source (front ++ [stem ++ config.pageSuffix]) page :=
    h.path ▸ Path.below_foldl_join (List.forall_mem_append.mpr ⟨h.names, List.forall_mem_singleton.mpr h.last⟩)
  obtain ⟨output, ho, houtput, hlast⟩ := outputPath_below hbelow
  exact ⟨output, ho, h.names, isName_html h.last, houtput.continues, hlast⟩

end Site
end Letterpress
