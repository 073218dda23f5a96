import Letterpress.FileSystem
import Letterpress.Proofs.Files.Tree
import Letterpress.Proofs.Path.Parts

/-! Following paths. Where a path leads to, if it leads anywhere, is a matter of its parts alone; whether it
    does depends on the directories on its way. A path that does not turn back depends only on what stands at
    its end, so trees that agree there agree on it. -/

namespace Letterpress
namespace FileSystem
open FileTree

variable {root root' : FileTree} {place start next : List String} {part : String} {parts names : List String}

/-- The last part leads nowhere, so there has to be a directory at the end. -/
def EndsIdle (parts : List String) : Prop :=
  ∃ part, parts.getLast? = some part ∧ Path.isIdle part = true

/-- Where a path leads to, if it leads anywhere. -/
def aim (fs : FileSystem) (path : String) : List String :=
  (Path.parts path).foldl advance (fs.start path)

/-! ### Steps -/

theorem step?_eq_some :
    step? root place part = some next ↔ root.IsDirectoryAt place ∧ next = advance place part ∧ (root.at? next).isSome := by
  unfold step?
  split
  · rename_i entries hd
    have hplace : root.IsDirectoryAt place := ⟨entries, hd⟩
    split
    · rename_i hsome
      simp only [Option.some.injEq, hplace, true_and]
      exact ⟨fun h => h ▸ ⟨rfl, hsome⟩, fun h => h.1.symm⟩
    · rename_i hnone
      exact ⟨nofun, fun ⟨_, hnext, hsome⟩ => absurd (hnext ▸ hsome) hnone⟩
  · rename_i hnone
    exact ⟨nofun, fun ⟨⟨entries, hd⟩, _⟩ => absurd hd (hnone entries)⟩

theorem eq_of_walk (h : parts.foldlM (step? root) start = some place) : place = parts.foldl advance start := by
  induction parts generalizing start with
  | nil =>
    cases h
    rfl
  | cons part parts ih =>
    obtain ⟨next, hnext, h⟩ := Option.bind_eq_some_iff.mp h
    rw [List.foldl_cons, ← (step?_eq_some.mp hnext).2.1]
    exact ih h

theorem walk_grows (hg : root.Grows root') (h : parts.foldlM (step? root) start = some place) :
    parts.foldlM (step? root') start = some place := by
  induction parts generalizing start with
  | nil => exact h
  | cons part parts ih =>
    obtain ⟨next, hnext, h⟩ := Option.bind_eq_some_iff.mp h
    obtain ⟨hd, heq, hsome⟩ := step?_eq_some.mp hnext
    exact Option.bind_eq_some_iff.mpr ⟨next, step?_eq_some.mpr ⟨hg.directory _ hd, heq, hg.isSome hsome⟩, ih h⟩

theorem endsIdle_cons : EndsIdle (part :: parts) ↔ (parts = [] ∧ Path.isIdle part = true) ∨ EndsIdle parts := by
  cases parts with
  | nil => simp [EndsIdle]
  | cons next parts => simp [EndsIdle, List.getLast?_cons_cons]

theorem endsIdle_of_named (hne : parts ≠ []) (h : Path.named parts = []) : EndsIdle parts := by
  refine ⟨parts.getLast hne, List.getLast?_eq_some_getLast hne, ?_⟩
  simpa using List.filter_eq_nil_iff.mp h _ (List.getLast_mem hne)

theorem walk_named (hd : root.IsDirectoryAt start) : parts.foldlM (step? root) start = some place ↔
    (Path.named parts).foldlM (step? root) start = some place ∧ (EndsIdle parts → root.IsDirectoryAt place) := by
  induction parts generalizing start with
  | nil =>
    have hend : ¬EndsIdle [] := fun ⟨_, h, _⟩ => nomatch h
    simp only [Path.named, List.filter_nil, hend, false_implies, and_true]
  | cons part parts ih =>
    rw [List.foldlM_cons, Option.bind_eq_bind, endsIdle_cons]
    -- An idle part stays at the place, but asks that it is a directory.
    by_cases hidle : Path.isIdle part = true
    · have hstay : step? root start part = some start := by
        obtain ⟨entries, hat⟩ := hd
        exact step?_eq_some.mpr ⟨⟨entries, hat⟩, by rw [advance, if_pos hidle], by rw [hat, Option.isSome_some]⟩
      have hnamed : Path.named (part :: parts) = Path.named parts := by simp [Path.named, hidle]
      rw [hstay, Option.bind_some, ih hd, hnamed]
      refine and_congr_right fun hwalk => ⟨?_, fun h hend => h (Or.inr hend)⟩
      rintro h (⟨rfl, -⟩ | hend)
      · cases hwalk
        exact hd
      · exact h hend
    · have hnamed : Path.named (part :: parts) = part :: Path.named parts := by simp [Path.named, hidle]
      have hend : (parts = [] ∧ Path.isIdle part = true) ∨ EndsIdle parts ↔ EndsIdle parts := by simp [hidle]
      rw [hnamed, List.foldlM_cons, Option.bind_eq_bind, hend, Option.bind_eq_some_iff, Option.bind_eq_some_iff]
      constructor
      · rintro ⟨next, hnext, h⟩
        cases parts with
        | nil => exact ⟨⟨next, hnext, h⟩, fun ⟨_, h, _⟩ => nomatch h⟩
        | cons second parts =>
          obtain ⟨_, hsecond, -⟩ := Option.bind_eq_some_iff.mp h
          obtain ⟨hwalk, hplace⟩ := (ih (step?_eq_some.mp hsecond).1).mp h
          exact ⟨⟨next, hnext, hwalk⟩, hplace⟩
      · rintro ⟨⟨next, hnext, hwalk⟩, hplace⟩
        refine ⟨next, hnext, ?_⟩
        -- Behind the last name there are idle parts only; they are passed if there is a directory.
        cases hrest : Path.named parts with
        | nil =>
          rw [hrest] at hwalk
          cases hwalk
          cases parts with
          | nil => rfl
          | cons second parts =>
            have hd' : root.IsDirectoryAt place := hplace (endsIdle_of_named (List.cons_ne_nil _ _) hrest)
            exact (ih hd').mpr ⟨by rw [hrest]; rfl, hplace⟩
        | cons second more =>
          rw [hrest] at hwalk
          obtain ⟨_, hsecond, -⟩ := Option.bind_eq_some_iff.mp hwalk
          exact (ih (step?_eq_some.mp hsecond).1).mpr ⟨by rw [hrest]; exact hwalk, hplace⟩

theorem advance_name (hidle : Path.isIdle part = false) (hup : part ≠ "..") : advance place part = place ++ [part] := by
  rw [advance, if_neg (Bool.eq_false_iff.mp hidle), if_neg hup]

/-- Names lead to what stands under them, since the rest of the way are directories then. -/
theorem walk_names (hd : root.IsDirectoryAt start) (hidle : ∀ name ∈ names, Path.isIdle name = false)
    (hup : ".." ∉ names) : names.foldlM (step? root) start = some place ↔
      place = start ++ names ∧ (root.at? place).isSome := by
  induction names generalizing start with
  | nil =>
    obtain ⟨entries, hat⟩ := hd
    rw [List.append_nil]
    refine ⟨fun h => ?_, fun h => congrArg some h.1.symm⟩
    cases h
    exact ⟨rfl, by rw [hat, Option.isSome_some]⟩
  | cons name names ih =>
    obtain ⟨hname, hnames⟩ := List.forall_mem_cons.mp hidle
    rw [List.mem_cons, not_or] at hup
    have hsplit : start ++ name :: names = start ++ [name] ++ names := by rw [List.append_assoc, List.singleton_append]
    have hnext : ∀ next, step? root start name = some next ↔
        next = start ++ [name] ∧ (root.at? (start ++ [name])).isSome := fun next => by
      rw [step?_eq_some, advance_name hname (Ne.symm hup.1)]
      exact ⟨fun ⟨_, h, hsome⟩ => ⟨h, h ▸ hsome⟩, fun ⟨h, hsome⟩ => ⟨hd, h, h ▸ hsome⟩⟩
    rw [List.foldlM_cons, Option.bind_eq_bind, Option.bind_eq_some_iff]
    simp only [hnext, and_assoc, exists_eq_left]
    -- Another name behind this one asks that a directory stands here.
    cases names with
    | nil =>
      refine ⟨fun ⟨hsome, h⟩ => ?_, fun ⟨h, hsome⟩ => ⟨h ▸ hsome, congrArg some h.symm⟩⟩
      cases h
      exact ⟨rfl, hsome⟩
    | cons second names =>
      rw [hsplit]
      constructor
      · rintro ⟨-, h⟩
        obtain ⟨_, hsecond, -⟩ := Option.bind_eq_some_iff.mp h
        exact (ih (step?_eq_some.mp hsecond).1 hnames hup.2).mp h
      · rintro ⟨hplace, hsome⟩
        obtain ⟨found, hfound⟩ := Option.isSome_iff_exists.mp hsome
        have hd' : root.IsDirectoryAt (start ++ [name]) := isDirectoryAt_of_append (hplace ▸ hfound) (List.cons_ne_nil _ _)
        obtain ⟨entries, hat⟩ := hd'
        exact ⟨by rw [hat, Option.isSome_some], (ih ⟨entries, hat⟩ hnames hup.2).mpr ⟨hplace, hsome⟩⟩

theorem foldl_advance (hparts : ".." ∉ parts) : parts.foldl advance start = start ++ Path.named parts := by
  induction parts generalizing start with
  | nil => exact (List.append_nil _).symm
  | cons part parts ih =>
    rw [List.mem_cons, not_or] at hparts
    rw [List.foldl_cons, ih hparts.2, advance, if_neg (Ne.symm hparts.1)]
    by_cases hidle : Path.isIdle part = true
    · simp [Path.named, hidle]
    · simp [Path.named, hidle]

/-! ### Paths -/

variable {fs fs' : FileSystem} {path base : String} {found : FileTree}

/-- In the same working directory, whatever was there still is. -/
structure Grows (fs fs' : FileSystem) : Prop where
  here : fs'.here = fs.here
  root : fs.root.Grows fs'.root

theorem Grows.refl (fs : FileSystem) : fs.Grows fs :=
  ⟨rfl, .refl _⟩

theorem Grows.trans {fs'' : FileSystem} (h : fs.Grows fs') (h' : fs'.Grows fs'') : fs.Grows fs'' :=
  ⟨h'.here.trans h.here, h.root.trans h'.root⟩

theorem Grows.start_eq (h : fs.Grows fs') (path : String) : fs'.start path = fs.start path := by
  rw [FileSystem.start, FileSystem.start, h.here]

theorem Grows.aim_eq (h : fs.Grows fs') (path : String) : fs'.aim path = fs.aim path := by
  rw [aim, aim, h.start_eq]

theorem aim_eq_of_place? (h : fs.place? path = some place) : place = fs.aim path := by
  unfold place? at h
  split at h
  · cases h
  · exact eq_of_walk h

theorem place?_grows (hg : fs.Grows fs') (h : fs.place? path = some place) : fs'.place? path = some place := by
  unfold place? at h ⊢
  split at h
  · cases h
  · rename_i hne
    rw [if_neg hne, hg.start_eq]
    exact walk_grows hg.root h

theorem find?_eq_some : fs.find? path = some found ↔
    fs.place? path = some (fs.aim path) ∧ fs.root.at? (fs.aim path) = some found := by
  unfold find?
  rw [Option.bind_eq_some_iff]
  constructor
  · rintro ⟨place, hplace, hfound⟩
    cases aim_eq_of_place? hplace
    exact ⟨hplace, hfound⟩
  · exact fun h => ⟨_, h⟩

theorem isDirectory_iff : fs.isDirectory path = true ↔ ∃ entries, fs.find? path = some (.directory entries) := by
  unfold isDirectory
  split
  · rename_i h
    simp [h]
  · rename_i h
    exact ⟨nofun, fun ⟨entries, hd⟩ => absurd hd (h entries)⟩

theorem isFile_iff : fs.isFile path = true ↔ ∃ content, fs.find? path = some (.file content) := by
  unfold isFile
  split
  · rename_i h
    simp [h]
  · rename_i h
    exact ⟨nofun, fun ⟨content, hf⟩ => absurd hf (h content)⟩

theorem isDirectory_grows (hg : fs.Grows fs') (h : fs.isDirectory path = true) : fs'.isDirectory path = true := by
  obtain ⟨entries, h⟩ := isDirectory_iff.mp h
  obtain ⟨hplace, hat⟩ := find?_eq_some.mp h
  have hplace' := place?_grows hg hplace
  obtain ⟨entries', hat'⟩ := hg.root.directory _ ⟨entries, hat⟩
  rw [← hg.aim_eq] at hplace' hat'
  exact isDirectory_iff.mpr ⟨entries', find?_eq_some.mpr ⟨hplace', hat'⟩⟩

theorem isFile_grows (hg : fs.Grows fs') (h : fs.isFile path = true) : fs'.isFile path = true := by
  obtain ⟨content, h⟩ := isFile_iff.mp h
  obtain ⟨hplace, hat⟩ := find?_eq_some.mp h
  have hplace' := place?_grows hg hplace
  obtain ⟨content', hat'⟩ := hg.root.file _ ⟨content, hat⟩
  rw [← hg.aim_eq] at hplace' hat'
  exact isFile_iff.mpr ⟨content', find?_eq_some.mpr ⟨hplace', hat'⟩⟩

/-! ### Paths below a directory -/

theorem foldl_advance_named : (Path.named parts).foldl advance start = parts.foldl advance start := by
  induction parts generalizing start with
  | nil => rfl
  | cons part parts ih =>
    by_cases hidle : Path.isIdle part = true
    · have hnamed : Path.named (part :: parts) = Path.named parts := by simp [Path.named, hidle]
      rw [hnamed, ih, List.foldl_cons, advance, if_pos hidle]
    · have hnamed : Path.named (part :: parts) = part :: Path.named parts := by simp [Path.named, hidle]
      rw [hnamed, List.foldl_cons, ih, List.foldl_cons]

/-- The path does not turn back from something that is not there: behind a directory it goes down only. -/
def Direct (fs : FileSystem) (path : String) : Prop :=
  ∃ front rest place, Path.parts path = front ++ rest ∧ front.foldlM (step? fs.root) (fs.start path) = some place ∧
    fs.root.IsDirectoryAt place ∧ ".." ∉ rest

theorem isDirectoryAt_start (h : fs.root.IsDirectoryAt fs.here) (path : String) :
    fs.root.IsDirectoryAt (fs.start path) := by
  unfold start
  split
  · by_cases hhere : fs.here = []
    · exact hhere ▸ h
    · obtain ⟨entries, h⟩ := h
      exact isDirectoryAt_of_prefix h List.nil_prefix (Ne.symm hhere)
  · exact h

theorem direct_of_isDirectory (h : fs.isDirectory path = true) : fs.Direct path := by
  obtain ⟨entries, hfound⟩ := isDirectory_iff.mp h
  obtain ⟨hplace, hat⟩ := find?_eq_some.mp hfound
  unfold place? at hplace
  split at hplace
  · cases hplace
  · exact ⟨Path.parts path, [], fs.aim path, (List.append_nil _).symm, hplace, ⟨entries, hat⟩, nofun⟩

theorem direct_of_not_mem (hh : fs.root.IsDirectoryAt fs.here) (h : ".." ∉ Path.parts path) : fs.Direct path :=
  ⟨[], Path.parts path, fs.start path, rfl, rfl, isDirectoryAt_start hh path, h⟩

theorem start_continues (hc : Path.Continues base names path) : fs.start path = fs.start base := by
  rw [start, start, hc.absolute]

theorem aim_continues (hc : Path.Continues base names path) (hup : ".." ∉ names) :
    fs.aim path = fs.aim base ++ names := by
  rw [aim, ← foldl_advance_named, hc.named, List.foldl_append, foldl_advance hup, hc.named_names, foldl_advance_named,
    start_continues hc, aim]

/-- A path that goes on from a base turns on directories that are there, and then goes down. -/
theorem Direct.split (hb : fs.Direct base) (hg : fs.Grows fs') (hh : fs.root.IsDirectoryAt fs.here)
    (hc : Path.Continues base names path) (hup : ".." ∉ names) : ∃ front rest turn,
      Path.named (Path.parts path) = front ++ rest ∧ front.foldlM (step? fs'.root) (fs'.start path) = some turn ∧
        fs'.root.IsDirectoryAt turn ∧ fs.aim base ++ names = turn ++ rest ∧
          (∀ name ∈ rest, Path.isIdle name = false) ∧ ".." ∉ rest := by
  obtain ⟨front, rest, turn, hbase, hwalk, hturn, hrest⟩ := hb
  have hnamed : Path.named (Path.parts path) = Path.named front ++ (Path.named rest ++ names) := by
    rw [hc.named, hbase, Path.named_append, List.append_assoc]
  refine ⟨Path.named front, Path.named rest ++ names, turn, hnamed, ?_, hg.root.directory _ hturn, ?_, ?_, ?_⟩
  · rw [hg.start_eq, start_continues hc]
    exact walk_grows hg.root ((walk_named (isDirectoryAt_start hh base)).mp hwalk).1
  · rw [aim, hbase, List.foldl_append, ← eq_of_walk hwalk, foldl_advance hrest, List.append_assoc]
  · intro name hm
    have hm' : name ∈ Path.named (Path.parts path) := hnamed ▸ List.mem_append_right _ hm
    simpa using (List.mem_filter.mp hm').2
  · exact fun hm => (List.mem_append.mp hm).elim (fun h => hrest (List.mem_of_mem_filter h)) hup

/-- The place of a path that goes on from a base, in any file system that the first one has grown into. -/
theorem place?_continues (hg : fs.Grows fs') (hh : fs.root.IsDirectoryAt fs.here) (hb : fs.Direct base)
    (hc : Path.Continues base names path) (hup : ".." ∉ names) :
    fs'.place? path = some place ↔ path ≠ "" ∧ place = fs.aim base ++ names ∧ (fs'.root.at? place).isSome ∧
      (EndsIdle (Path.parts path) → fs'.root.IsDirectoryAt place) := by
  obtain ⟨front, rest, turn, hnamed, hwalk, hturn, haim, hidle, hdown⟩ := hb.split hg hh hc hup
  have hstart : fs'.root.IsDirectoryAt (fs'.start path) := by
    rw [hg.start_eq]
    exact hg.root.directory _ (isDirectoryAt_start hh path)
  unfold place?
  split
  · rename_i hempty
    exact ⟨nofun, fun h => absurd (String.isEmpty_iff.mp hempty) h.1⟩
  · rename_i hempty
    have hne : path ≠ "" := fun h => hempty (String.isEmpty_iff.mpr h)
    rw [walk_named hstart, hnamed, List.foldlM_append, hwalk, Option.bind_eq_bind, Option.bind_some,
      walk_names hturn hidle hdown, haim]
    simp only [ne_eq, hne, not_false_eq_true, true_and, and_assoc]

/-- Where the base leads to one place in both file systems, a path that goes on from it finds the same in both
    if the same stands where it leads to. -/
theorem find?_congr (hh : fs.root.IsDirectoryAt fs.here) (hh' : fs'.root.IsDirectoryAt fs'.here) (hb : fs.Direct base)
    (hb' : fs'.Direct base) (haim : fs'.aim base = fs.aim base) (hc : Path.Continues base names path) (hup : ".." ∉ names)
    (hat : fs'.root.at? (fs.aim base ++ names) = fs.root.at? (fs.aim base ++ names)) : fs'.find? path = fs.find? path := by
  have hplace : fs'.place? path = fs.place? path := by
    refine Option.ext fun place => ?_
    rw [place?_continues (.refl fs) hh hb hc hup, place?_continues (.refl fs') hh' hb' hc hup, haim]
    refine and_congr_right fun _ => and_congr_right fun heq => ?_
    rw [heq, IsDirectoryAt, IsDirectoryAt, hat]
  unfold find?
  rw [hplace]
  cases hp : fs.place? path with
  | none => rfl
  | some place =>
    rw [Option.bind_some, Option.bind_some, ((place?_continues (.refl fs) hh hb hc hup).mp hp).2.1, hat]

theorem Direct.grows (h : fs.Direct base) (hg : fs.Grows fs') : fs'.Direct base := by
  obtain ⟨front, rest, place, hparts, hwalk, hd, hrest⟩ := h
  exact ⟨front, rest, place, hparts, hg.start_eq base ▸ walk_grows hg.root hwalk, hg.root.directory _ hd, hrest⟩

/-- A path that goes on from a base and ends with a name is found where it leads to. -/
theorem find?_continues (hg : fs.Grows fs') (hh : fs.root.IsDirectoryAt fs.here) (hb : fs.Direct base)
    (hc : Path.Continues base names path) (hup : ".." ∉ names) (hne : path ≠ "") (hend : ¬EndsIdle (Path.parts path)) :
    fs'.find? path = fs'.root.at? (fs.aim base ++ names) := by
  refine Option.ext fun found => ?_
  unfold find?
  rw [Option.bind_eq_some_iff]
  simp only [place?_continues hg hh hb hc hup, hend, false_implies, and_true]
  constructor
  · rintro ⟨place, ⟨-, rfl, -⟩, hfound⟩
    exact hfound
  · exact fun hfound => ⟨_, ⟨hne, rfl, by rw [hfound, Option.isSome_some]⟩, hfound⟩

end FileSystem
end Letterpress
