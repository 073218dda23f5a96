import Letterpress.Proofs.Files.Walk
import Letterpress.Proofs.Path.Relative

/-! Making directories on the way of a path. No file changes, what is there stays there, and going the same way
    again makes nothing more. Only places on the way change, and the way ends where the path leads to. -/

namespace Letterpress
namespace FileTree

variable {tree tree' : FileTree} {names : List String}

theorem fileAt?_makeDirectories (h : makeDirectories names tree = some tree') (q : List String) :
    tree'.fileAt? q = tree.fileAt? q := by
  by_cases hq : q <+: names
  · rw [fileAt?_eq_none_of_isDirectoryAt (isDirectoryAt_makeDirectories h hq)]
    symm
    refine Option.eq_none_iff_forall_ne_some.mpr fun content hfile => ?_
    have hnone := makeDirectories_eq_none.mpr ⟨q, hq, content, fileAt?_eq_some.mp hfile⟩
    cases hnone.symm.trans h
  · rw [fileAt?, fileAt?, at?_makeDirectories h hq]

end FileTree

namespace FileSystem
open FileTree
open Path (named Component.ofPart?)

variable {root root' root'' : FileTree} {place start next q : List String} {steps : List Path.Component}
  {reached : Option (List String)} {part : String} {parts names : List String}

/-! ### Steps -/

theorem makeWay_grows (h : makeWay root place steps = (root', reached)) : root.Grows root' := by
  induction steps generalizing root place with
  | nil =>
    cases h
    exact .refl _
  | cons step steps ih =>
    cases step with
    | root => exact ih h
    | here => exact ih h
    | parent => exact ih h
    | name text =>
      unfold makeWay at h
      split at h
      · rename_i grown hgrown
        exact (Grows.makeDirectories hgrown).trans (ih h)
      · cases h
        exact .refl _

theorem fileAt?_makeWay (h : makeWay root place steps = (root', reached)) (q : List String) :
    root'.fileAt? q = root.fileAt? q := by
  induction steps generalizing root place with
  | nil =>
    cases h
    rfl
  | cons step steps ih =>
    cases step with
    | root => exact ih h
    | here => exact ih h
    | parent => exact ih h
    | name text =>
      unfold makeWay at h
      split at h
      · rename_i grown hgrown
        rw [ih h, fileAt?_makeDirectories hgrown]
      · cases h
        rfl

/-- Going the same way again makes nothing more and comes to the same place. -/
theorem makeWay_again (h : makeWay root place steps = (root', reached)) (hg : root'.Grows root'') :
    makeWay root'' place steps = (root'', reached) := by
  induction steps generalizing root place with
  | nil =>
    cases h
    rfl
  | cons step steps ih =>
    cases step with
    | root => exact ih h
    | here => exact ih h
    | parent => exact ih h
    | name text =>
      unfold makeWay at h ⊢
      -- What has been made is there, and a file that was in the way still is.
      split at h
      · rename_i grown hgrown
        have hd : root''.IsDirectoryAt (place ++ [text]) :=
          hg.directory _ ((makeWay_grows h).directory _ (isDirectoryAt_makeDirectories hgrown List.prefix_rfl))
        rw [makeDirectories_self hd]
        exact ih h
      · rename_i hnone
        cases h
        obtain ⟨q, hq, hfile⟩ := makeDirectories_eq_none.mp hnone
        rw [makeDirectories_eq_none.mpr ⟨q, hq, hg.file _ hfile⟩]

/-! ### Parts -/

/-- The way of the parts of a path. -/
def makeWayOf (root : FileTree) (place parts : List String) : FileTree × Option (List String) :=
  makeWay root place (parts.filterMap Component.ofPart?)

theorem makeWayOf_idle (hidle : Path.isIdle part = true) : makeWayOf root place (part :: parts) = makeWayOf root place parts := by
  rw [makeWayOf, List.filterMap_cons_none (Path.ofPart?_eq_none.mpr hidle), makeWayOf]

theorem makeWayOf_parent : makeWayOf root place (".." :: parts) = makeWayOf root place.dropLast parts :=
  rfl

theorem makeWayOf_name (hidle : Path.isIdle part = false) (hup : part ≠ "..") :
    makeWayOf root place (part :: parts) = match root.makeDirectories (place ++ [part]) with
      | some grown => makeWayOf grown (place ++ [part]) parts
      | none => (root, none) := by
  have hstep : Component.ofPart? part = some (.name part) := Path.ofPart?_eq_some.mpr (Or.inr ⟨hidle, hup, rfl⟩)
  rw [makeWayOf, List.filterMap_cons_some hstep, makeWay]
  rfl

theorem makeWay_components (fs : FileSystem) (root : FileTree) (path : String) :
    makeWay root fs.here (Path.components path) = makeWayOf root (fs.start path) (named (Path.parts path)) := by
  obtain ⟨first, rest, hp⟩ := List.exists_cons_of_ne_nil (Path.parts_ne_nil path)
  have habsolute := (Path.isAbsolute_eq hp).1
  rw [makeWayOf, Path.filterMap_ofPart?_named, hp]
  by_cases hroot : first = ""
  · subst hroot
    cases rest with
    | nil =>
      rw [Path.components, hp, start, habsolute]
      rfl
    | cons second rest =>
      rw [Path.components_eq hp fun _ => List.cons_ne_nil _ _, start, habsolute]
      rfl
  · have hrelative : Path.isAbsolute path = false := by
      rw [habsolute, Bool.eq_false_iff.mpr fun h => hroot (String.isEmpty_iff.mp h), Bool.false_and]
    rw [Path.components_eq hp fun h => absurd h hroot, start, hrelative]
    by_cases hhere : first = "."
    · subst hhere
      rfl
    · rw [Path.ofFirst_of_not_idle (Path.isIdle_eq_false.mpr ⟨hroot, hhere⟩), List.filterMap_cons]
      cases Component.ofPart? first <;> rfl

theorem isDirectoryAt_dropLast (hd : root.IsDirectoryAt place) : root.IsDirectoryAt place.dropLast := by
  by_cases heq : place.dropLast = place
  · rwa [heq]
  · obtain ⟨entries, hd⟩ := hd
    exact isDirectoryAt_of_prefix hd (List.dropLast_prefix place) heq

/-- The way ends where the parts lead to, at a directory. -/
theorem reached_of_makeWayOf (hd : root.IsDirectoryAt start) (h : makeWayOf root start parts = (root', some place)) :
    place = parts.foldl advance start ∧ root'.IsDirectoryAt place := by
  induction parts generalizing root start with
  | nil =>
    cases h
    exact ⟨rfl, hd⟩
  | cons part parts ih =>
    rw [List.foldl_cons]
    by_cases hidle : Path.isIdle part = true
    · rw [makeWayOf_idle hidle] at h
      rw [advance, if_pos hidle]
      exact ih hd h
    · by_cases hup : part = ".."
      · subst hup
        exact ih (isDirectoryAt_dropLast hd) h
      · rw [Bool.not_eq_true] at hidle
        rw [makeWayOf_name hidle hup] at h
        split at h
        · rename_i grown hgrown
          rw [advance_name hidle hup]
          exact ih (isDirectoryAt_makeDirectories hgrown List.prefix_rfl) h
        · cases h

/-- Where directories are on the way already, none are made. -/
theorem makeWayOf_walk (hw : parts.foldlM (step? root) start = some place) (hd : root.IsDirectoryAt place) :
    makeWayOf root start parts = (root, some place) := by
  induction parts generalizing start with
  | nil =>
    cases hw
    rfl
  | cons part parts ih =>
    obtain ⟨next, hnext, hrest⟩ := Option.bind_eq_some_iff.mp hw
    obtain ⟨-, hadvance, -⟩ := step?_eq_some.mp hnext
    by_cases hidle : Path.isIdle part = true
    · rw [advance, if_pos hidle] at hadvance
      rw [makeWayOf_idle hidle, ← hadvance, ih hrest]
    · rw [Bool.not_eq_true] at hidle
      by_cases hup : part = ".."
      · subst hup
        have hnext' : next = start.dropLast := hadvance
        rw [makeWayOf_parent, ← hnext', ih hrest]
      · -- The next step of the walk starts from a directory; behind the last one a directory is given.
        have hd' : root.IsDirectoryAt next := by
          cases parts with
          | nil =>
            cases hrest
            exact hd
          | cons second parts =>
            obtain ⟨_, hsecond, -⟩ := Option.bind_eq_some_iff.mp hrest
            exact (step?_eq_some.mp hsecond).1
        rw [advance_name hidle hup] at hadvance
        rw [makeWayOf_name hidle hup, ← hadvance, makeDirectories_self hd']
        exact ih hrest

theorem makeWayOf_append (front rest : List String) (hw : makeWayOf root start front = (root', some place)) :
    makeWayOf root start (front ++ rest) = makeWayOf root' place rest := by
  induction front generalizing root start with
  | nil =>
    cases hw
    rfl
  | cons part front ih =>
    rw [List.cons_append]
    by_cases hidle : Path.isIdle part = true
    · rw [makeWayOf_idle hidle] at hw ⊢
      exact ih hw
    · rw [Bool.not_eq_true] at hidle
      by_cases hup : part = ".."
      · subst hup
        exact ih hw
      · rw [makeWayOf_name hidle hup] at hw ⊢
        split at hw
        · exact ih hw
        · cases hw

/-- Going down changes nothing but the places passed. -/
theorem at?_makeWayOf_names (hidle : ∀ name ∈ names, Path.isIdle name = false) (hup : ".." ∉ names)
    (h : makeWayOf root start names = (root', reached)) (hq : ¬q <+: start ++ names) : root'.at? q = root.at? q := by
  induction names generalizing root start with
  | nil =>
    cases h
    rfl
  | cons name names ih =>
    obtain ⟨hname, hnames⟩ := List.forall_mem_cons.mp hidle
    rw [List.mem_cons, not_or] at hup
    have hsplit : start ++ name :: names = start ++ [name] ++ names := by rw [List.append_assoc, List.singleton_append]
    rw [makeWayOf_name hname (Ne.symm hup.1)] at h
    split at h
    · rename_i grown hgrown
      rw [ih hnames hup.2 h (hsplit ▸ hq)]
      exact at?_makeDirectories hgrown fun hp => hq (hsplit ▸ hp.trans (List.prefix_append _ _))
    · cases h
      rfl

/-! ### Directories of a path -/

variable {fs fs' fs'' : FileSystem} {base path : String}

theorem makeDirectory_grows (h : fs.makeDirectory path = (fs', reached)) : fs.Grows fs' := by
  cases h
  exact ⟨rfl, makeWay_grows rfl⟩

theorem fileAt?_makeDirectory (h : fs.makeDirectory path = (fs', reached)) (q : List String) :
    fs'.root.fileAt? q = fs.root.fileAt? q := by
  cases h
  exact fileAt?_makeWay rfl q

theorem makeDirectory_again (h : fs.makeDirectory path = (fs', reached)) (hg : fs'.Grows fs'') :
    fs''.makeDirectory path = (fs'', reached) := by
  cases h
  obtain ⟨root'', here⟩ := fs''
  obtain rfl : here = fs.here := hg.here
  have hagain : makeWay root'' fs.here (Path.components path) = _ := makeWay_again rfl hg.root
  rw [makeDirectory]
  dsimp only
  rw [hagain]

theorem reached_of_makeDirectory (hh : fs.root.IsDirectoryAt fs.here) (h : fs.makeDirectory path = (fs', some place)) :
    place = fs.aim path ∧ fs'.root.IsDirectoryAt place := by
  rw [makeDirectory, makeWay_components] at h
  obtain ⟨rfl, hplace⟩ := Prod.mk.inj h
  obtain ⟨heq, hd⟩ := reached_of_makeWayOf (isDirectoryAt_start hh path) (Prod.ext rfl hplace)
  exact ⟨by rw [heq, foldl_advance_named, aim], hd⟩

/-- Behind the directories that were there only those change which lead down from the base. -/
theorem at?_makeDirectory (hg : fs.Grows fs') (hh : fs.root.IsDirectoryAt fs.here) (hb : fs.Direct base)
    (hc : Path.Continues base names path) (hup : ".." ∉ names) (h : fs'.makeDirectory path = (fs'', reached))
    (hq : ¬q <+: fs.aim base ++ names) : fs''.root.at? q = fs'.root.at? q := by
  obtain ⟨front, rest, turn, hnamed, hwalk, hturn, haim, hidle, hdown⟩ := hb.split hg hh hc hup
  rw [makeDirectory, makeWay_components, hnamed, makeWayOf_append _ _ (makeWayOf_walk hwalk hturn)] at h
  obtain ⟨rfl, -⟩ := Prod.mk.inj h
  exact at?_makeWayOf_names hidle hdown rfl (haim ▸ hq)

theorem putFile?_eq_some {content : ByteArray} :
    fs.putFile? place content = some fs' ↔ fs'.here = fs.here ∧ fs.root.putFile content place = some fs'.root := by
  obtain ⟨root, here⟩ := fs
  obtain ⟨root', here'⟩ := fs'
  simp only [putFile?, Option.map_eq_some_iff, FileSystem.mk.injEq]
  constructor
  · rintro ⟨grown, hgrown, rfl, rfl⟩
    exact ⟨rfl, hgrown⟩
  · rintro ⟨rfl, hgrown⟩
    exact ⟨_, hgrown, rfl, rfl⟩

end FileSystem
end Letterpress
