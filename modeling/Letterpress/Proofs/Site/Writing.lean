import Letterpress.Proofs.Files.Apart
import Letterpress.Proofs.Site.Pages

/-! Writing an output. Only the file at its place changes, and only if the writing succeeds; nothing else
    appears but directories on the way. What has been written can be written again and changes nothing. -/

namespace Letterpress

namespace Site
open FileTree (fileAt?)

/-- The failure is that of a file that could not be written. -/
def Failure.isOfWriting : Failure → Bool
  | .directory _ | .write _ => true
  | _ => false

variable {files files' : FileSystem} {base output name content : String} {front : List String}
  {result : Except Failure Unit}

/-- What writing comes to: directories could not be made, or the file could not be put, or it has been put. -/
theorem write_cases (hname : Path.fileName? output = some name) (h : write files output content = (files', result)) :
    ∃ grown reached, files.makeDirectory (Path.directory output) = (grown, reached) ∧
      ((reached = none ∧ files' = grown ∧ result = .error (.directory (Path.directory output))) ∨
        ∃ place, reached = some place ∧
          ((grown.putFile? (place ++ [name]) content.toUTF8 = none ∧ files' = grown ∧ result = .error (.write output)) ∨
            (grown.putFile? (place ++ [name]) content.toUTF8 = some files' ∧ result = .ok ()))) := by
  unfold write at h
  split at h
  · rename_i grown hmake
    cases h
    exact ⟨files', none, hmake, Or.inl ⟨rfl, rfl, rfl⟩⟩
  · rename_i grown place hmake
    refine ⟨grown, some place, hmake, Or.inr ⟨place, rfl, ?_⟩⟩
    rw [hname, Option.bind_some] at h
    split at h
    · rename_i hput
      cases h
      exact Or.inl ⟨hput, rfl, rfl⟩
    · rename_i hput
      cases h
      exact Or.inr ⟨hput, rfl⟩

namespace IsOutput

variable (ho : IsOutput base front name output)
include ho

theorem not_up : ".." ∉ front ++ [name] := by
  intro hm
  rcases List.mem_append.mp hm with hm | hm
  · exact (ho.names _ hm).2.2.1 rfl
  · exact ho.last.2.2.1 (List.mem_singleton.mp hm).symm

theorem named_eq : Path.named (Path.parts output) = (Path.named (Path.parts base) ++ front) ++ [name] := by
  rw [ho.path.named, List.append_assoc]

theorem fileName?_eq : Path.fileName? output = some name :=
  Path.fileName?_of_named ho.named_eq ho.last

theorem directory : Path.Continues base front (Path.directory output) := by
  obtain ⟨habsolute, hnamed⟩ := Path.directory_spec ho.named_eq ho.last
  exact ⟨habsolute.trans ho.path.absolute, hnamed⟩

theorem aim_eq : files.aim output = files.aim base ++ front ++ [name] := by
  rw [FileSystem.aim_continues ho.path ho.not_up, List.append_assoc]

theorem aim_directory : files.aim (Path.directory output) = files.aim base ++ front :=
  FileSystem.aim_continues ho.directory fun hm => ho.not_up (List.mem_append_left _ hm)

/-- The file under the path is the one at the place it leads to. -/
theorem read?_eq (hg : files.Grows files') (hh : files.root.IsDirectoryAt files.here) (hb : files.Direct base) :
    files'.read? output = files'.root.fileAt? (files.aim output) := by
  have hidle : ¬FileSystem.EndsIdle (Path.parts output) := fun ⟨part, hpart, hidle⟩ => by
    rw [ho.ending] at hpart
    cases hpart
    rw [ho.last.not_idle] at hidle
    cases hidle
  have hne : output ≠ "" := by
    rintro rfl
    exact ho.last.1 (Option.some.inj ho.ending).symm
  rw [FileSystem.read?, FileSystem.find?_continues hg hh hb ho.path ho.not_up hne hidle,
    FileSystem.aim_continues ho.path ho.not_up]
  rfl

theorem write_grows (h : write files output content = (files', result)) : files.Grows files' := by
  obtain ⟨grown, reached, hmake, ⟨-, rfl, -⟩ | ⟨place, -, ⟨-, rfl, -⟩ | ⟨hput, -⟩⟩⟩ := write_cases ho.fileName?_eq h
  · exact FileSystem.makeDirectory_grows hmake
  · exact FileSystem.makeDirectory_grows hmake
  · obtain ⟨hhere, hput⟩ := FileSystem.putFile?_eq_some.mp hput
    exact (FileSystem.makeDirectory_grows hmake).trans ⟨hhere, .putFile hput⟩

/-- The place that writing comes to is that of the output. -/
theorem aim_eq_of_reached {grown : FileSystem} {place : List String} (hh : files.root.IsDirectoryAt files.here)
    (hmake : files.makeDirectory (Path.directory output) = (grown, some place)) : place ++ [name] = files.aim output := by
  rw [(FileSystem.reached_of_makeDirectory hh hmake).1, ho.aim_directory, ho.aim_eq]

/-- Writing that succeeds leaves the content at the place of the output, and no other file changes. -/
theorem fileAt?_write (hh : files.root.IsDirectoryAt files.here) (h : write files output content = (files', .ok ()))
    (q : List String) :
    files'.root.fileAt? q = if q = files.aim output then some content.toUTF8 else files.root.fileAt? q := by
  obtain ⟨grown, reached, hmake, ⟨-, -, ⟨⟩⟩ | ⟨place, rfl, ⟨-, -, ⟨⟩⟩ | ⟨hput, -⟩⟩⟩ := write_cases ho.fileName?_eq h
  obtain ⟨-, hput⟩ := FileSystem.putFile?_eq_some.mp hput
  rw [ho.aim_eq_of_reached hh hmake] at hput
  obtain ⟨hat, hother, hway⟩ := FileTree.at?_putFile hput
  split
  · rename_i heq
    rw [heq, FileTree.fileAt?_eq_some, hat]
  · rename_i hne
    rw [← FileSystem.fileAt?_makeDirectory hmake]
    by_cases hq : q <+: files.aim output
    · obtain ⟨hbefore, hafter⟩ := hway q hq hne
      rw [FileTree.fileAt?_eq_none_of_isDirectoryAt hbefore, FileTree.fileAt?_eq_none_of_isDirectoryAt hafter]
    · rw [fileAt?, fileAt?, hother q hq]

/-- Writing that fails changes no file. -/
theorem fileAt?_write_error {failure : Failure} (h : write files output content = (files', .error failure)) :
    (∀ q, files'.root.fileAt? q = files.root.fileAt? q) ∧ failure.isOfWriting = true := by
  obtain ⟨grown, reached, hmake, ⟨-, rfl, hr⟩ | ⟨place, -, ⟨-, rfl, hr⟩ | ⟨-, hr⟩⟩⟩ := write_cases ho.fileName?_eq h
  · cases hr
    exact ⟨FileSystem.fileAt?_makeDirectory hmake, rfl⟩
  · cases hr
    exact ⟨FileSystem.fileAt?_makeDirectory hmake, rfl⟩
  · cases hr

/-- Only what leads down to the output changes. -/
theorem at?_write {start : FileSystem} (hg : start.Grows files) (hh : start.root.IsDirectoryAt start.here)
    (hb : start.Direct base) (h : write files output content = (files', result)) {q : List String}
    (hq : ¬q <+: start.aim output) : files'.root.at? q = files.root.at? q := by
  have hfront : ¬q <+: start.aim base ++ front := fun hp => hq (ho.aim_eq ▸ hp.trans (List.prefix_append _ _))
  have hup : ".." ∉ front := fun hm => ho.not_up (List.mem_append_left _ hm)
  have hhere : files.root.IsDirectoryAt files.here := by
    rw [hg.here]
    exact hg.root.directory _ hh
  obtain ⟨grown, reached, hmake, hcases⟩ := write_cases ho.fileName?_eq h
  have hmade : grown.root.at? q = files.root.at? q := FileSystem.at?_makeDirectory hg hh hb ho.directory hup hmake hfront
  obtain ⟨-, rfl, -⟩ | ⟨place, rfl, ⟨-, rfl, -⟩ | ⟨hput, -⟩⟩ := hcases
  · exact hmade
  · exact hmade
  · obtain ⟨-, hput⟩ := FileSystem.putFile?_eq_some.mp hput
    rw [ho.aim_eq_of_reached hhere hmake, hg.aim_eq] at hput
    rw [(FileTree.at?_putFile hput).2.1 q hq, hmade]

theorem growsUnder_write {start : FileSystem} (hg : start.GrowsUnder (start.aim base) files)
    (hh : start.root.IsDirectoryAt start.here) (hb : start.Direct base) (h : write files output content = (files', result)) :
    start.GrowsUnder (start.aim base) files' := by
  refine ⟨hg.toGrows.trans (ho.write_grows h), fun q hq => ?_⟩
  have hdown : ¬q <+: start.aim output := by
    rw [ho.aim_eq, List.append_assoc]
    exact hq.not_prefix _
  rw [ho.at?_write hg.toGrows hh hb h hdown, hg.apart q hq]

/-- An output that is still there is written again without any change. -/
theorem write_again {later : FileSystem} (hh : files.root.IsDirectoryAt files.here)
    (h : write files output content = (files', result)) (hg : files'.Grows later)
    (hkept : result = .ok () → later.root.fileAt? (files.aim output) = some content.toUTF8) :
    write later output content = (later, result) := by
  obtain ⟨grown, reached, hmake, hcases⟩ := write_cases ho.fileName?_eq h
  have hagain : later.makeDirectory (Path.directory output) = (later, reached) := by
    refine FileSystem.makeDirectory_again hmake ?_
    obtain ⟨-, rfl, -⟩ | ⟨place, -, ⟨-, rfl, -⟩ | ⟨hput, -⟩⟩ := hcases
    · exact hg
    · exact hg
    · obtain ⟨hhere, hput⟩ := FileSystem.putFile?_eq_some.mp hput
      exact FileSystem.Grows.trans ⟨hhere, .putFile hput⟩ hg
  unfold write
  rw [hagain]
  obtain ⟨rfl, -, rfl⟩ | ⟨place, rfl, hcases⟩ := hcases
  · rfl
  · obtain ⟨-, hplace⟩ := FileSystem.reached_of_makeDirectory hh hmake
    dsimp only
    rw [ho.fileName?_eq, Option.bind_some]
    obtain ⟨hput, rfl, rfl⟩ | ⟨hput, rfl⟩ := hcases
    · have hd := (FileTree.putFile_eq_none_iff hplace).mp (Option.map_eq_none_iff.mp hput)
      have hput' : later.root.putFile content.toUTF8 (place ++ [name]) = none :=
        (FileTree.putFile_eq_none_iff (hg.root.directory _ hplace)).mpr (hg.root.directory _ hd)
      rw [FileSystem.putFile?, hput']
      rfl
    · have hfile := FileTree.fileAt?_eq_some.mp (hkept rfl)
      rw [← ho.aim_eq_of_reached hh hmake] at hfile
      have hput' : later.putFile? (place ++ [name]) content.toUTF8 = some later :=
        FileSystem.putFile?_eq_some.mpr ⟨rfl, FileTree.putFile_self (by simp) hfile⟩
      rw [hput']

end IsOutput
end Site
end Letterpress
