import Letterpress.Proofs.Files.Walk
import Letterpress.Proofs.Path.Relative

/-! Paths seen from a root directory, followed through a file system. Such a path goes from where the root leads to
    and never turns back behind it; what could turn back is refused. -/

namespace Letterpress

/-- To follow a path seen from a base is to follow it from where the base leads to. -/
theorem FileSystem.aim_join (fs : FileSystem) {base path : String} (h : Path.isAbsolute path = false) :
    fs.aim (Path.join base path) = (Path.parts path).foldl advance (fs.aim base) := by
  have hc : Path.Continues base _ (Path.join base path) := Path.continues_join h
  rw [aim, ← foldl_advance_named, Path.named_join h, List.foldl_append, foldl_advance_named, foldl_advance_named,
    start_continues hc, aim]

namespace Path

/-- A path is refused exactly if one of its parts is that for a parent directory. Any other is joined to the root
    without the slashes at its start: it is followed from where the root leads to, and whatever place that is, no
    number of its parts leads out of it. -/
theorem joinUnder_confined (root path : String) :
    (joinUnder root path = none ↔ ".." ∈ parts path) ∧
      (".." ∉ parts path → joinUnder root path = some (join root (relative path)) ∧
        (∀ fs : FileSystem,
          fs.aim (join root (relative path)) = (parts (relative path)).foldl FileSystem.advance (fs.aim root)) ∧
        ∀ home way, way <+: parts (relative path) → home <+: way.foldl FileSystem.advance home) := by
  rw [joinUnder_eq]
  refine ⟨by simp, fun hup => ⟨if_neg hup, fun fs => fs.aim_join (not_isAbsolute_relative path), ?_⟩⟩
  intro home way hway
  have hdown : ".." ∉ way := fun hm => hup (up_mem_parts_relative.mp (hway.subset hm))
  rw [FileSystem.foldl_advance hdown]
  exact List.prefix_append home _

/-- Names with dots at either end are no parent directories, and the slashes at the start say nothing. -/
theorem thumbnail_confined :
    joinUnder "www/" "//./..thumbs/a..b//.cache/" = some "www/./..thumbs/a..b//.cache/" ∧
      (∀ way, way <+: [".", "..thumbs", "a..b", "", ".cache", ""] → ["www"] <+: way.foldl FileSystem.advance ["www"]) ∧
      joinUnder "www/" "//thumbs/../a" = none := by
  have hparts : parts (relative "//./..thumbs/a..b//.cache/") = [".", "..thumbs", "a..b", "", ".cache", ""] := by decide
  obtain ⟨hjoin, -, hinside⟩ := (joinUnder_confined "www/" "//./..thumbs/a..b//.cache/").2 (by decide)
  refine ⟨hjoin.trans (by decide), fun way hway => hinside ["www"] way (hparts ▸ hway), ?_⟩
  exact (joinUnder_confined "www/" "//thumbs/../a").1.mpr (by decide)

end Path
end Letterpress
