import Letterpress.Proofs.Files.Way
import Letterpress.Proofs.Path.Relative

/-! File systems that have grown below one place only. Paths that go on from a base apart from that place find
    there what they have found before. -/

namespace Letterpress

/-- Neither of the places lies in the other. -/
def Apart (place other : List String) : Prop :=
  ¬place <+: other ∧ ¬other <+: place

instance (place other : List String) : Decidable (Apart place other) :=
  inferInstanceAs (Decidable (_ ∧ _))

theorem Apart.append {place other : List String} (h : Apart place other) (names : List String) :
    Apart (place ++ names) other := by
  refine ⟨fun hp => h.1 ((List.prefix_append _ _).trans hp), fun hp => ?_⟩
  rcases List.prefix_or_prefix_of_prefix hp (List.prefix_append place names) with hother | hplace
  · exact h.2 hother
  · exact h.1 hplace

theorem Apart.not_prefix {place other : List String} (h : Apart place other) (names : List String) :
    ¬place <+: other ++ names := by
  intro hp
  rcases List.prefix_or_prefix_of_prefix hp (List.prefix_append other names) with hplace | hother
  · exact h.1 hplace
  · exact h.2 hother

namespace FileSystem

variable {fs fs' : FileSystem} {place names : List String} {base path : String}

/-- What was there still is, and nothing has changed apart from the place. -/
structure GrowsUnder (place : List String) (fs fs' : FileSystem) : Prop extends fs.Grows fs' where
  apart : ∀ q, Apart q place → fs'.root.at? q = fs.root.at? q

theorem GrowsUnder.refl (place : List String) (fs : FileSystem) : fs.GrowsUnder place fs :=
  ⟨.refl fs, fun _ _ => rfl⟩

theorem GrowsUnder.find?_eq (h : GrowsUnder place fs fs') (hh : fs.root.IsDirectoryAt fs.here) (hb : fs.Direct base)
    (ha : Apart (fs.aim base) place) (hc : Path.Continues base names path) (hup : ".." ∉ names) :
    fs'.find? path = fs.find? path :=
  find?_congr hh (h.here ▸ h.root.directory _ hh) hb (hb.grows h.toGrows) (h.aim_eq base) hc hup
    (h.apart _ (ha.append names))

end FileSystem
end Letterpress
