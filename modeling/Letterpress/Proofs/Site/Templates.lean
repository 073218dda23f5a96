import Letterpress.Proofs.Site.Generation

/-! Loading the templates of a site. It writes nothing, and what it leaves is a matter of the template files
    alone: the registry they come to, and which of them fail. -/

namespace Letterpress
namespace Site

/-- The registry with the templates of a file, and whether the file fails. -/
def loadFrom (files : FileSystem) (registry : Registry) (path : String) : Registry × Bool :=
  match readText files path with
  | .error _ => (registry, true)
  | .ok text =>
    match registry.loadFile path text with
    | (registry, .ok _) => (registry, false)
    | (registry, .error _) => (registry, true)

/-- The registry that files come to one after the other, and those of them that fail. -/
def loadEach (files : FileSystem) (registry : Registry) : List String → Registry × List String
  | [] => (registry, [])
  | path :: paths =>
    let (next, fails) := loadFrom files registry path
    let (last, failed) := loadEach files next paths
    (last, if fails then path :: failed else failed)

/-- The registry of a site, and its template files that fail. -/
def templates (config : Config) (fs : FileSystem) : Registry × List String :=
  loadEach fs {} (findFiles fs config.source config.templateSuffix)

variable {config : Config} {fs files : FileSystem} {p : Progress} {path : String} {paths : List String}

/-- One file changes the registry, and counts if it fails. -/
theorem loadTemplates_spec : (loadTemplates p path).files = p.files ∧ (loadTemplates p path).pages = p.pages ∧
    (loadTemplates p path).registry = (loadFrom p.files p.registry path).1 ∧
    (loadTemplates p path).failures = p.failures + (loadFrom p.files p.registry path).2.toNat := by
  unfold loadTemplates loadFrom
  dsimp only [Progress.report]
  cases readText p.files path with
  | error failure => exact ⟨rfl, rfl, rfl, rfl⟩
  | ok text =>
    dsimp only
    generalize p.registry.loadFile path text = loaded
    obtain ⟨registry, result⟩ := loaded
    cases result <;> exact ⟨rfl, rfl, rfl, rfl⟩

theorem foldl_loadTemplates : (paths.foldl loadTemplates p).files = p.files ∧ (paths.foldl loadTemplates p).pages = p.pages ∧
    (paths.foldl loadTemplates p).registry = (loadEach p.files p.registry paths).1 ∧
    (paths.foldl loadTemplates p).failures = p.failures + (loadEach p.files p.registry paths).2.length := by
  induction paths generalizing p with
  | nil => exact ⟨rfl, rfl, rfl, rfl⟩
  | cons path paths ih =>
    obtain ⟨hfiles, hpages, hregistry, hfailures⟩ := @loadTemplates_spec p path
    obtain ⟨ihFiles, ihPages, ihRegistry, ihFailures⟩ := @ih (loadTemplates p path)
    rw [hfiles, hregistry] at ihRegistry ihFailures
    refine ⟨ihFiles.trans hfiles, ihPages.trans hpages, ihRegistry, ?_⟩
    rw [List.foldl_cons, ihFailures, hfailures, loadEach, Nat.add_assoc]
    dsimp only
    cases (loadFrom p.files p.registry path).2 with
    | false => simp
    | true => simp [Nat.add_comm]

theorem loadAll_spec (config : Config) (fs : FileSystem) : (loadAll config fs).files = fs ∧ (loadAll config fs).pages = 0 ∧
    (loadAll config fs).registry = (templates config fs).1 ∧ (loadAll config fs).failures = (templates config fs).2.length := by
  obtain ⟨hfiles, hpages, hregistry, hfailures⟩ :=
    @foldl_loadTemplates { files := fs } (findFiles fs config.source config.templateSuffix)
  rw [Nat.zero_add] at hfailures
  unfold loadAll
  dsimp only
  split <;> exact ⟨hfiles, hpages, hregistry, hfailures⟩

/-- A site with one file that holds one template. -/
theorem loadAll_of_template {text : String} {t : Template}
    (hf : findFiles fs config.source config.templateSuffix = [path]) (hr : readText fs path = .ok text)
    (hl : Template.load path text = .ok [t]) : loadAll config fs =
      { files := fs, registry := ⟨[t]⟩, notices := [.reading path, .registered t.name] } := by
  have hload : Registry.loadFile {} path text = (⟨[t]⟩, .ok [t]) := by
    rw [Registry.loadFile, hl]
    rfl
  rw [loadAll, hf, List.foldl_cons, List.foldl_nil, loadTemplates]
  simp only [Progress.report, hr, hload]
  rfl

/-! ### The same templates from other files -/

/-- The same build with other files. -/
def Progress.withFiles (p : Progress) (files : FileSystem) : Progress :=
  { p with files }

theorem loadTemplates_withFiles (h : readText files path = readText p.files path) :
    loadTemplates (p.withFiles files) path = (loadTemplates p path).withFiles files := by
  unfold loadTemplates
  dsimp only [Progress.withFiles, Progress.report]
  rw [h]
  cases readText p.files path with
  | error failure => rfl
  | ok text =>
    dsimp only
    generalize p.registry.loadFile path text = loaded
    obtain ⟨registry, result⟩ := loaded
    cases result <;> rfl

theorem foldl_loadTemplates_withFiles (h : ∀ path ∈ paths, readText files path = readText p.files path) :
    paths.foldl loadTemplates (p.withFiles files) = (paths.foldl loadTemplates p).withFiles files := by
  induction paths generalizing p with
  | nil => rfl
  | cons path paths ih =>
    obtain ⟨hpath, hpaths⟩ := List.forall_mem_cons.mp h
    rw [List.foldl_cons, List.foldl_cons, loadTemplates_withFiles hpath]
    exact ih fun path hm => by rw [hpaths path hm, loadTemplates_spec.1]

theorem Separate.loadAll_eq (hs : Separate config fs) (hg : fs.GrowsUnder (fs.aim config.output) files) :
    loadAll config files = (loadAll config fs).withFiles files := by
  have hload : (findFiles fs config.source config.templateSuffix).foldl loadTemplates { files } =
      ((findFiles fs config.source config.templateSuffix).foldl loadTemplates { files := fs }).withFiles files :=
    @foldl_loadTemplates_withFiles files { files := fs } _ fun path hm => hs.readText_eq hg hm
  unfold loadAll
  rw [hs.findFiles_eq hg, hload]
  dsimp only [Progress.withFiles]
  split <;> rfl

end Site
end Letterpress
