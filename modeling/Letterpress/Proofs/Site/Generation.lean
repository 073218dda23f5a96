import Letterpress.Proofs.Files.Apart
import Letterpress.Proofs.Page.Basic
import Letterpress.Proofs.Site.Pages

/-! What a page is generated from: its text, the templates, and the answers to its checks. Files that come to be
    apart from the source directory and the file root make no difference to it. -/

namespace Letterpress

variable {config : Config} {fs files : FileSystem} {registry : Registry} {page : String}

/-- Files found alike under the source directory and the file root answer all checks alike. -/
theorem Config.seesAlike
    (hsource : ∀ {names path}, ".." ∉ names → Path.Continues config.source names path → files.find? path = fs.find? path)
    (hroot : ∀ {names path}, ".." ∉ names → Path.Continues config.fileRoot names path → files.find? path = fs.find? path) :
    (config.context fs.probe).SeesAlike (config.context files.probe) := by
  refine @Context.seesAlike_of_probes (config.context fs.probe) fs.probe files.probe (fun path hp => ?_) fun path hp => ?_
  · obtain ⟨names, hup, hc⟩ := hp.continues
    show files.isFile path = fs.isFile path
    rw [FileSystem.isFile, FileSystem.isFile, hroot hup hc]
  · obtain ⟨names, hup, hc⟩ := hp.continues
    show files.isFile path = fs.isFile path ∧ files.isDirectory path = fs.isDirectory path
    rw [FileSystem.isFile, FileSystem.isFile, FileSystem.isDirectory, FileSystem.isDirectory, hsource hup hc]
    exact ⟨rfl, rfl⟩

namespace Site

theorem generate_congr (htext : readText files page = readText fs page)
    (h : (config.context fs.probe).SeesAlike (config.context files.probe)) :
    generate config registry files page = generate config registry fs page := by
  rw [generate, generate, htext]
  cases readText fs page with
  | error failure => rfl
  | ok text => simp only [Page.render_congr h rfl rfl]

/-! ### Sites with an output directory of its own -/

/-- The output directory is apart from the source directory, and its path does not turn back from something
    that is not there. -/
structure Separate (config : Config) (fs : FileSystem) : Prop where
  wellFormed : fs.root.WellFormed
  here : fs.root.IsDirectoryAt fs.here
  source : fs.isDirectory config.source = true
  output : fs.Direct config.output
  apart : Apart (fs.aim config.source) (fs.aim config.output)

/-- The file root is apart from the output directory, and so is its path. -/
structure FilesSeparate (config : Config) (fs : FileSystem) : Prop where
  direct : fs.Direct config.fileRoot
  apart : Apart (fs.aim config.fileRoot) (fs.aim config.output)

namespace Separate

variable (hs : Separate config fs) (hg : fs.GrowsUnder (fs.aim config.output) files)
include hs hg

theorem find?_eq {names : List String} {path : String} (hup : ".." ∉ names)
    (hc : Path.Continues config.source names path) : files.find? path = fs.find? path :=
  hg.find?_eq hs.here (FileSystem.direct_of_isDirectory hs.source) hs.apart hc hup

theorem findFiles_eq (suffix : String) : findFiles files config.source suffix = findFiles fs config.source suffix := by
  rw [findFiles, findFiles, hs.find?_eq hg List.not_mem_nil (Path.continues_refl config.source)]

theorem readText_eq {path suffix : String} (h : path ∈ findFiles fs config.source suffix) :
    readText files path = readText fs path := by
  obtain ⟨front, last, hnames, -, rfl⟩ := exists_names_of_mem_findFiles hs.wellFormed h
  have hfind := hs.find?_eq hg (Path.IsName.ne_up hnames) (Path.below_foldl_join hnames).continues
  rw [readText, readText, FileSystem.read?, FileSystem.read?, hfind]

/-- Outputs apart from all that the pages check make no difference to any page. -/
theorem generate_eq (hf : FilesSeparate config fs) (h : page ∈ findFiles fs config.source config.pageSuffix) :
    generate config registry files page = generate config registry fs page :=
  generate_congr (hs.readText_eq hg h)
    (Config.seesAlike (fun hup hc => hs.find?_eq hg hup hc) fun hup hc => hg.find?_eq hs.here hf.direct hf.apart hc hup)

end Separate
end Site
end Letterpress
