import Letterpress.Proofs.Site.Templates
import Letterpress.Proofs.Site.Writing

/-! What a build leaves behind. Where outputs are apart from all that pages are generated from, a page comes to
    what it comes to with the files from the start, whatever other pages do: its output holds its text, or is
    what it was if the page fails, and no other file changes. -/

namespace Letterpress
namespace Site

variable {config : Config} {fs files : FileSystem} {p : Progress} {page output : String} {done rest : List String}

/-- The pages of a site. -/
def pages (config : Config) (fs : FileSystem) : List String :=
  findFiles fs config.source config.pageSuffix

/-- What a page comes to with the templates and the files from the start. -/
def outcome (config : Config) (fs : FileSystem) (page : String) : Except Failure String :=
  (generate config (templates config fs).1 fs page).2

/-! ### One page -/

section
variable {notices : List Notice}

theorem buildPage_error {failure : Failure} (hg : generate config p.registry p.files page = (notices, .error failure)) :
    buildPage config p page = (p.report notices).fail page failure := by
  unfold buildPage
  rw [hg]

theorem buildPage_ok {html : String} {written : Except Failure Unit} (ho : outputPath config page = .ok output)
    (hg : generate config p.registry p.files page = (notices, .ok html)) (hw : write p.files output html = (files, written)) :
    buildPage config p page = match written with
      | .error failure => { p.report notices with files }.fail page failure
      | .ok () => { (p.report notices).report [.wrote page output] with files, pages := p.pages + 1 } := by
  unfold buildPage
  rw [hg]
  simp only [ho, Progress.report, hw]
  cases written <;> rfl

/-- What building a page comes to: it fails, or its output is written, or cannot be written. -/
theorem buildPage_cases (ho : outputPath config page = .ok output) {result : Except Failure String}
    (hg : generate config p.registry p.files page = (notices, result)) :
    (∃ failure, result = .error failure ∧ buildPage config p page = (p.report notices).fail page failure) ∨
      ∃ html files written, result = .ok html ∧ write p.files output html = (files, written) ∧
        ((∃ failure, written = .error failure ∧ buildPage config p page = { p.report notices with files }.fail page failure) ∨
          (written = .ok () ∧ buildPage config p page =
            { (p.report notices).report [.wrote page output] with files, pages := p.pages + 1 })) := by
  cases result with
  | error failure => exact Or.inl ⟨failure, rfl, buildPage_error hg⟩
  | ok html =>
    cases hw : write p.files output html with
    | mk files written =>
      refine Or.inr ⟨html, files, written, rfl, hw, ?_⟩
      cases written with
      | error failure => exact Or.inl ⟨failure, rfl, buildPage_ok ho hg hw⟩
      | ok _ => exact Or.inr ⟨rfl, buildPage_ok ho hg hw⟩

end

/-- Notices are only added. -/
theorem notices_buildPage : p.notices <+: (buildPage config p page).notices := by
  have hadd : ∀ notices last : List Notice, p.notices <+: p.notices ++ notices ++ last := fun notices last =>
    (List.prefix_append _ _).trans (List.prefix_append _ _)
  unfold buildPage
  dsimp only
  split
  · exact hadd _ _
  · split
    · exact hadd _ _
    · split <;> exact hadd _ _

theorem notices_foldl : p.notices <+: (rest.foldl (buildPage config) p).notices := by
  induction rest generalizing p with
  | nil => exact List.prefix_rfl
  | cons page rest ih => exact notices_buildPage.trans ih

/-! ### All pages -/

/-- The notice says that a file could not be written. -/
def Notice.isUnwritten : Notice → Bool
  | .failed _ failure => failure.isOfWriting
  | _ => false

/-- No notice says that a file could not be written. -/
def WritesAll (notices : List Notice) : Prop :=
  ∀ notice ∈ notices, notice.isUnwritten = false

instance (notices : List Notice) : Decidable (WritesAll notices) :=
  inferInstanceAs (Decidable (∀ notice ∈ notices, notice.isUnwritten = false))

/-- How far a build has come when these pages are done. -/
structure Reached (config : Config) (fs : FileSystem) (done : List String) (p : Progress) : Prop where
  found : ∀ page ∈ done, page ∈ pages config fs
  grows : fs.GrowsUnder (fs.aim config.output) p.files
  registry : p.registry = (templates config fs).1
  written : ∀ page ∈ done, ∀ output html, outputPath config page = .ok output → outcome config fs page = .ok html →
    p.files.root.fileAt? (fs.aim output) = some html.toUTF8
  kept : ∀ place, (∀ page ∈ done, ∀ output html, outputPath config page = .ok output →
    outcome config fs page = .ok html → place ≠ fs.aim output) → p.files.root.fileAt? place = fs.root.fileAt? place
  pageCount : p.pages = done.countP fun page => (outcome config fs page).isOk
  failureCount : p.failures = (templates config fs).2.length + done.countP fun page => !(outcome config fs page).isOk

theorem reached_loadAll (config : Config) (fs : FileSystem) : Reached config fs [] (loadAll config fs) := by
  obtain ⟨hfiles, hpages, hregistry, hfailures⟩ := loadAll_spec config fs
  exact {
    found := nofun
    grows := by
      rw [hfiles]
      exact .refl _ fs
    registry := hregistry
    written := nofun
    kept := fun place _ => by rw [hfiles]
    pageCount := hpages
    failureCount := hfailures }

theorem Separate.exists_output (hs : Separate config fs) (hm : page ∈ pages config fs) :
    ∃ front stem output, IsPage config front stem page ∧ outputPath config page = .ok output ∧
      IsOutput config.output front (stem ++ ".html") output := by
  obtain ⟨front, stem, hpage⟩ := exists_isPage hs.wellFormed hm
  obtain ⟨output, ho, hout⟩ := outputPath_eq hpage
  exact ⟨front, stem, output, hpage, ho, hout⟩

/-- Pages with outputs at the same place are the same page. -/
theorem Separate.page_injective (hs : Separate config fs) {page' output' : String} (hm : page ∈ pages config fs)
    (hm' : page' ∈ pages config fs) (ho : outputPath config page = .ok output) (ho' : outputPath config page' = .ok output')
    (haim : fs.aim output = fs.aim output') : page = page' := by
  obtain ⟨front, stem, _, hpage, hout, houtput⟩ := hs.exists_output hm
  obtain ⟨front', stem', _, hpage', hout', houtput'⟩ := hs.exists_output hm'
  cases ho.symm.trans hout
  cases ho'.symm.trans hout'
  rw [houtput.aim_eq, houtput'.aim_eq] at haim
  obtain ⟨hbase, hname⟩ := List.append_inj' haim rfl
  have hfront : front = front' := List.append_cancel_left hbase
  have hstem : stem = stem' := by
    have hlist := congrArg String.toList (List.singleton_injective hname)
    rw [String.toList_append, String.toList_append] at hlist
    exact String.toList_injective (List.append_cancel_right hlist)
  rw [hpage.path, hpage'.path, hfront, hstem]

theorem Separate.isDirectoryAt_here (hs : Separate config fs) (h : fs.GrowsUnder (fs.aim config.output) p.files) :
    p.files.root.IsDirectoryAt p.files.here := by
  rw [h.here]
  exact h.root.directory _ hs.here

theorem Separate.generate_outcome (hs : Separate config fs) (hf : FilesSeparate config fs) (h : Reached config fs done p)
    (hm : page ∈ pages config fs) : (generate config p.registry p.files page).2 = outcome config fs page := by
  rw [h.registry, hs.generate_eq h.grows hf hm, outcome]

theorem Reached.fails (h : Reached config fs done p) (hm : page ∈ pages config fs) {failure : Failure}
    (ho : outcome config fs page = .error failure) {next : Progress} (hfiles : next.files = p.files)
    (hregistry : next.registry = p.registry) (hpages : next.pages = p.pages) (hfailures : next.failures = p.failures + 1) :
    Reached config fs (done ++ [page]) next where
  found := List.forall_mem_append.mpr ⟨h.found, List.forall_mem_singleton.mpr hm⟩
  grows := hfiles ▸ h.grows
  registry := hregistry.trans h.registry
  written := by
    rw [hfiles]
    refine List.forall_mem_append.mpr ⟨h.written, List.forall_mem_singleton.mpr fun _ _ _ hok => ?_⟩
    cases ho.symm.trans hok
  kept := fun place hplace => by
    rw [hfiles]
    exact h.kept place fun page hm => hplace page (List.mem_append_left _ hm)
  pageCount := by
    rw [hpages, h.pageCount]
    simp [ho, Except.isOk, Except.toBool]
  failureCount := by
    rw [hfailures, h.failureCount]
    simp [ho, Except.isOk, Except.toBool, Nat.add_assoc]

theorem Reached.writes (hs : Separate config fs) (h : Reached config fs done p) (hm : page ∈ pages config fs)
    (hp : outputPath config page = .ok output) {html : String} (ho : outcome config fs page = .ok html) {next : Progress}
    (hw : write p.files output html = (next.files, .ok ())) (hregistry : next.registry = p.registry)
    (hpages : next.pages = p.pages + 1) (hfailures : next.failures = p.failures) :
    Reached config fs (done ++ [page]) next := by
  obtain ⟨front, stem, output', -, hp', hout⟩ := hs.exists_output hm
  cases hp.symm.trans hp'
  have hfile := hout.fileAt?_write (hs.isDirectoryAt_here h.grows) hw
  rw [h.grows.aim_eq] at hfile
  exact {
    found := List.forall_mem_append.mpr ⟨h.found, List.forall_mem_singleton.mpr hm⟩
    grows := hout.growsUnder_write h.grows hs.here hs.output hw
    registry := hregistry.trans h.registry
    written := by
      refine List.forall_mem_append.mpr ⟨fun other hother output' html' hp' ho' => ?_, ?_⟩
      · rw [hfile]
        split
        · rename_i haim
          -- Two pages with one output are one page, so no output is written over by another page.
          cases hs.page_injective (h.found other hother) hm hp' hp haim
          cases ho.symm.trans ho'
          rfl
        · exact h.written other hother output' html' hp' ho'
      · refine List.forall_mem_singleton.mpr fun output' html' hp' ho' => ?_
        cases hp.symm.trans hp'
        cases ho.symm.trans ho'
        rw [hfile, if_pos rfl]
    kept := fun place hplace => by
      rw [hfile, if_neg (hplace page (List.mem_append_right _ List.mem_cons_self) output html hp ho)]
      exact h.kept place fun page hm => hplace page (List.mem_append_left _ hm)
    pageCount := by
      rw [hpages, h.pageCount]
      simp [ho, Except.isOk, Except.toBool]
    failureCount := by
      rw [hfailures, h.failureCount]
      simp [ho, Except.isOk, Except.toBool] }

theorem Reached.step (hs : Separate config fs) (hf : FilesSeparate config fs) (h : Reached config fs done p)
    (hm : page ∈ pages config fs) (hw : WritesAll (buildPage config p page).notices) :
    Reached config fs (done ++ [page]) (buildPage config p page) := by
  obtain ⟨front, stem, output, -, hp, hout⟩ := hs.exists_output hm
  have houtcome := hs.generate_outcome hf h hm
  rcases buildPage_cases hp (Prod.eta (generate config p.registry p.files page)).symm with
    ⟨failure, hresult, hbuild⟩ | ⟨html, files, written, hresult, hwrite, ⟨failure, rfl, hbuild⟩ | ⟨rfl, hbuild⟩⟩
  · rw [hresult] at houtcome
    rw [hbuild]
    exact h.fails hm houtcome.symm rfl rfl rfl rfl
  · have hnotice : Notice.failed page failure ∈ (buildPage config p page).notices := by
      rw [hbuild]
      exact List.mem_append_right _ List.mem_cons_self
    cases (hout.fileAt?_write_error hwrite).2.symm.trans (hw _ hnotice)
  · rw [hresult] at houtcome
    rw [hbuild]
    exact h.writes hs hm hp houtcome.symm hwrite rfl rfl rfl

theorem Reached.run (hs : Separate config fs) (hf : FilesSeparate config fs) (h : Reached config fs done p)
    (hm : ∀ page ∈ rest, page ∈ pages config fs) (hw : WritesAll (rest.foldl (buildPage config) p).notices) :
    Reached config fs (done ++ rest) (rest.foldl (buildPage config) p) := by
  induction rest generalizing done p with
  | nil =>
    rw [List.append_nil]
    exact h
  | cons page rest ih =>
    obtain ⟨hpage, hrest⟩ := List.forall_mem_cons.mp hm
    have hlater : (buildPage config p page).notices <+: (rest.foldl (buildPage config) (buildPage config p page)).notices :=
      notices_foldl
    have hfirst : WritesAll (buildPage config p page).notices := fun notice hn => hw notice (hlater.subset hn)
    have hnext := ih (h.step hs hf hpage hfirst) hrest hw
    rwa [List.append_assoc, List.singleton_append] at hnext

/-! ### The build -/

theorem buildAll_eq (config : Config) (fs : FileSystem) :
    buildAll config fs = (pages config fs).foldl (buildPage config) (loadAll config fs) := by
  unfold buildAll pages
  dsimp only
  rw [(loadAll_spec config fs).1]

/-- A build with one file that holds one template. -/
theorem buildAll_of_template {path text : String} {t : Template} {paths : List String} (hp : pages config fs = paths)
    (hf : findFiles fs config.source config.templateSuffix = [path]) (hr : readText fs path = .ok text)
    (hl : Template.load path text = .ok [t]) : buildAll config fs = paths.foldl (buildPage config)
      { files := fs, registry := ⟨[t]⟩, notices := [.reading path, .registered t.name] } := by
  rw [buildAll_eq, hp, loadAll_of_template hf hr hl]

theorem reached_buildAll (hs : Separate config fs) (hf : FilesSeparate config fs)
    (hw : WritesAll (buildAll config fs).notices) : Reached config fs (pages config fs) (buildAll config fs) := by
  rw [buildAll_eq] at hw ⊢
  exact (reached_loadAll config fs).run hs hf (fun _ => id) hw

/-- What a build leaves behind where there is a source directory. -/
def remains (config : Config) (fs : FileSystem) : Built :=
  let p := buildAll config fs
  ⟨p.counts, p.notices ++ [.finished p.registry.size p.pages p.failures], p.files⟩

theorem files_remains : (remains config fs).files = (buildAll config fs).files :=
  rfl

theorem build_eq_ok {built : Built} :
    build config fs = .ok built ↔ fs.isDirectory config.source = true ∧ built = remains config fs := by
  unfold build
  split
  · rename_i hsource
    constructor
    · intro h
      cases h
      exact ⟨hsource, rfl⟩
    · rintro ⟨-, rfl⟩
      rfl
  · rename_i hsource
    exact ⟨nofun, fun h => absurd h.1 hsource⟩

theorem reached_build {built : Built} (hs : Separate config fs) (hf : FilesSeparate config fs) (h : build config fs = .ok built)
    (hw : WritesAll built.notices) : Reached config fs (pages config fs) (buildAll config fs) := by
  obtain ⟨-, rfl⟩ := build_eq_ok.mp h
  exact reached_buildAll hs hf fun notice hn => hw notice (List.mem_append_left _ hn)

section
variable {built : Built} (hs : Separate config fs) (hf : FilesSeparate config fs) (h : build config fs = .ok built)
  (hw : WritesAll built.notices) (hm : page ∈ pages config fs) (hp : outputPath config page = .ok output)
include hs hf h hw hm hp

theorem read?_build_ok {html : String} (ho : outcome config fs page = .ok html) :
    built.files.read? output = some html.toUTF8 := by
  have hreached := reached_build hs hf h hw
  obtain ⟨-, rfl⟩ := build_eq_ok.mp h
  obtain ⟨front, stem, output', -, hp', hout⟩ := hs.exists_output hm
  cases hp.symm.trans hp'
  rw [files_remains, hout.read?_eq hreached.grows.toGrows hs.here hs.output]
  exact hreached.written page hm output html hp ho

theorem read?_build_error {failure : Failure} (ho : outcome config fs page = .error failure) :
    built.files.read? output = fs.read? output := by
  have hreached := reached_build hs hf h hw
  obtain ⟨-, rfl⟩ := build_eq_ok.mp h
  obtain ⟨front, stem, output', -, hp', hout⟩ := hs.exists_output hm
  cases hp.symm.trans hp'
  rw [files_remains, hout.read?_eq hreached.grows.toGrows hs.here hs.output, hout.read?_eq (.refl fs) hs.here hs.output]
  refine hreached.kept _ fun other hother output' html hp' ho' haim => ?_
  cases hs.page_injective hm hother hp hp' haim
  cases ho.symm.trans ho'

end

/-- Files and directories in the same places answer all checks alike. -/
theorem seesAlike_of_grows (h : fs.Grows files) (h' : files.Grows fs) :
    (config.context fs.probe).SeesAlike (config.context files.probe) := by
  have hfile : files.isFile = fs.isFile := funext fun path =>
    Bool.eq_iff_iff.mpr ⟨FileSystem.isFile_grows h', FileSystem.isFile_grows h⟩
  have hdirectory : files.isDirectory = fs.isDirectory := funext fun path =>
    Bool.eq_iff_iff.mpr ⟨FileSystem.isDirectory_grows h', FileSystem.isDirectory_grows h⟩
  have hprobe : files.probe = fs.probe := congrArg₂ Probe.mk hfile hdirectory
  rw [hprobe]
  exact ⟨rfl, rfl, rfl⟩

/-- A build leaves behind what its pages come to on the files from the start: the output of a page holds its
    text, or what it held before if the page fails, and every other file is as before. All failures are counted.
    Another site with the same templates has the same text in the output of a page that comes to the same. -/
theorem build_outputs {built : Built} (hs : Separate config fs) (hf : FilesSeparate config fs)
    (h : build config fs = .ok built) (hw : WritesAll built.notices) :
    (∀ page ∈ pages config fs, ∃ output, outputPath config page = .ok output ∧
      built.files.read? output = match outcome config fs page with
        | .ok html => some html.toUTF8
        | .error _ => fs.read? output) ∧
    (∀ place, (∀ page ∈ pages config fs, ∀ output html, outputPath config page = .ok output →
      outcome config fs page = .ok html → place ≠ fs.aim output) → built.files.root.fileAt? place = fs.root.fileAt? place) ∧
    built.report = ⟨(templates config fs).1.size, (pages config fs).countP fun page => (outcome config fs page).isOk,
      (templates config fs).2.length + (pages config fs).countP fun page => !(outcome config fs page).isOk⟩ ∧
    ∀ (other : FileSystem) (built' : Built), Separate config other → FilesSeparate config other →
      build config other = .ok built' → WritesAll built'.notices → (templates config other).1 = (templates config fs).1 →
      ∀ page ∈ pages config fs, page ∈ pages config other →
        (outcome config other page = outcome config fs page ∨
          (fs.Grows other ∧ other.Grows fs ∧ readText other page = readText fs page)) →
        ∀ output html, outputPath config page = .ok output → outcome config fs page = .ok html →
          built'.files.read? output = built.files.read? output := by
  refine ⟨fun page hm => ?_, ?_, ?_, ?_⟩
  · obtain ⟨front, stem, output, -, hp, -⟩ := hs.exists_output hm
    refine ⟨output, hp, ?_⟩
    cases ho : outcome config fs page with
    | ok html => exact read?_build_ok hs hf h hw hm hp ho
    | error failure => exact read?_build_error hs hf h hw hm hp ho
  · obtain ⟨-, rfl⟩ := build_eq_ok.mp h
    exact (reached_build hs hf h hw).kept
  · have hreached := reached_build hs hf h hw
    obtain ⟨-, rfl⟩ := build_eq_ok.mp h
    rw [remains, Progress.counts, hreached.registry, hreached.pageCount, hreached.failureCount]
  · intro other built' hs' hf' h' hw' hregistry page hm hm' hsame output html hp ho
    have ho' : outcome config other page = .ok html := by
      rcases hsame with hsame | ⟨hg, hg', htext⟩
      · rw [hsame, ho]
      · rw [outcome, hregistry, generate_congr htext (seesAlike_of_grows hg hg'), ← ho, outcome]
    rw [read?_build_ok hs' hf' h' hw' hm' hp ho', read?_build_ok hs hf h hw hm hp ho]

/-! ### Sites -/

/-- Files that pages refer to have a directory of their own. -/
def apartConfig : Config where
  files := some "files"

/-- A site with a page that can be generated, and one that cannot and has an output from before. -/
def leafletSite : FileSystem where
  root := .directory
    [("src", .directory [("a.page.xml", .file "<page/>".toUTF8), ("b.page.xml", .file "".toUTF8)]),
      ("www", .directory [("b.html", .file "before".toUTF8)])]
  here := []

theorem leaflet_separate : Separate apartConfig leafletSite where
  wellFormed := by
    refine .directory (by decide) (by decide) (List.forall_mem_cons.mpr ⟨?_, List.forall_mem_singleton.mpr ?_⟩)
    · exact .directory (by decide) (by decide)
        (List.forall_mem_cons.mpr ⟨.file _, List.forall_mem_singleton.mpr (.file _)⟩)
    · exact .directory (by decide) (by decide) (List.forall_mem_singleton.mpr (.file _))
  here := ⟨_, rfl⟩
  source := rfl
  output := FileSystem.direct_of_not_mem ⟨_, rfl⟩ (by decide)
  apart := by decide

theorem leaflet_filesSeparate : FilesSeparate apartConfig leafletSite where
  direct := FileSystem.direct_of_not_mem ⟨_, rfl⟩ (by decide)
  apart := by decide

theorem leaflet_pages : pages apartConfig leafletSite = ["src/a.page.xml", "src/b.page.xml"] := by
  rw [pages, findFiles_of_pairwise rfl (by decide)]
  rfl

theorem leaflet_findTemplates : findFiles leafletSite apartConfig.source apartConfig.templateSuffix = [] := by
  rw [findFiles_of_pairwise rfl (by decide)]
  rfl

theorem leaflet_loadAll : loadAll apartConfig leafletSite = { files := leafletSite, notices := [.noTemplates "src"] } := by
  rw [loadAll, leaflet_findTemplates]
  rfl

theorem leaflet_writesAll : WritesAll (remains apartConfig leafletSite).notices := by
  rw [remains, buildAll_eq, leaflet_pages, leaflet_loadAll]
  decide

/-- The page that can be generated has an output, the other one leaves its output as it was. -/
theorem leaflet_outputs : ∃ built, build apartConfig leafletSite = .ok built ∧
    built.files.read? "www/a.html" = some "<!DOCTYPE html>\n".toUTF8 ∧
    built.files.read? "www/b.html" = leafletSite.read? "www/b.html" ∧ built.report = ⟨0, 1, 1⟩ := by
  have hbuild : build apartConfig leafletSite = .ok (remains apartConfig leafletSite) :=
    build_eq_ok.mpr ⟨leaflet_separate.source, rfl⟩
  obtain ⟨houtputs, -, hreport, -⟩ := build_outputs leaflet_separate leaflet_filesSeparate hbuild leaflet_writesAll
  have htemplates : templates apartConfig leafletSite = ({}, []) := by
    rw [templates, leaflet_findTemplates]
    rfl
  have ha : outcome apartConfig leafletSite "src/a.page.xml" = .ok "<!DOCTYPE html>\n" := by
    rw [outcome, htemplates]
    rfl
  have hb : (outcome apartConfig leafletSite "src/b.page.xml").isOk = false := by
    rw [outcome, htemplates]
    decide
  rw [leaflet_pages] at houtputs hreport
  obtain ⟨hfirst, hsecond⟩ := List.forall_mem_cons.mp houtputs
  refine ⟨_, hbuild, ?_, ?_, ?_⟩
  · obtain ⟨output, hp, hheld⟩ := hfirst
    have hpath : outputPath apartConfig "src/a.page.xml" = .ok "www/a.html" := rfl
    cases hp.symm.trans hpath
    rw [hheld, ha]
  · obtain ⟨output, hp, hheld⟩ := List.forall_mem_singleton.mp hsecond
    have hpath : outputPath apartConfig "src/b.page.xml" = .ok "www/b.html" := rfl
    cases hp.symm.trans hpath
    rw [hheld]
    cases ho : outcome apartConfig leafletSite "src/b.page.xml" with
    | ok html =>
      rw [ho] at hb
      cases hb
    | error failure => rfl
  · rw [hreport, htemplates, List.countP_cons, List.countP_singleton, List.countP_cons, List.countP_singleton, ha, hb]
    rfl

/-! ### Pages that change with other pages

A path through `..` leads nowhere until the directory that it turns back from is there: the first output that
is written may open the way to the file root. And a page is a file like all others: where another page checks
for it, it makes a difference whether it is there. -/

/-- A template that checks for a file. -/
def asking (file : String) : Template where
  name := "t"
  params := []
  content := ⟨{ name := "content" }, [.element { name := "Match", attributes := [("f", "file-exists"), ("x", file)] }
    [.element { name := "True" } [.text "T"]]]⟩
  formulas := []

/-- The text of a template that checks for a page. -/
def askingText : String :=
  "<template name='t'><content><Match f='file-exists' x='b.page.xml'><True>T</True></Match></content></template>"

theorem load_askingText : Template.load "src/t.template.xml" askingText = .ok [asking "b.page.xml"] :=
  eq_ok_of_toOption (by decide +kernel)

/-- The way to the file root leads through the directory of the outputs. -/
def openedConfig : Config where
  output := "gen/www"
  files := some "gen/../files"

/-- A site whose second page checks for a file under the file root. -/
def openedSite : FileSystem where
  root := .directory
    [("files", .directory [("b.page.xml", .file "".toUTF8)]),
      ("src", .directory
        [("a.page.xml", .file "<page/>".toUTF8), ("b.page.xml", .file "<page><t/></page>".toUTF8),
          ("t.template.xml", .file askingText.toUTF8)])]
  here := []

/-- Pages check for files of the source directory. -/
def sourceConfig : Config where
  files := some "src"

/-- A site with a page that checks for another page, which is not there. -/
def lonelySite : FileSystem where
  root := .directory
    [("src", .directory [("a.page.xml", .file "<page><t/></page>".toUTF8), ("t.template.xml", .file askingText.toUTF8)])]
  here := []

/-- The same site with the other page. -/
def joinedSite : FileSystem where
  root := .directory
    [("src", .directory
      [("a.page.xml", .file "<page><t/></page>".toUTF8), ("b.page.xml", .file "<page/>".toUTF8),
        ("t.template.xml", .file askingText.toUTF8)])]
  here := []

theorem opened_pages : pages openedConfig openedSite = ["src/a.page.xml", "src/b.page.xml"] := by
  rw [pages, findFiles_of_pairwise rfl (by decide)]
  rfl

theorem opened_findTemplates : findFiles openedSite openedConfig.source openedConfig.templateSuffix = ["src/t.template.xml"] := by
  rw [findFiles_of_pairwise rfl (by decide)]
  rfl

theorem lonely_pages : pages sourceConfig lonelySite = ["src/a.page.xml"] := by
  rw [pages, findFiles_of_pairwise rfl (by decide)]
  rfl

theorem lonely_findTemplates : findFiles lonelySite sourceConfig.source sourceConfig.templateSuffix = ["src/t.template.xml"] := by
  rw [findFiles_of_pairwise rfl (by decide)]
  rfl

theorem joined_pages : pages sourceConfig joinedSite = ["src/a.page.xml", "src/b.page.xml"] := by
  rw [pages, findFiles_of_pairwise rfl (by decide)]
  rfl

theorem joined_findTemplates : findFiles joinedSite sourceConfig.source sourceConfig.templateSuffix = ["src/t.template.xml"] := by
  rw [findFiles_of_pairwise rfl (by decide)]
  rfl

/-- An output is not what its page comes to at the start, and another one is not the same once a page is added. -/
theorem output_changes_with_page :
    (Apart (openedSite.aim openedConfig.source) (openedSite.aim openedConfig.output) ∧
      Apart (openedSite.aim openedConfig.fileRoot) (openedSite.aim openedConfig.output) ∧
      "src/b.page.xml" ∈ pages openedConfig openedSite ∧
      outputPath openedConfig "src/b.page.xml" = .ok "gen/www/b.html" ∧
      outcome openedConfig openedSite "src/b.page.xml" = .ok "<!DOCTYPE html>\n" ∧
      ∃ built, build openedConfig openedSite = .ok built ∧ WritesAll built.notices ∧
        built.files.read? "gen/www/b.html" = some "<!DOCTYPE html>\nT\n".toUTF8) ∧
    Apart (lonelySite.aim sourceConfig.source) (lonelySite.aim sourceConfig.output) ∧
    Apart (lonelySite.aim sourceConfig.fileRoot) (lonelySite.aim sourceConfig.output) ∧
    Apart (joinedSite.aim sourceConfig.source) (joinedSite.aim sourceConfig.output) ∧
    Apart (joinedSite.aim sourceConfig.fileRoot) (joinedSite.aim sourceConfig.output) ∧
    pages sourceConfig lonelySite = ["src/a.page.xml"] ∧
    pages sourceConfig joinedSite = ["src/a.page.xml", "src/b.page.xml"] ∧
    outputPath sourceConfig "src/a.page.xml" = .ok "www/a.html" ∧
    (∃ built, build sourceConfig lonelySite = .ok built ∧ WritesAll built.notices ∧
      built.files.read? "www/a.html" = some "<!DOCTYPE html>\n".toUTF8) ∧
    ∃ built, build sourceConfig joinedSite = .ok built ∧ WritesAll built.notices ∧
      built.files.read? "www/a.html" = some "<!DOCTYPE html>\nT\n".toUTF8 := by
  have hopened := buildAll_of_template opened_pages opened_findTemplates (eq_ok_of_toOption rfl) load_askingText
  have hlonely := buildAll_of_template lonely_pages lonely_findTemplates (eq_ok_of_toOption rfl) load_askingText
  have hjoined := buildAll_of_template joined_pages joined_findTemplates (eq_ok_of_toOption rfl) load_askingText
  have hmem : "src/b.page.xml" ∈ pages openedConfig openedSite := by
    rw [opened_pages]
    decide
  have houtcome : outcome openedConfig openedSite "src/b.page.xml" = .ok "<!DOCTYPE html>\n" := by
    rw [outcome, templates, opened_findTemplates]
    exact eq_ok_of_toOption (by decide +kernel)
  refine ⟨⟨by decide, by decide, hmem, rfl, houtcome, remains openedConfig openedSite, build_eq_ok.mpr ⟨rfl, rfl⟩, ?_, ?_⟩,
    by decide, by decide, by decide, by decide, lonely_pages, joined_pages, rfl,
    ⟨remains sourceConfig lonelySite, build_eq_ok.mpr ⟨rfl, rfl⟩, ?_, ?_⟩,
    remains sourceConfig joinedSite, build_eq_ok.mpr ⟨rfl, rfl⟩, ?_, ?_⟩
  · rw [remains, hopened]
    decide +kernel
  · rw [files_remains, hopened]
    decide +kernel
  · rw [remains, hlonely]
    decide +kernel
  · rw [files_remains, hlonely]
    decide +kernel
  · rw [remains, hjoined]
    decide +kernel
  · rw [files_remains, hjoined]
    decide +kernel

end Site
end Letterpress
