import Letterpress.Proofs.Site.Building
import Letterpress.Proofs.Site.Discovery

/-! Building again what has been built. The first build writes while it reads: a page that checks for an output
    may come to something else once all outputs are there. The second build leaves everything as it is and
    reports the same if no page does, and only then. -/

namespace Letterpress
namespace Site

variable {config : Config} {fs final : FileSystem} {p : Progress} {page next output : String} {rest : List String}

/-! ### What one page changes -/

theorem registry_buildPage : (buildPage config p page).registry = p.registry := by
  unfold buildPage
  dsimp only
  split
  · rfl
  · split
    · rfl
    · split <;> rfl

theorem Separate.buildPage_files (hs : Separate config fs) (h : fs.GrowsUnder (fs.aim config.output) p.files)
    (hm : page ∈ pages config fs) : fs.GrowsUnder (fs.aim config.output) (buildPage config p page).files ∧
      p.files.Grows (buildPage config p page).files := by
  obtain ⟨front, stem, output, -, hp, hout⟩ := hs.exists_output hm
  rcases buildPage_cases hp (Prod.eta (generate config p.registry p.files page)).symm with
    ⟨failure, -, hbuild⟩ | ⟨html, files, written, -, hwrite, ⟨failure, -, hbuild⟩ | ⟨-, hbuild⟩⟩
  · rw [hbuild]
    exact ⟨h, .refl _⟩
  · rw [hbuild]
    exact ⟨hout.growsUnder_write h hs.here hs.output hwrite, hout.write_grows hwrite⟩
  · rw [hbuild]
    exact ⟨hout.growsUnder_write h hs.here hs.output hwrite, hout.write_grows hwrite⟩

/-- What stands in the output of a page stays when another page is built. -/
theorem Separate.buildPage_keeps (hs : Separate config fs) (h : fs.GrowsUnder (fs.aim config.output) p.files)
    (hm : page ∈ pages config fs) (hp : outputPath config page = .ok output) (hnext : next ∈ pages config fs)
    (hne : page ≠ next) :
    (buildPage config p next).files.root.fileAt? (fs.aim output) = p.files.root.fileAt? (fs.aim output) := by
  obtain ⟨front, stem, output', -, hp', hout⟩ := hs.exists_output hnext
  rcases buildPage_cases hp' (Prod.eta (generate config p.registry p.files next)).symm with
    ⟨failure, -, hbuild⟩ | ⟨html, files, written, -, hwrite, ⟨failure, rfl, hbuild⟩ | ⟨rfl, hbuild⟩⟩
  · rw [hbuild]
    rfl
  · rw [hbuild]
    exact (hout.fileAt?_write_error hwrite).1 _
  · have haim : fs.aim output ≠ fs.aim output' := fun haim => hne (hs.page_injective hm hnext hp hp' haim)
    rw [hbuild]
    show files.root.fileAt? _ = _
    rw [hout.fileAt?_write (hs.isDirectoryAt_here h) hwrite, h.aim_eq, if_neg haim]

theorem Separate.foldl_files (hs : Separate config fs) (h : fs.GrowsUnder (fs.aim config.output) p.files)
    (hm : ∀ page ∈ rest, page ∈ pages config fs) :
    fs.GrowsUnder (fs.aim config.output) (rest.foldl (buildPage config) p).files ∧
      p.files.Grows (rest.foldl (buildPage config) p).files := by
  induction rest generalizing p with
  | nil => exact ⟨h, .refl _⟩
  | cons page rest ih =>
    obtain ⟨hpage, hrest⟩ := List.forall_mem_cons.mp hm
    obtain ⟨hunder, hgrows⟩ := hs.buildPage_files h hpage
    obtain ⟨hunder', hgrows'⟩ := ih hunder hrest
    exact ⟨hunder', hgrows.trans hgrows'⟩

theorem Separate.foldl_keeps (hs : Separate config fs) (h : fs.GrowsUnder (fs.aim config.output) p.files)
    (hm : page ∈ pages config fs) (hp : outputPath config page = .ok output) (hrest : ∀ page ∈ rest, page ∈ pages config fs)
    (hne : page ∉ rest) :
    (rest.foldl (buildPage config) p).files.root.fileAt? (fs.aim output) = p.files.root.fileAt? (fs.aim output) := by
  induction rest generalizing p with
  | nil => rfl
  | cons next rest ih =>
    obtain ⟨hnext, hrest⟩ := List.forall_mem_cons.mp hrest
    rw [List.mem_cons, not_or] at hne
    rw [List.foldl_cons, ih (hs.buildPage_files h hnext).1 hrest hne.2, hs.buildPage_keeps h hm hp hnext hne.1]

/-! ### Pages that come to the same -/

/-- The page comes to the same with the files as they are in the end as with those that it finds. -/
def SettledAt (config : Config) (final : FileSystem) (p : Progress) (page : String) : Prop :=
  generate config p.registry final page = generate config p.registry p.files page

/-- Of pages built one after the other each comes to the same with the files as they are in the end. -/
def SettledFrom (config : Config) (final : FileSystem) : Progress → List String → Prop
  | _, [] => True
  | p, page :: rest => SettledAt config final p page ∧ SettledFrom config final (buildPage config p page) rest

/-- Each page of a site comes to the same with the files that a build leaves as with those that it finds. -/
def Settled (config : Config) (fs : FileSystem) : Prop :=
  SettledFrom config (buildAll config fs).files (loadAll config fs) (pages config fs)

/-- A page that comes to the same and whose output is kept changes nothing when it is built again. -/
theorem Separate.buildPage_again (hs : Separate config fs) (h : fs.GrowsUnder (fs.aim config.output) p.files)
    (hm : page ∈ pages config fs) (hsettled : SettledAt config final p page)
    (hgrows : (buildPage config p page).files.Grows final)
    (hkept : ∀ output, outputPath config page = .ok output →
      final.root.fileAt? (fs.aim output) = (buildPage config p page).files.root.fileAt? (fs.aim output)) :
    buildPage config (p.withFiles final) page = (buildPage config p page).withFiles final := by
  obtain ⟨front, stem, output, -, hp, hout⟩ := hs.exists_output hm
  have hhere := hs.isDirectoryAt_here h
  cases hg : generate config p.registry p.files page with
  | mk notices result =>
    have hg' : generate config p.registry final page = (notices, result) := hsettled.trans hg
    cases result with
    | error failure =>
      rw [buildPage_error hg, @buildPage_error config (p.withFiles final) page notices failure hg']
      rfl
    | ok html =>
      cases hw : write p.files output html with
      | mk files written =>
        have hbuild := buildPage_ok hp hg hw
        have hfiles : (buildPage config p page).files = files := by
          rw [hbuild]
          cases written <;> rfl
        -- Nothing has changed the output since it was written, so writing it again changes nothing.
        have hagain : write final output html = (final, written) := by
          refine hout.write_again hhere hw (hfiles ▸ hgrows) ?_
          rintro rfl
          rw [h.aim_eq, hkept output hp, hfiles, hout.fileAt?_write hhere hw, h.aim_eq, if_pos rfl]
        rw [hbuild, @buildPage_ok config final (p.withFiles final) page output notices html written hp hg' hagain]
        cases written <;> rfl

theorem Separate.foldl_again (hs : Separate config fs) (h : fs.GrowsUnder (fs.aim config.output) p.files)
    (hm : ∀ page ∈ rest, page ∈ pages config fs) (hd : rest.Nodup) (hfinal : (rest.foldl (buildPage config) p).files = final)
    (hsettled : SettledFrom config final p rest) :
    rest.foldl (buildPage config) (p.withFiles final) = (rest.foldl (buildPage config) p).withFiles final := by
  induction rest generalizing p with
  | nil => rfl
  | cons page rest ih =>
    obtain ⟨hpage, hrest⟩ := List.forall_mem_cons.mp hm
    obtain ⟨hne, hd⟩ := List.nodup_cons.mp hd
    obtain ⟨hfirst, hlater⟩ := hsettled
    have hunder := (hs.buildPage_files h hpage).1
    have hgrows : (buildPage config p page).files.Grows final := hfinal ▸ (hs.foldl_files hunder hrest).2
    have hagain := hs.buildPage_again h hpage hfirst hgrows fun output hp => hfinal ▸ hs.foldl_keeps hunder hpage hp hrest hne
    rw [List.foldl_cons, hagain, List.foldl_cons]
    exact ih hunder hrest hd hfinal hlater

/-! ### What notices tell -/

/-- The notice is about a marker that is left. -/
def Notice.isUnresolved : Notice → Bool
  | .unresolved .. => true
  | _ => false

theorem isUnresolved_of_mem_generate {registry : Registry} {files : FileSystem} {notice : Notice}
    (h : notice ∈ (generate config registry files page).1) : notice.isUnresolved = true := by
  unfold generate at h
  split at h
  · cases h
  · obtain ⟨warning, -, rfl⟩ := List.mem_map.mp h
    rfl

/-- The notices of a page end with the first that is not about a marker. -/
theorem eq_of_prefix {before front front' all : List Notice} {last last' : Notice} (h : before ++ (front ++ [last]) <+: all)
    (h' : before ++ (front' ++ [last']) <+: all) (hf : ∀ notice ∈ front, notice.isUnresolved = true)
    (hf' : ∀ notice ∈ front', notice.isUnresolved = true) (hl : last.isUnresolved = false)
    (hl' : last'.isUnresolved = false) : front = front' ∧ last = last' := by
  have hends : ∀ {front : List Notice} {last : Notice} {later}, (∀ notice ∈ front, notice.isUnresolved = true) →
      last.isUnresolved = false → (front ++ [last] ++ later).takeWhile Notice.isUnresolved = front ∧
        (front ++ [last] ++ later).dropWhile Notice.isUnresolved = last :: later := fun hf hl => by
    rw [List.append_assoc, List.takeWhile_append_of_pos hf, List.dropWhile_append_of_pos hf]
    simp [hl]
  obtain ⟨later, rfl⟩ := h
  rw [List.append_assoc, List.prefix_append_right_inj] at h'
  obtain ⟨later', hlater⟩ := h'
  obtain ⟨htake, hdrop⟩ := @hends _ _ later hf hl
  obtain ⟨htake', hdrop'⟩ := @hends _ _ later' hf' hl'
  rw [hlater] at htake' hdrop'
  exact ⟨htake.symm.trans htake', (List.cons_eq_cons.mp (hdrop.symm.trans hdrop')).1⟩

/-- What the last notice of a page tells of what the page came to, with these files once it is built. -/
inductive Tells (fs files : FileSystem) (page output : String) (result : Except Failure String) : Notice → Prop
  | failed {failure : Failure} (h : result = .error failure) : Tells fs files page output result (.failed page failure)
  | unwritten {failure : Failure} (hf : failure.isOfWriting = true) :
      Tells fs files page output result (.failed page failure)
  | wrote {html : String} (h : result = .ok html) (held : files.root.fileAt? (fs.aim output) = some html.toUTF8) :
      Tells fs files page output result (.wrote page output)

namespace Tells

variable {files files' : FileSystem} {result result' : Except Failure String} {last : Notice}

theorem isUnresolved_eq (h : Tells fs files page output result last) : last.isUnresolved = false := by
  cases h <;> rfl

/-- Pages of which the same is told came to the same, unless writing failed. -/
theorem result_eq (h : Tells fs files page output result last) (h' : Tells fs files' page output result' last)
    (hw : last.isUnwritten = false)
    (hkept : files'.root.fileAt? (fs.aim output) = files.root.fileAt? (fs.aim output)) : result' = result := by
  cases h with
  | failed hr =>
    cases h' with
    | failed hr' => rw [hr, hr']
    | unwritten hf => cases hf.symm.trans hw
  | unwritten hf => cases hf.symm.trans hw
  | wrote hr held =>
    cases h' with
    | wrote hr' held' =>
      rw [held, held'] at hkept
      rw [hr, hr', String.toByteArray_inj.mp (Option.some.inj hkept)]

end Tells

/-- The notices of a page end with one that tells what it has come to. -/
theorem Separate.notices_of_buildPage (hs : Separate config fs) (h : fs.GrowsUnder (fs.aim config.output) p.files)
    (hm : page ∈ pages config fs) (hp : outputPath config page = .ok output) :
    ∃ last, (buildPage config p page).notices = p.notices ++ ((generate config p.registry p.files page).1 ++ [last]) ∧
      Tells fs (buildPage config p page).files page output (generate config p.registry p.files page).2 last := by
  obtain ⟨front, stem, output', -, hp', hout⟩ := hs.exists_output hm
  cases hp.symm.trans hp'
  rcases buildPage_cases hp (Prod.eta (generate config p.registry p.files page)).symm with
    ⟨failure, hresult, hbuild⟩ | ⟨html, files, written, hresult, hwrite, ⟨failure, rfl, hbuild⟩ | ⟨rfl, hbuild⟩⟩
  · rw [hbuild]
    exact ⟨_, List.append_assoc _ _ _, .failed hresult⟩
  · rw [hbuild]
    exact ⟨_, List.append_assoc _ _ _, .unwritten (hout.fileAt?_write_error hwrite).2⟩
  · rw [hbuild]
    refine ⟨_, List.append_assoc _ _ _, .wrote hresult ?_⟩
    show files.root.fileAt? _ = _
    rw [hout.fileAt?_write (hs.isDirectoryAt_here h) hwrite, h.aim_eq, if_pos rfl]

/-- Where building again changes nothing, each page has come to the same. -/
theorem Separate.settledFrom_of_again (hs : Separate config fs) (h : fs.GrowsUnder (fs.aim config.output) p.files)
    (hm : ∀ page ∈ rest, page ∈ pages config fs) (hd : rest.Nodup) (hfinal : (rest.foldl (buildPage config) p).files = final)
    (hw : WritesAll (rest.foldl (buildPage config) p).notices)
    (hagain : rest.foldl (buildPage config) (p.withFiles final) = rest.foldl (buildPage config) p) :
    SettledFrom config final p rest := by
  induction rest generalizing p with
  | nil => trivial
  | cons page rest ih =>
    obtain ⟨hpage, hrest⟩ := List.forall_mem_cons.mp hm
    obtain ⟨hne, hd⟩ := List.nodup_cons.mp hd
    obtain ⟨front, stem, output, -, hp, -⟩ := hs.exists_output hpage
    have hunder := (hs.buildPage_files h hpage).1
    have hend : fs.GrowsUnder (fs.aim config.output) (p.withFiles final).files := hfinal ▸ (hs.foldl_files h hm).1
    rw [List.foldl_cons] at hw hfinal hagain
    rw [List.foldl_cons] at hagain
    obtain ⟨last, hnotices, htells⟩ := hs.notices_of_buildPage h hpage hp
    obtain ⟨last', hnotices', htells'⟩ := hs.notices_of_buildPage hend hpage hp
    have hlater := @notices_foldl config (buildPage config p page) rest
    have hlater' := @notices_foldl config (buildPage config (p.withFiles final) page) rest
    rw [hnotices] at hlater
    rw [hagain, hnotices'] at hlater'
    -- Both builds give the same notices, so the page has the same ones in both of them.
    obtain ⟨hfront, rfl⟩ := eq_of_prefix hlater hlater' (fun _ => isUnresolved_of_mem_generate)
      (fun _ => isUnresolved_of_mem_generate) htells.isUnresolved_eq htells'.isUnresolved_eq
    have hkept := hs.foldl_keeps hunder hpage hp hrest hne
    have hkept' := hs.foldl_keeps (hs.buildPage_files hend hpage).1 hpage hp hrest hne
    rw [hagain] at hkept'
    have hresult : (generate config p.registry final page).2 = (generate config p.registry p.files page).2 :=
      htells.result_eq htells' (hw last (hlater.subset (by simp))) (hkept'.symm.trans hkept)
    have hsettled : SettledAt config final p page := Prod.ext hfront.symm hresult
    have hgrows : (buildPage config p page).files.Grows final := hfinal ▸ (hs.foldl_files hunder hrest).2
    have hbuild := hs.buildPage_again h hpage hsettled hgrows fun output hp =>
      hfinal ▸ hs.foldl_keeps hunder hpage hp hrest hne
    exact ⟨hsettled, ih hunder hrest hd hfinal hw (hbuild ▸ hagain)⟩

/-! ### The whole build -/

theorem Separate.settledFrom (hs : Separate config fs) (hf : FilesSeparate config fs)
    (h : fs.GrowsUnder (fs.aim config.output) p.files) (hfinal : fs.GrowsUnder (fs.aim config.output) final)
    (hm : ∀ page ∈ rest, page ∈ pages config fs) : SettledFrom config final p rest := by
  induction rest generalizing p with
  | nil => trivial
  | cons page rest ih =>
    obtain ⟨hpage, hrest⟩ := List.forall_mem_cons.mp hm
    exact ⟨(hs.generate_eq hfinal hf hpage).trans (hs.generate_eq h hf hpage).symm,
      ih (hs.buildPage_files h hpage).1 hrest⟩

theorem growsUnder_loadAll (config : Config) (fs : FileSystem) :
    fs.GrowsUnder (fs.aim config.output) (loadAll config fs).files := by
  rw [(loadAll_spec config fs).1]
  exact .refl _ fs

theorem Separate.buildAll_files (hs : Separate config fs) :
    fs.GrowsUnder (fs.aim config.output) (buildAll config fs).files := by
  rw [buildAll_eq]
  exact (hs.foldl_files (growsUnder_loadAll config fs) fun _ => id).1

theorem registry_foldl : (rest.foldl (buildPage config) p).registry = p.registry := by
  induction rest generalizing p with
  | nil => rfl
  | cons page rest ih => rw [List.foldl_cons, ih, registry_buildPage]

/-- The second build starts from the same templates and pages. -/
theorem Separate.buildAll_again (hs : Separate config fs) (hfinal : fs.GrowsUnder (fs.aim config.output) final) :
    buildAll config final = (pages config fs).foldl (buildPage config) ((loadAll config fs).withFiles final) := by
  rw [buildAll_eq, pages, hs.findFiles_eq hfinal, hs.loadAll_eq hfinal, pages]

/-- What a build leaves behind tells how far it has come. -/
theorem buildAll_eq_of_remains (hregistry : (buildAll config final).registry = (buildAll config fs).registry)
    (h : remains config final = remains config fs) : buildAll config final = buildAll config fs := by
  unfold remains at h
  generalize buildAll config final = p at h hregistry ⊢
  generalize buildAll config fs = q at h hregistry ⊢
  obtain ⟨hcounts, hnotices, hfiles⟩ := Built.mk.inj h
  obtain ⟨-, hpages, hfailures⟩ := Report.mk.inj hcounts
  obtain ⟨hnotices, -⟩ := List.append_inj' hnotices rfl
  obtain ⟨files, registry, notices, pages, failures⟩ := p
  obtain ⟨files', registry', notices', pages', failures'⟩ := q
  simp only at hregistry hpages hfailures hnotices hfiles
  rw [hregistry, hpages, hfailures, hnotices, hfiles]

theorem Separate.build_again_iff (hs : Separate config fs) {built : Built} (h : build config fs = .ok built) :
    build config built.files = .ok built ↔ buildAll config (buildAll config fs).files = buildAll config fs := by
  obtain ⟨-, rfl⟩ := build_eq_ok.mp h
  rw [files_remains, build_eq_ok]
  have hregistry : (buildAll config (buildAll config fs).files).registry = (buildAll config fs).registry := by
    rw [hs.buildAll_again hs.buildAll_files, buildAll_eq, registry_foldl, registry_foldl]
    rfl
  have hsource : (buildAll config fs).files.isDirectory config.source = true :=
    FileSystem.isDirectory_grows hs.buildAll_files.toGrows hs.source
  constructor
  · exact fun hagain => buildAll_eq_of_remains hregistry hagain.2.symm
  · exact fun hagain => ⟨hsource, by rw [remains, remains, hagain]⟩

/-- Building again changes nothing and reports the same if each page comes to the same with the files that the
    first build leaves as with those it found, and only then unless an output could not be written. Where the
    file root is apart from the outputs, each page does. -/
theorem build_again (hs : Separate config fs) {built : Built} (h : build config fs = .ok built) :
    (Settled config fs → build config built.files = .ok built) ∧
    (WritesAll built.notices → build config built.files = .ok built → Settled config fs) ∧
    (FilesSeparate config fs → build config built.files = .ok built) := by
  have hd : (pages config fs).Nodup := nodup_findFiles hs.wellFormed
  have hfinal : ((pages config fs).foldl (buildPage config) (loadAll config fs)).files = (buildAll config fs).files := by
    rw [buildAll_eq]
  have hsame : Settled config fs → build config built.files = .ok built := fun hsettled => by
    refine (hs.build_again_iff h).mpr ?_
    rw [hs.buildAll_again hs.buildAll_files, hs.foldl_again (growsUnder_loadAll config fs) (fun _ => id) hd hfinal hsettled, ← buildAll_eq]
    rfl
  refine ⟨hsame, fun hw hagain => ?_, fun hf => hsame ?_⟩
  · have hagain' := (hs.build_again_iff h).mp hagain
    rw [hs.buildAll_again hs.buildAll_files] at hagain'
    obtain ⟨-, rfl⟩ := build_eq_ok.mp h
    refine hs.settledFrom_of_again (growsUnder_loadAll config fs) (fun _ => id) hd hfinal (fun notice hn => ?_)
      (hagain'.trans (buildAll_eq config fs))
    rw [← buildAll_eq] at hn
    exact hw notice (List.mem_append_left _ hn)
  · exact hs.settledFrom hf (growsUnder_loadAll config fs) hs.buildAll_files fun _ => id

/-- A site whose first page checks for the output of the second. -/
def aheadSite : FileSystem where
  root := .directory
    [("src", .directory
      [("a.page.xml", .file "<page><t/></page>".toUTF8), ("b.page.xml", .file "<page/>".toUTF8),
        ("t.template.xml", .file
          "<template name='t'><content><Match f='file-exists' x='b.html'><True>T</True></Match></content></template>".toUTF8)])]
  here := []

theorem ahead_separate : Separate {} aheadSite where
  wellFormed := by
    refine .directory (by decide) (by decide) (List.forall_mem_singleton.mpr (.directory (by decide) (by decide) ?_))
    exact List.forall_mem_cons.mpr ⟨.file _, List.forall_mem_cons.mpr ⟨.file _, List.forall_mem_singleton.mpr (.file _)⟩⟩
  here := ⟨_, rfl⟩
  source := rfl
  output := FileSystem.direct_of_not_mem ⟨_, rfl⟩ (by decide)
  apart := by decide

theorem ahead_pages : pages {} aheadSite = ["src/a.page.xml", "src/b.page.xml"] := by
  rw [pages, findFiles_of_pairwise rfl (by decide)]
  rfl

theorem ahead_loadAll : loadAll {} aheadSite =
    { files := aheadSite, registry := ⟨[asking "b.html"]⟩, notices := [.reading "src/t.template.xml", .registered "t"] } := by
  have hfind : findFiles aheadSite "src" ".template.xml" = ["src/t.template.xml"] := by
    rw [findFiles_of_pairwise rfl (by decide)]
    rfl
  exact loadAll_of_template hfind (eq_ok_of_toOption rfl) (eq_ok_of_toOption (by decide +kernel))

/-- The first page finds the output of the second only when it is built again. -/
theorem ahead_not_settled : ¬Settled {} aheadSite := by
  intro h
  rw [Settled, ahead_pages, buildAll_eq, ahead_pages, ahead_loadAll] at h
  have hsame := congrArg (fun generated => generated.2.toOption) h.1
  revert hsame
  decide +kernel

/-- Where outputs are apart from what pages check for, building again leaves all as it is. Where the file root
    is the output directory, it may not. -/
theorem leaflet_built_again :
    build apartConfig (remains apartConfig leafletSite).files = .ok (remains apartConfig leafletSite) ∧
      build {} (remains {} aheadSite).files ≠ .ok (remains {} aheadSite) := by
  have hleaflet : build apartConfig leafletSite = .ok (remains apartConfig leafletSite) :=
    build_eq_ok.mpr ⟨leaflet_separate.source, rfl⟩
  have hahead : build {} aheadSite = .ok (remains {} aheadSite) :=
    build_eq_ok.mpr ⟨ahead_separate.source, rfl⟩
  have hwrites : WritesAll (remains {} aheadSite).notices := by
    rw [remains, buildAll_eq, ahead_pages, ahead_loadAll]
    decide +kernel
  refine ⟨(build_again leaflet_separate hleaflet).2.2 leaflet_filesSeparate, fun hagain => ?_⟩
  exact ahead_not_settled ((build_again ahead_separate hahead).2.1 hwrites hagain)

end Site
end Letterpress
