import Letterpress.Proofs.Site.Pages
import Mathlib.Data.Set.Insert

/-! Output paths of pages. A page has an output wherever below the source directory it lies and whatever the page suffix
    is. The output lies below the output directory as the page lies below the source directory, and no two
    pages have the same one. -/

namespace Letterpress
namespace Site
open Path (Below)

variable {config : Config} {page output : String} {front : List String} {stem : String}

/-- The page lies below the source directory, under a name that ends with the page suffix and is longer than it. -/
def UnderSource (config : Config) (page : String) : Prop :=
  ∃ front last, Below config.source (front ++ [last]) page ∧ hasSuffix config.pageSuffix last = true

/-- The page and its output lie in the same directory below those of the sources and the outputs, and the suffix of the
    page is replaced. -/
structure Mirrors (config : Config) (front : List String) (stem page output : String) : Prop where
  nonempty : stem ≠ ""
  page : Below config.source (front ++ [stem ++ config.pageSuffix]) page
  output : Below config.output (front ++ [stem ++ ".html"]) output

/-- Paths that take the same steps, however they are spelled. -/
def SamePath (path other : String) : Prop :=
  Path.components path = Path.components other

instance (path other : String) : Decidable (SamePath path other) :=
  inferInstanceAs (Decidable (_ = _))

theorem underSource_of_mem_findFiles {files : FileSystem} (hw : files.root.WellFormed)
    (h : page ∈ findFiles files config.source config.pageSuffix) : UnderSource config page := by
  obtain ⟨front, last, hnames, hsuffix, rfl⟩ := exists_names_of_mem_findFiles hw h
  exact ⟨front, last, Path.below_foldl_join hnames, hsuffix⟩

theorem UnderSource.exists_output (h : UnderSource config page) :
    ∃ front stem output, outputPath config page = .ok output ∧ Mirrors config front stem page output := by
  obtain ⟨front, last, hpage, hsuffix⟩ := h
  obtain ⟨stem, hstem, rfl⟩ := hasSuffix_iff.mp hsuffix
  obtain ⟨output, ho, houtput, -⟩ := outputPath_below hpage
  exact ⟨front, stem, output, ho, hstem, hpage, houtput⟩

/-- The names by which an output lies below the output directory are those of its page. -/
theorem Mirrors.page_eq {front' : List String} {stem' page' output' : String} (h : Mirrors config front stem page output)
    (h' : Mirrors config front' stem' page' output') (hsame : SamePath output output') : SamePath page page' := by
  -- both lists of names lead from the output directory to the same place
  have houtput : Below config.output (front' ++ [stem' ++ ".html"]) output := hsame.trans h'.output
  obtain ⟨rfl, hlast⟩ := List.append_inj' (h.output.names_eq houtput) rfl
  have hstem : stem = stem' := (String.append_left_inj _).mp (List.singleton_injective hlast)
  subst hstem
  exact Eq.trans h.page h'.page.symm

/-- The pages that are found under the source directory lie below it. Whichever pages lie there, each of them has an
    output in the same place below the output directory, and the outputs are as distinct as the pages. -/
theorem outputs_mirror_pages (config : Config) :
    (∀ files : FileSystem, files.root.WellFormed →
      ∀ page ∈ findFiles files config.source config.pageSuffix, UnderSource config page) ∧
    ∀ pages : Set String, (∀ page ∈ pages, UnderSource config page) →
      (∀ page ∈ pages, ∃ front stem output, outputPath config page = .ok output ∧ Mirrors config front stem page output) ∧
      ∀ page ∈ pages, ∀ page' ∈ pages, ∀ output output', outputPath config page = .ok output →
        outputPath config page' = .ok output' → SamePath output output' → SamePath page page' := by
  refine ⟨fun files hw page h => underSource_of_mem_findFiles hw h, fun pages hpages => ?_⟩
  refine ⟨fun page h => (hpages page h).exists_output, fun page h page' h' output output' ho ho' hsame => ?_⟩
  obtain ⟨front, stem, _, hout, hmirrors⟩ := (hpages page h).exists_output
  obtain ⟨front', stem', _, hout', hmirrors'⟩ := (hpages page' h').exists_output
  cases ho.symm.trans hout
  cases ho'.symm.trans hout'
  exact hmirrors.page_eq hmirrors' hsame

/-- A site whose directories are spelled in a roundabout way. -/
def journal : Config where
  source := "./src/"
  output := "../www"
  pageSuffix := ".page"

/-- Pages whose names hold the suffix twice or more dots than one, and a page in another directory. -/
def journalPages : Set String :=
  {"./src/may/a.page.page", "./src//may/./a.b.page", "./src/a.page"}

theorem journal_underSource : ∀ page ∈ journalPages, UnderSource journal page := by
  rintro page (rfl | rfl | rfl)
  · exact ⟨["may"], "a.page.page", by decide, by decide⟩
  · exact ⟨["may"], "a.b.page", by decide, by decide⟩
  · exact ⟨[], "a.page", by decide, by decide⟩

/-- The files of the site as far as there are any yet. -/
def journalFiles : FileSystem where
  root := .directory [("src", .directory [("a.page", .file .empty), ("notes", .file .empty)])]
  here := []

theorem journalFiles_wellFormed : journalFiles.root.WellFormed := by
  refine .directory (by decide) (by decide) (List.forall_mem_singleton.mpr (.directory (by decide) (by decide) ?_))
  exact List.forall_mem_cons.mpr ⟨.file _, List.forall_mem_singleton.mpr (.file _)⟩

theorem journal_outputs :
    ("./src/a.page" ∈ findFiles journalFiles journal.source journal.pageSuffix ∧ UnderSource journal "./src/a.page") ∧
    (∀ page ∈ journalPages, UnderSource journal page) ∧
    outputPath journal "./src//may/./a.b.page" = .ok "../www/may/a.b.html" ∧
    (∃ front stem output, outputPath journal "./src/may/a.page.page" = .ok output ∧
      Mirrors journal front stem "./src/may/a.page.page" output) ∧
    ∀ output output', outputPath journal "./src/may/a.page.page" = .ok output →
      outputPath journal "./src/a.page" = .ok output' → ¬SamePath output output' := by
  obtain ⟨hfound, hpages⟩ := outputs_mirror_pages journal
  obtain ⟨hmirrors, hdistinct⟩ := hpages journalPages journal_underSource
  have hfile : "./src/a.page" ∈ findFiles journalFiles journal.source journal.pageSuffix := by
    rw [findFiles_of_pairwise rfl (by decide)]
    exact List.mem_singleton_self _
  have hfirst : "./src/may/a.page.page" ∈ journalPages := Or.inl rfl
  have hlast : "./src/a.page" ∈ journalPages := Or.inr (Or.inr rfl)
  refine ⟨⟨hfile, hfound journalFiles journalFiles_wellFormed _ hfile⟩, journal_underSource, rfl, hmirrors _ hfirst,
    fun output output' ho ho' hsame => ?_⟩
  have hsamePage := hdistinct _ hfirst _ hlast output output' ho ho' hsame
  exact absurd hsamePage (by decide +kernel)

end Site
end Letterpress
