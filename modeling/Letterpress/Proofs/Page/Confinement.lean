import Letterpress.Proofs.Files.Apart
import Letterpress.Proofs.Page.Basic

/-! What a page can find out about the files around it. All its checks go to paths that stay under the file root
    or the source root, so what stands anywhere else makes no difference to the page or to its error. -/

namespace Letterpress

/-- File systems with the same at the place of a root answer alike about every path that stays under it. -/
theorem FileSystem.find?_of_staysUnder {fs fs' : FileSystem} {root path : String} (hhere : fs'.here = fs.here)
    (hh : fs.root.IsDirectoryAt fs.here) (hh' : fs'.root.IsDirectoryAt fs'.here) (hup : ".." ∉ Path.parts root)
    (hat : fs'.root.at? (fs.aim root) = fs.root.at? (fs.aim root)) (hp : Path.StaysUnder root path) :
    fs'.find? path = fs.find? path := by
  obtain ⟨names, hnames, hc⟩ := hp.continues
  have haim : fs'.aim root = fs.aim root := by rw [aim, aim, start, start, hhere]
  refine find?_congr hh hh' (direct_of_not_mem hh hup) (direct_of_not_mem hh' hup) haim hc hnames ?_
  rw [FileTree.at?_append, FileTree.at?_append, hat]

namespace Page

/-- Two file systems that give the same answers about the paths that stay under the file root and the source root
    give the same page or the same error, whatever paths the page and the templates name. -/
theorem render_confined (registry : Registry) (ctx : Context) (layout : Markup.Layout) (text : String)
    {fs fs' : FileSystem} (hfile : ∀ path, Path.StaysUnder ctx.fileRoot path → fs'.isFile path = fs.isFile path)
    (hsource : ∀ path, Path.StaysUnder ctx.sourceRoot path →
      fs'.isFile path = fs.isFile path ∧ fs'.isDirectory path = fs.isDirectory path) :
    render registry { ctx with probe := fs'.probe } layout text =
      render registry { ctx with probe := fs.probe } layout text := by
  have hsees : Context.SeesAlike { ctx with probe := fs.probe } { ctx with probe := fs'.probe } :=
    Context.seesAlike_of_probes hfile hsource
  exact render_congr hsees rfl rfl layout text

/-! ### A page that looks around -/

/-- A template that names a file outside the roots, in several ways, and one inside. -/
def curious : Template where
  name := "curious"
  params := [.text "path" true .generic]
  content := ⟨{ name := "content" },
    [.element { name := "Match", attributes := [("f", "file-exists"), ("x", "{{path}}")] }
        [.element { name := "True" } [.text "found"], .element { name := "False" } [.text "missing"]],
      .element { name := "Match", attributes := [("f", "src-file-exists"), ("x", "/a/../../secret.txt")] }
        [.element { name := "True" } [.text "found"]],
      .element { name := "Match", attributes := [("f", "file-exists"), ("x", "logo.png")] }
        [.element { name := "True" } [.text "logo"]]]⟩
  formulas := [("path", .var ["path"])]

/-- A site, and what stands beside its two directories. -/
def siteBeside (others : List (String × FileTree)) : FileSystem where
  root := .directory ([("src", .empty), ("www", .directory [("logo.png", .file "image".toUTF8)])] ++ others)
  here := []

def secret : FileSystem :=
  siteBeside [("secret.txt", .file "secret".toUTF8)]

def curiousPage : String :=
  "<page><curious><path>../secret.txt</path></curious></page>"

theorem siteBeside_alike {root path : String} (others : List (String × FileTree))
    (hroot : root = "src" ∨ root = "www") (hp : Path.StaysUnder root path) :
    (siteBeside others).find? path = (siteBeside []).find? path := by
  have hh : ∀ others, (siteBeside others).root.IsDirectoryAt [] := fun others => ⟨_, rfl⟩
  rcases hroot with rfl | rfl
  · exact FileSystem.find?_of_staysUnder rfl (hh []) (hh others) (by decide) rfl hp
  · exact FileSystem.find?_of_staysUnder rfl (hh []) (hh others) (by decide) rfl hp

theorem secret_not_seen :
    secret.isFile "secret.txt" = true ∧ (siteBeside []).isFile "secret.txt" = false ∧
      render ⟨[curious]⟩ { probe := secret.probe } .compact curiousPage =
        render ⟨[curious]⟩ { probe := (siteBeside []).probe } .compact curiousPage ∧
      (render ⟨[curious]⟩ { probe := secret.probe } .compact curiousPage).result.toOption =
        some "<!DOCTYPE html>\nmissinglogo" := by
  refine ⟨by decide +kernel, by decide +kernel, ?_, by decide +kernel⟩
  have alike : ∀ root path, root = "src" ∨ root = "www" → Path.StaysUnder root path →
      secret.isFile path = (siteBeside []).isFile path ∧ secret.isDirectory path = (siteBeside []).isDirectory path := by
    intro root path hroot hp
    have hfind := siteBeside_alike [("secret.txt", .file "secret".toUTF8)] hroot hp
    exact ⟨by rw [FileSystem.isFile, FileSystem.isFile, secret, hfind],
      by rw [FileSystem.isDirectory, FileSystem.isDirectory, secret, hfind]⟩
  exact render_confined ⟨[curious]⟩ { probe := (siteBeside []).probe } .compact curiousPage
    (fun path hp => (alike "www" path (Or.inr rfl) hp).1) fun path hp => alike "src" path (Or.inl rfl) hp

end Page
end Letterpress
