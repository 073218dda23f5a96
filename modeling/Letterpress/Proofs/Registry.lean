import Letterpress.Proofs.Page.Basic
import Letterpress.Proofs.Table
import Letterpress.Proofs.Template.Reading
import Mathlib.Data.Set.Card

/-! What loading files does to a registry. One file adds templates under new names only: all of its own, or those
    before the first whose name is taken, or none. So a name keeps the template it was first registered with,
    and templates with distinct names come to the same registry in any order, as far as pages can tell. -/

namespace Letterpress
namespace Registry

variable {r r' : Registry} {file text name : String} {t : Template}

/-- The names under which templates are registered. -/
def names (r : Registry) : List String :=
  r.templates.map Template.name

/-- The registry with more templates behind its own. -/
def add (r : Registry) (added : List Template) : Registry :=
  ⟨r.templates ++ added⟩

theorem names_add (added : List Template) : (r.add added).names = r.names ++ added.map Template.name :=
  List.map_append

/-- The templates have distinct names, none of which is registered. -/
def Unused (r : Registry) (added : List Template) : Prop :=
  (added.map Template.name).Nodup ∧ ∀ t ∈ added, t.name ∉ r.names

theorem get?_eq_none : r.get? name = none ↔ name ∉ r.names := by
  simp [get?, names, List.find?_eq_none]

theorem get?_isSome : (r.get? name).isSome ↔ name ∈ r.names := by
  rw [← not_iff_not, ← get?_eq_none, Option.not_isSome_iff_eq_none]

/-- A template that is registered stays under its name. -/
theorem get?_add (h : r.get? name = some t) (added : List Template) : (r.add added).get? name = some t := by
  unfold get? at h
  rw [get?, add, List.find?_append, h, Option.some_or]

/-! ### One template, and the templates of a file -/

theorem register_of_unused (h : t.name ∉ r.names) : r.register t = .ok (r.add [t]) := by
  rw [register, if_neg (fun hs => h (get?_isSome.mp hs)), add]

theorem register_of_used (h : t.name ∈ r.names) : r.register t = .error (.duplicateTemplate t.name) := by
  rw [register, if_pos (get?_isSome.mpr h)]

/-- What registering templates comes to: all of them are added, or those before the first whose name is taken. -/
inductive Registers (r : Registry) : List Template → Registry × Except Error Unit → Prop
  | all {ts : List Template} (unused : r.Unused ts) : Registers r ts (r.add ts, .ok ())
  | upTo {before after : List Template} {t : Template} (unused : r.Unused before)
      (used : t.name ∈ r.names ++ before.map Template.name) :
      Registers r (before ++ t :: after) (r.add before, .error (.duplicateTemplate t.name))

theorem Unused.cons {added : List Template} (ht : t.name ∉ r.names) (h : (r.add [t]).Unused added) :
    r.Unused (t :: added) := by
  obtain ⟨hd, hnew⟩ := h
  simp only [names_add, List.map_cons, List.map_nil, List.mem_append, List.mem_singleton, not_or] at hnew
  refine ⟨List.nodup_cons.mpr ⟨fun hm => ?_, hd⟩, List.forall_mem_cons.mpr ⟨ht, fun t' ht' => (hnew t' ht').1⟩⟩
  obtain ⟨t', ht', heq⟩ := List.mem_map.mp hm
  exact (hnew t' ht').2 heq

theorem registers_registerAll (r : Registry) (ts : List Template) : Registers r ts (r.registerAll ts) := by
  have hadd : ∀ (t : Template) (ts : List Template), (r.add [t]).add ts = r.add (t :: ts) := fun t ts => by
    simp [add]
  induction ts generalizing r with
  | nil =>
    have hnil : r.registerAll [] = (r.add [], .ok ()) := by simp [registerAll, add]
    rw [hnil]
    exact .all ⟨List.nodup_nil, nofun⟩
  | cons t ts ih =>
    rw [registerAll]
    by_cases ht : t.name ∈ r.names
    · rw [register_of_used ht]
      have hempty : r = r.add [] := by simp [add]
      have hupTo : Registers r ([] ++ t :: ts) (r.add [], .error (.duplicateTemplate t.name)) :=
        .upTo ⟨List.nodup_nil, nofun⟩ (by simpa using ht)
      rwa [← hempty] at hupTo
    · rw [register_of_unused ht]
      have hrest := ih (r.add [t]) (fun t' ts' => by simp [add])
      dsimp only
      generalize (r.add [t]).registerAll ts = result at hrest
      cases hrest with
      | all unused =>
        rw [hadd]
        exact .all (unused.cons ht)
      | @upTo before after taken unused used =>
        rw [hadd, ← List.cons_append]
        refine .upTo (unused.cons ht) ?_
        rw [names_add, List.append_assoc] at used
        exact used

/-- What loading a file comes to. -/
inductive Loads (r : Registry) (file text : String) : Registry × Except Error (List Template) → Prop
  | refused {fault : Error} (read : Template.load file text = .error fault) : Loads r file text (r, .error fault)
  | all {ts : List Template} (read : Template.load file text = .ok ts) (unused : r.Unused ts) :
      Loads r file text (r.add ts, .ok ts)
  | upTo {before after : List Template} {t : Template} (read : Template.load file text = .ok (before ++ t :: after))
      (unused : r.Unused before) (used : t.name ∈ r.names ++ before.map Template.name) :
      Loads r file text (r.add before, .error (.duplicateTemplate t.name))

theorem loads_loadFile (r : Registry) (file text : String) : Loads r file text (r.loadFile file text) := by
  unfold loadFile
  cases hread : Template.load file text with
  | error fault => exact .refused hread
  | ok ts =>
    have hregisters := registers_registerAll r ts
    dsimp only
    generalize r.registerAll ts = result at hregisters
    cases hregisters with
    | all unused => exact .all hread unused
    | upTo unused used => exact .upTo hread unused used

/-- Whatever becomes of the file, it adds templates under new names only. -/
theorem exists_added (r : Registry) (file text : String) :
    ∃ added, (r.loadFile file text).1 = r.add added ∧ r.Unused added := by
  have hloads := loads_loadFile r file text
  generalize r.loadFile file text = result at hloads
  cases hloads with
  | refused => exact ⟨[], by simp [add], List.nodup_nil, nofun⟩
  | all _ unused => exact ⟨_, rfl, unused⟩
  | upTo _ unused => exact ⟨_, rfl, unused⟩

/-- Only a taken name gives the error of one: the file itself never does. -/
theorem load_ne_duplicateTemplate : Template.load file text ≠ .error (.duplicateTemplate name) := fun h =>
  Template.fails_load (P := (· ≠ .duplicateTemplate name)) ⟨nofun, nofun, nofun⟩ file text _ h rfl

theorem loadFile_eq_duplicateTemplate
    (h : r.loadFile file text = (r', .error (.duplicateTemplate name))) :
    ∃ before t after, Template.load file text = .ok (before ++ t :: after) ∧ t.name = name ∧ r' = r.add before ∧
      r.Unused before ∧ name ∈ r.names ++ before.map Template.name := by
  have hloads := loads_loadFile r file text
  rw [h] at hloads
  cases hloads with
  | refused read => exact absurd read load_ne_duplicateTemplate
  | upTo read unused used => exact ⟨_, _, _, read, rfl, rfl, unused, used⟩

/-! ### Files one after the other -/

/-- The registry after some files, each given by its name and its text. -/
def loadFiles (r : Registry) (files : List (String × String)) : Registry :=
  files.foldl (fun r file => (r.loadFile file.1 file.2).1) r

theorem loadFiles_append (files more : List (String × String)) :
    r.loadFiles (files ++ more) = (r.loadFiles files).loadFiles more :=
  List.foldl_append

theorem get?_loadFiles (h : r.get? name = some t) (files : List (String × String)) :
    (r.loadFiles files).get? name = some t := by
  induction files generalizing r with
  | nil => exact h
  | cons file files ih =>
    obtain ⟨added, hadded, -⟩ := r.exists_added file.1 file.2
    have hstep : (r.loadFile file.1 file.2).1.get? name = some t := hadded ▸ get?_add h added
    exact ih hstep

theorem nodup_add {added : List Template} (h : r.names.Nodup) (hu : r.Unused added) : (r.add added).names.Nodup := by
  rw [names_add]
  refine List.nodup_append.mpr ⟨h, hu.1, fun first hfirst second hsecond heq => ?_⟩
  obtain ⟨t, ht, rfl⟩ := List.mem_map.mp hsecond
  exact hu.2 t ht (heq ▸ hfirst)

theorem nodup_loadFiles (h : r.names.Nodup) (files : List (String × String)) : (r.loadFiles files).names.Nodup := by
  induction files generalizing r with
  | nil => exact h
  | cons file files ih =>
    obtain ⟨added, hadded, hunused⟩ := r.exists_added file.1 file.2
    have hstep : (r.loadFile file.1 file.2).1.names.Nodup := hadded ▸ nodup_add h hunused
    exact ih hstep

/-- The size of a registry with distinct names is the number of the names that are registered. -/
theorem encard_registered (h : r.names.Nodup) : {name | (r.get? name).isSome}.encard = r.size := by
  have hset : {name | (r.get? name).isSome} = ↑r.names.toFinset := by
    ext name
    rw [Set.mem_ofPred_eq, get?_isSome, List.coe_toFinset, Set.mem_ofPred_eq]
  rw [hset, Set.encard_coe_eq_coe_finsetCard, List.toFinset_card_of_nodup h, names, List.length_map, size]

/-! ### The order of the files -/

/-- The templates of a file, of which there are none if it cannot be read. -/
def templatesOf (file : String × String) : List Template :=
  (Template.load file.1 file.2).toOption.getD []

/-- Files all of whose templates have names of their own add all of them. -/
theorem loadFiles_of_distinct {files : List (String × String)} (h : (r.add (files.flatMap templatesOf)).names.Nodup) :
    r.loadFiles files = r.add (files.flatMap templatesOf) := by
  induction files generalizing r with
  | nil => simp [loadFiles, add]
  | cons file files ih =>
    rw [List.flatMap_cons] at h ⊢
    have hsplit : r.add (templatesOf file ++ files.flatMap templatesOf) =
        (r.add (templatesOf file)).add (files.flatMap templatesOf) := by simp [add]
    have hfile : (r.loadFile file.1 file.2).1 = r.add (templatesOf file) := by
      have hloads := loads_loadFile r file.1 file.2
      generalize r.loadFile file.1 file.2 = result at hloads
      cases hloads with
      | refused read => simp [templatesOf, read, Except.toOption, add]
      | all read unused => simp [templatesOf, read, Except.toOption]
      | @upTo before after t read unused used =>
        -- A name that is taken would stand among the names twice.
        have htemplates : templatesOf file = before ++ t :: after := by simp [templatesOf, read, Except.toOption]
        simp only [names_add, htemplates, List.map_append, List.map_cons, List.append_assoc] at h
        rw [← List.append_assoc, List.nodup_append] at h
        exact absurd rfl (h.2.2 _ used _ List.mem_cons_self)
    rw [hsplit] at h ⊢
    rw [← ih h, loadFiles, List.foldl_cons, hfile]
    rfl

theorem get?_perm (h : r.names.Nodup) (hp : r.templates.Perm r'.templates) (name : String) : r'.get? name = r.get? name :=
  find?_named_perm h hp

theorem get?_loadFiles_perm {files files' : List (String × String)} (hp : files.Perm files')
    (h : ((files.flatMap templatesOf).map Template.name).Nodup) (name : String) :
    (loadFiles {} files').get? name = (loadFiles {} files).get? name := by
  have hadd : ∀ ts, (add {} ts).names = ts.map Template.name := fun _ => rfl
  have hts : (files.flatMap templatesOf).Perm (files'.flatMap templatesOf) := hp.flatMap_right _
  have h' : ((files'.flatMap templatesOf).map Template.name).Nodup := (hts.map _).nodup_iff.mp h
  rw [loadFiles_of_distinct (by rwa [hadd]), loadFiles_of_distinct (by rwa [hadd])]
  exact get?_perm (by rwa [hadd]) (by simpa [add] using hts) name

/-! ### Runs of any files -/

/-- Whatever files have been loaded: a name keeps its template, a file that cannot be read changes nothing, a file
    with a taken name adds its templates before the first such name, the size counts the names, and files whose
    templates have distinct names may come in any order. -/
theorem first_definitions_stay (files : List (String × String)) :
    (∀ name t more, (loadFiles {} files).get? name = some t → (loadFiles {} (files ++ more)).get? name = some t) ∧
    (∀ file text fault, Template.load file text = .error fault →
      (loadFiles {} files).loadFile file text = (loadFiles {} files, .error fault)) ∧
    (∀ file text name r', (loadFiles {} files).loadFile file text = (r', .error (.duplicateTemplate name)) →
      ∃ before t after, Template.load file text = .ok (before ++ t :: after) ∧ t.name = name ∧
        r' = (loadFiles {} files).add before ∧ (loadFiles {} files).Unused before ∧
        name ∈ (loadFiles {} files).names ++ before.map Template.name) ∧
    {name | ((loadFiles {} files).get? name).isSome}.encard = (loadFiles {} files).size ∧
    ∀ files', files.Perm files' → ((files.flatMap templatesOf).map Template.name).Nodup → ∀ ctx layout text,
      Page.render (loadFiles {} files') ctx layout text = Page.render (loadFiles {} files) ctx layout text := by
  refine ⟨fun name t more h => ?_, fun file text fault h => ?_, fun file text name r' h => ?_, ?_, ?_⟩
  · rw [loadFiles_append]
    exact get?_loadFiles h more
  · rw [loadFile, h]
  · exact loadFile_eq_duplicateTemplate h
  · have hnone : ({} : Registry).names.Nodup := List.nodup_nil
    exact encard_registered (nodup_loadFiles hnone files)
  · exact fun files' hp hd _ layout text => Page.render_registry_congr (get?_loadFiles_perm hp hd) layout text

/-- A template without parameters or formulas. -/
def fixed (name : String) (body : List Markup.Node) : Template where
  name
  params := []
  content := ⟨{ name := "content" }, body⟩
  formulas := []

def greeting : String × String :=
  ("a.template.xml", "<template name='x'><content>hi</content></template>")

/-- The second template of this file has the name of the greeting. -/
def moreGreetings : String × String :=
  ("b.template.xml",
    "<templates><template name='z'><content/></template><template name='x'><content/></template></templates>")

def cutOff : String × String :=
  ("c.template.xml", "<template name='v'>")

theorem load_greeting : Template.load greeting.1 greeting.2 = .ok [fixed "x" [.text "hi"]] :=
  eq_ok_of_toOption (by decide +kernel)

theorem load_moreGreetings : Template.load moreGreetings.1 moreGreetings.2 = .ok [fixed "z" [], fixed "x" []] :=
  eq_ok_of_toOption (by decide +kernel)

theorem load_cutOff : Template.load cutOff.1 cutOff.2 = .error (.document .notWellFormed) := by
  have hread : Markup.Element.read? cutOff.2 = none := by decide +kernel
  rw [Template.load, hread]

theorem loadFiles_greeting : loadFiles {} [greeting] = ⟨[fixed "x" [.text "hi"]]⟩ := by
  rw [loadFiles, List.foldl_cons, List.foldl_nil, loadFile, load_greeting]
  rfl

theorem greeting_stays :
    (loadFiles {} [greeting]).get? "x" = some (fixed "x" [.text "hi"]) ∧
    (loadFiles {} ([greeting] ++ [cutOff, moreGreetings])).get? "x" = some (fixed "x" [.text "hi"]) ∧
    (loadFiles {} [greeting]).loadFile cutOff.1 cutOff.2 = (loadFiles {} [greeting], .error (.document .notWellFormed)) ∧
    (loadFiles {} [greeting]).loadFile moreGreetings.1 moreGreetings.2 =
      (⟨[fixed "x" [.text "hi"], fixed "z" []]⟩, .error (.duplicateTemplate "x")) ∧
    (∃ before t after, Template.load moreGreetings.1 moreGreetings.2 = .ok (before ++ t :: after) ∧ t.name = "x" ∧
      ⟨[fixed "x" [.text "hi"], fixed "z" []]⟩ = (loadFiles {} [greeting]).add before ∧
      (loadFiles {} [greeting]).Unused before ∧ "x" ∈ (loadFiles {} [greeting]).names ++ before.map Template.name) ∧
    {name | ((loadFiles {} [greeting]).get? name).isSome}.encard = 1 ∧
    (([greeting, cutOff].flatMap templatesOf).map Template.name).Nodup ∧
    ∀ ctx layout text, Page.render (loadFiles {} [cutOff, greeting]) ctx layout text =
      Page.render (loadFiles {} [greeting, cutOff]) ctx layout text := by
  obtain ⟨hstays, hrefused, htaken, hsize, -⟩ := first_definitions_stay [greeting]
  obtain ⟨-, -, -, -, horder⟩ := first_definitions_stay [greeting, cutOff]
  have hx : (loadFiles {} [greeting]).get? "x" = some (fixed "x" [.text "hi"]) := by
    rw [loadFiles_greeting]
    rfl
  have hmore : (loadFiles {} [greeting]).loadFile moreGreetings.1 moreGreetings.2 =
      (⟨[fixed "x" [.text "hi"], fixed "z" []]⟩, .error (.duplicateTemplate "x")) := by
    rw [loadFiles_greeting, loadFile, load_moreGreetings]
    rfl
  have hd : (([greeting, cutOff].flatMap templatesOf).map Template.name).Nodup := by
    simp only [List.flatMap_cons, List.flatMap_nil, templatesOf, load_greeting, load_cutOff]
    decide
  rw [show (loadFiles {} [greeting]).size = 1 by rw [loadFiles_greeting]; rfl] at hsize
  exact ⟨hx, hstays _ _ _ hx, hrefused _ _ _ load_cutOff, hmore, htaken _ _ _ _ hmore, hsize, hd,
    horder _ (List.Perm.swap ..) hd⟩

end Registry
end Letterpress
