import Letterpress.Proofs.Template.Loaded

/-! Searching declarations. A search goes through all that is declared in order, each declaration before those inside
    it, and takes the first of the name. A path starts where its first name is found and then only goes down
    through fields: there is one start, and if the rest of the path leads nowhere from there, it leads nowhere. -/

namespace Letterpress
namespace Param

/-- The first of the declarations that has the name. -/
def FirstNamed (name : String) (params : List Param) (found : Param) : Prop :=
  found.name = name ∧ ∃ before after, params = before ++ found :: after ∧ ∀ param ∈ before, param.name ≠ name

/-- The fields of these names lead from one declaration down to another. -/
inductive Descends : Param → List String → Param → Prop
  | here (param : Param) : Descends param [] param
  | field {name : String} {required : Bool} {fields : List Param} {field inner : Param} {names : List String}
      (hm : field ∈ fields) (h : Descends field names inner) :
      Descends (.record name required fields) (field.name :: names) inner

variable {name : String} {param found inner : Param} {params : List Param} {names : List String}

theorem find?_declared_eq_some : params.find? (·.name == name) = some found ↔ FirstNamed name params found := by
  simp [List.find?_eq_some_iff_append, FirstNamed]

theorem find?_declared_eq_none : params.find? (·.name == name) = none ↔ ∀ param ∈ params, param.name ≠ name := by
  simp [List.find?_eq_none]

/-- In a well-formed declaration the names of fields lead to one inner declaration at most. -/
theorem WellFormed.descend?_eq_some (hw : param.WellFormed) :
    param.descend? names = some inner ↔ Descends param names inner := by
  induction names generalizing param with
  | nil =>
    rw [descend?, Option.some_inj]
    constructor
    · rintro rfl
      exact .here param
    · rintro ⟨⟩
      rfl
  | cons name names ih =>
    rw [descend?]
    cases hw with
    | @record n required fields _ _ distinct inside =>
      constructor
      · intro h
        split at h
        · rename_i field hf
          obtain ⟨hm, rfl⟩ := (find?_named distinct).mp hf
          exact .field hm ((ih (inside field hm)).mp h)
        · cases h
      · rintro (_ | ⟨hm, h⟩)
        have hf : (Param.record n required fields).field? _ = some _ := (find?_named distinct).mpr ⟨hm, rfl⟩
        rw [hf]
        exact (ih (inside _ hm)).mpr h
    | _ => constructor <;> rintro ⟨⟩

end Param

namespace Template
open Markup (Element)

/-- Where a path with this first name starts: at the parameter of the name, or else at the first of the name in all that
    is declared. -/
inductive Starts (t : Template) (name : String) : Param → Prop
  | param {param : Param} (hm : param ∈ t.params) (hn : param.name = name) : Starts t name param
  | inside {param : Param} (none : ∀ param ∈ t.params, param.name ≠ name)
      (first : Param.FirstNamed name t.declared param) : Starts t name param

variable {t : Template} {name : String} {start found : Param} {fields : List String}

theorem Starts.mem_declared (h : t.Starts name start) : start ∈ t.declared := by
  cases h with
  | param hm => exact Param.mem_declaredIn_of_mem hm
  | inside _ first =>
    obtain ⟨-, before, after, hdeclared, -⟩ := first
    exact hdeclared ▸ List.mem_append_right before List.mem_cons_self

theorem Starts.name_eq (h : t.Starts name start) : start.name = name := by
  cases h with
  | param _ hn => exact hn
  | inside _ first => exact first.1

theorem param?_eq_none : t.param? name = none ↔ ∀ param ∈ t.params, param.name ≠ name :=
  Param.find?_declared_eq_none

/-- A search starts nowhere only if nothing of the name is declared. -/
theorem exists_starts : (∃ start, t.Starts name start) ↔ ∃ param ∈ t.declared, param.name = name := by
  refine ⟨fun ⟨start, h⟩ => ⟨start, h.mem_declared, h.name_eq⟩, fun ⟨param, hm, hn⟩ => ?_⟩
  cases hp : t.param? name with
  | some start => exact ⟨start, .param (List.mem_of_find?_eq_some hp) (name_of_param? hp)⟩
  | none =>
    cases hfirst : t.declared.find? (·.name == name) with
    | some start => exact ⟨start, .inside (param?_eq_none.mp hp) (Param.find?_declared_eq_some.mp hfirst)⟩
    | none => exact absurd hn (Param.find?_declared_eq_none.mp hfirst param hm)

theorem Loaded.declaration?_of_starts (ht : t.Loaded) (h : t.Starts name start) :
    t.declaration? (name :: fields) = start.descend? fields := by
  cases h with
  | param hm hn => simp only [declaration?, ht.param?_eq_some.mpr ⟨hm, hn⟩]
  | inside none first =>
    have hfound : Param.findIn? name t.params = some start := by
      rw [Param.findIn?_eq]
      exact Param.find?_declared_eq_some.mpr first
    simp only [declaration?, param?_eq_none.mpr none, hfound, Option.bind_some]

theorem declaration?_of_not_declared (h : ∀ param ∈ t.declared, param.name ≠ name) :
    t.declaration? (name :: fields) = none := by
  have hparam : t.param? name = none := param?_eq_none.mpr fun param hm => h param (Param.mem_declaredIn_of_mem hm)
  have hfound : Param.findIn? name t.params = none := by
    rw [Param.findIn?_eq]
    exact Param.find?_declared_eq_none.mpr h
  simp only [declaration?, hparam, hfound, Option.bind_none]

theorem Loaded.wellFormed_of_starts (ht : t.Loaded) (h : t.Starts name start) : start.WellFormed :=
  Param.wellFormed_of_mem_declaredIn ht.params.2 h.mem_declared

/-- The search inside a declaration gives the first of the name, and nothing only if there is none. A path leads down
    through fields from the one place where its first name starts it, and to nothing if it leads nowhere from
    there; it starts somewhere if anything of the name is declared. -/
theorem search_takes_first :
    (∀ (param : Param) (name : String),
      (∀ found, param.find? name = some found ↔ Param.FirstNamed name param.declared found) ∧
        (param.find? name = none ↔ ∀ inner ∈ param.declared, inner.name ≠ name)) ∧
    ∀ t : Template, t.Loaded → ∀ (name : String) (fields : List String),
      (∀ start, t.Starts name start → ∀ found,
        t.declaration? (name :: fields) = some found ↔ start.Descends fields found) ∧
        ((∃ start, t.Starts name start) ↔ ∃ param ∈ t.declared, param.name = name) ∧
        ((∀ start, ¬t.Starts name start) → t.declaration? (name :: fields) = none) := by
  refine ⟨fun param name => ?_, fun t ht name fields => ⟨fun start h found => ?_, exists_starts, fun h => ?_⟩⟩
  · rw [Param.find?_eq]
    exact ⟨fun found => Param.find?_declared_eq_some, Param.find?_declared_eq_none⟩
  · rw [ht.declaration?_of_starts h]
    exact (ht.wellFormed_of_starts h).descend?_eq_some
  · exact declaration?_of_not_declared fun param hm hn =>
      (exists_starts.mpr ⟨param, hm, hn⟩).elim h

/-! ### A template with one name twice -/

/-- The events have titles of their own, which have a part that the title of the page has not. -/
def programmeDeclaration : Element :=
  ⟨{ name := "template", attributes := [("name", "programme")] },
    [.element { name := "param", attributes := [("name", "events"), ("type", "list")] }
      [.element { name := "param", attributes := [("name", "event"), ("type", "struct")] }
        [.element { name := "param", attributes := [("name", "title"), ("type", "struct")] }
          [.element { name := "param", attributes := [("name", "short"), ("type", "text")] } []]]],
      .element { name := "param", attributes := [("name", "title"), ("type", "struct")] }
        [.element { name := "param", attributes := [("name", "long"), ("type", "text")] } []],
      .element { name := "content" } [.text "{{title.long}}"]]⟩

def eventTitle : Param :=
  .record "title" true [.text "short" true .generic]

def events : Param :=
  .list "events" true (.record "event" true [eventTitle])

def pageTitle : Param :=
  .record "title" true [.text "long" true .generic]

def programme : Template where
  name := "programme"
  params := [events, pageTitle]
  content := ⟨{ name := "content" }, [.text "{{title.long}}"]⟩
  formulas := [("title.long", .var ["title", "long"])]

theorem programme_loaded : programme.Loaded :=
  ⟨"programme.xml", programmeDeclaration, eq_ok_of_toOption (by decide +kernel)⟩

/-- The title of an event comes before the title of the page, but a path does not start there. It finds what the title
    of the page has, and does not go back for what only the title of an event has. -/
theorem programme_title_is_of_page :
    programme.Loaded ∧ events.find? "title" = some eventTitle ∧ events.find? "long" = none ∧
      programme.declaration? ["title", "long"] = some (.text "long" true .generic) ∧
      programme.declaration? ["title", "short"] = none ∧
      programme.declaration? ["event", "title", "short"] = some (.text "short" true .generic) ∧
      programme.declaration? ["venue", "short"] = none := by
  obtain ⟨hfind, hpath⟩ := search_takes_first
  have hpage : programme.Starts "title" pageTitle := .param (by simp [programme]) rfl
  have hevent : programme.Starts "event" (.record "event" true [eventTitle]) :=
    .inside (by decide) ⟨rfl, [events],
      [eventTitle, .text "short" true .generic, pageTitle, .text "long" true .generic], rfl, by decide⟩
  refine ⟨programme_loaded, ((hfind events "title").1 eventTitle).mpr ?_, (hfind events "long").2.mpr (by decide),
    ?_, ?_, ?_, ?_⟩
  · exact ⟨rfl, [events, .record "event" true [eventTitle]], [.text "short" true .generic], rfl, by decide⟩
  · exact ((hpath programme programme_loaded "title" ["long"]).1 pageTitle hpage _).mpr
      (.field List.mem_cons_self (.here _))
  · refine Option.eq_none_iff_forall_ne_some.mpr fun found h => ?_
    -- No field of the title of the page is called short.
    generalize hnames : ["short"] = names at h
    cases ((hpath programme programme_loaded "title" names).1 pageTitle hpage found).mp h with
    | here => cases hnames
    | field hm =>
      cases List.mem_singleton.mp hm
      exact absurd (List.head_eq_of_cons_eq hnames) (by decide)
  · have hshort : eventTitle.Descends ["short"] (.text "short" true .generic) := .field List.mem_cons_self (.here _)
    exact ((hpath programme programme_loaded "event" ["title", "short"]).1 _ hevent _).mpr
      (.field List.mem_cons_self hshort)
  · have hvenue := hpath programme programme_loaded "venue" ["short"]
    refine hvenue.2.2 fun start h => ?_
    obtain ⟨param, hm, hn⟩ := hvenue.2.1.mp ⟨start, h⟩
    exact absurd hn ((by decide : ∀ param ∈ programme.declared, param.name ≠ "venue") param hm)

end Template
end Letterpress
