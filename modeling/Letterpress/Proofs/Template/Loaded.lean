import Letterpress.Expansion
import Letterpress.Proofs.Expansion.Basic
import Letterpress.Proofs.Template.Parts

/-! Loaded templates. The formulas that a template keeps are read from their texts when it is loaded, so
    the table never says anything else than reading the text again, and every marker of the body has one.
    The body is a part of a tree that has been read. -/

namespace Letterpress
namespace Template

open Markup (Node Element)

/-- The template is declared by an element of a file. -/
def Loaded (t : Template) : Prop :=
  ∃ file e, ofElement file e = .ok t

/-- The template is one of those that are read from the text of a file. -/
def OfFile (t : Template) : Prop :=
  ∃ file text templates, load file text = .ok templates ∧ t ∈ templates

/-! ### The table of formulas -/

/-- Every formula of the table is what its text is read as. -/
def Faithful (table : List (String × Formula)) : Prop :=
  ∀ text formula, table.lookup text = some formula → Formula.parse text = .ok formula

/-- A text that the table knows is passed over, and any other has to be a formula, which is added for it. -/
theorem readFormulas_cons_eq_ok {table table' : List (String × Formula)} {text : String} {texts : List String} :
    readFormulas table (text :: texts) = .ok table' ↔
      ((table.lookup text).isSome ∧ readFormulas table texts = .ok table') ∨
      (table.lookup text = none ∧ ∃ formula, Formula.parse text = .ok formula ∧
        readFormulas (table ++ [(text, formula)]) texts = .ok table') := by
  rw [readFormulas]
  cases hknown : table.lookup text with
  | some found => simp
  | none => cases hparse : Formula.parse text <;> simp

theorem faithful_nil : Faithful [] :=
  fun _ _ h => nomatch h

theorem Faithful.concat {table : List (String × Formula)} (ht : Faithful table) {text : String} {formula : Formula}
    (h : Formula.parse text = .ok formula) : Faithful (table ++ [(text, formula)]) := fun text' formula' hl => by
  rcases lookup_concat hl with hbefore | ⟨rfl, rfl⟩
  · exact ht text' formula' hbefore
  · exact h

theorem faithful_readFormulas {table table' : List (String × Formula)} {texts : List String} (ht : Faithful table)
    (h : readFormulas table texts = .ok table') : Faithful table' := by
  induction texts generalizing table with
  | nil =>
    cases h
    exact ht
  | cons text texts ih =>
    rcases readFormulas_cons_eq_ok.mp h with ⟨-, h⟩ | ⟨-, formula, hparse, h⟩
    · exact ih ht h
    · exact ih (ht.concat hparse) h

/-- Whatever has a formula already keeps one, and every text gets one. -/
theorem complete_readFormulas {table table' : List (String × Formula)} {texts : List String}
    (h : readFormulas table texts = .ok table') :
    ∀ text, (table.lookup text).isSome ∨ text ∈ texts → (table'.lookup text).isSome := by
  induction texts generalizing table with
  | nil =>
    cases h
    exact fun text ht => ht.resolve_right nofun
  | cons first texts ih =>
    intro text ht
    rw [List.mem_cons] at ht
    rcases readFormulas_cons_eq_ok.mp h with ⟨hknown, h⟩ | ⟨-, formula, -, h⟩
    · refine ih h text ?_
      rcases ht with ht | rfl | ht
      · exact Or.inl ht
      · exact Or.inl hknown
      · exact Or.inr ht
    · refine ih h text ?_
      rw [List.lookup_append, Option.isSome_or, Bool.or_eq_true]
      rcases ht with ht | rfl | ht
      · exact Or.inl (Or.inl ht)
      · exact Or.inl (Or.inr (by simp))
      · exact Or.inr ht

/-! ### Its declarations -/

theorem Loaded.params {t : Template} (h : t.Loaded) :
    (t.params.map Param.name).Nodup ∧ ∀ param ∈ t.params, param.WellFormed := by
  obtain ⟨file, e, h⟩ := h
  obtain ⟨-, -, hdeclared, hdistinct, -⟩ := ofElement_eq_ok.mp h
  refine ⟨hdistinct, fun param hm => ?_⟩
  obtain ⟨declaration, -, hparam⟩ := exists_left_of_forall₂ hdeclared hm
  exact Param.wellFormed_of_ofElement hparam

theorem Loaded.param?_eq_some {t : Template} (h : t.Loaded) {name : String} {param : Param} :
    t.param? name = some param ↔ param ∈ t.params ∧ param.name = name :=
  find?_named h.params.1

theorem Loaded.faithful {t : Template} (h : t.Loaded) : Faithful t.formulas := by
  obtain ⟨file, e, h⟩ := h
  obtain ⟨-, -, -, -, -, hf⟩ := ofElement_eq_ok.mp h
  exact faithful_readFormulas faithful_nil hf

/-- The formula of a marker is what its text is read as, whether the template keeps it or not. -/
theorem Loaded.parse_of_formula? {t : Template} (h : t.Loaded) {text : String} {formula : Formula}
    (hf : Expansion.formula? t text = some formula) : Formula.parse text = .ok formula := by
  unfold Expansion.formula? at hf
  split at hf
  · rename_i found hl
    cases hf
    exact h.faithful text _ hl
  · cases hp : Formula.parse text with
    | error fault => rw [hp] at hf; cases hf
    | ok found => rw [hp] at hf; cases hf; rfl

/-- The table has an entry for every marker of the body. -/
theorem Loaded.lookup_of_marker {t : Template} (h : t.Loaded) {text raw formula : String}
    (ht : text ∈ textsOfElement t.content) (hm : .marker raw formula ∈ Segment.split text) :
    ∃ found, t.formula? formula = some found := by
  obtain ⟨file, e, h⟩ := h
  obtain ⟨-, -, -, -, -, hf⟩ := ofElement_eq_ok.mp h
  have hmem : formula ∈ (textsOfElement t.content).flatMap formulaTexts :=
    List.mem_flatMap.mpr ⟨text, ht, List.mem_filterMap.mpr ⟨_, hm, rfl⟩⟩
  exact Option.isSome_iff_exists.mp (complete_readFormulas hf formula (Or.inr hmem))

/-- Every marker of the body has a formula. -/
theorem Loaded.formula?_of_marker {t : Template} (h : t.Loaded) {text raw formula : String}
    (ht : text ∈ textsOfElement t.content) (hm : .marker raw formula ∈ Segment.split text) :
    ∃ found, Expansion.formula? t formula = some found := by
  obtain ⟨found, hlookup⟩ := h.lookup_of_marker ht hm
  exact ⟨found, by rw [Expansion.formula?, hlookup]⟩

/-! ### Files -/

/-- The template is declared by an element of a tree that has been read. -/
theorem OfFile.ofElement {t : Template} (h : t.OfFile) :
    ∃ file e, Template.ofElement file e = .ok t ∧ ∀ node ∈ e.children, node.All Node.NotCdata := by
  obtain ⟨file, text, templates, h, ht⟩ := h
  unfold load at h
  split at h
  · cases h
  · rename_i root hroot
    have hread := Element.notCdata_of_read? hroot
    obtain ⟨es, hes, hts⟩ := ofRoot_eq_ok.mp h
    obtain ⟨e, he, ht⟩ := exists_left_of_forall₂ hts ht
    refine ⟨file, e, ht, ?_⟩
    cases hes with
    | one hname => exact List.mem_singleton.mp he ▸ hread
    | several hname hinside named =>
      have hmem : e.toNode ∈ root.significant := hinside ▸ List.mem_map_of_mem he
      exact (hread e.toNode (List.mem_filter.mp hmem).1).inside

theorem OfFile.loaded {t : Template} (h : t.OfFile) : t.Loaded := by
  obtain ⟨file, e, h, -⟩ := h.ofElement
  exact ⟨file, e, h⟩

theorem OfFile.notCdata {t : Template} (h : t.OfFile) : ∀ node ∈ t.content.children, node.All Node.NotCdata := by
  obtain ⟨file, e, he, hread⟩ := h.ofElement
  obtain ⟨-, -, -, -, hcontent, -⟩ := ofElement_eq_ok.mp he
  have hmem : t.content.toNode ∈ e.significant :=
    @mem_of_elementsNamed "content" _ _ (hcontent ▸ List.mem_singleton.mpr rfl)
  exact (hread t.content.toNode (List.mem_filter.mp hmem).1).inside

end Template
end Letterpress
