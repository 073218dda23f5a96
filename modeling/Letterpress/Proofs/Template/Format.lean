import Letterpress.Proofs.Template.FormulaTable

/-! The format of a file of templates. Its root is a template, or holds nothing but templates; a template has a name,
    parameters with distinct names and one body, the markers of which are formulas. A file in this format is
    read into one template for each of its elements, and any other is refused as a whole. -/

namespace Letterpress
open Markup (Node Element Head)

namespace Template

/-! ### Formulas -/

mutual

theorem holds_of_mem_textsOf {text : String} : ∀ {node : Node}, text ∈ textsOf node → node.Holds text
  | .element head children, h => by
    rcases List.mem_append.mp h with h | h
    · obtain ⟨⟨name, value⟩, hmem, rfl⟩ := List.mem_map.mp h
      exact .value hmem
    · obtain ⟨node, hmem, hnode⟩ := holds_of_mem_textsIn h
      exact .inside hmem hnode
  | .text _, h => List.mem_singleton.mp h ▸ .text
  | .cdata _, h => List.mem_singleton.mp h ▸ .cdata
  | .comment _, h | .instruction .., h => nomatch h

theorem holds_of_mem_textsIn {text : String} : ∀ {nodes : List Node}, text ∈ textsIn nodes →
    ∃ node ∈ nodes, node.Holds text
  | node :: nodes, h => by
    rcases List.mem_append.mp h with h | h
    · exact ⟨node, List.mem_cons_self, holds_of_mem_textsOf h⟩
    · obtain ⟨inner, hmem, hinner⟩ := holds_of_mem_textsIn h
      exact ⟨inner, List.mem_cons_of_mem _ hmem, hinner⟩

end

/-- A text of the body has a marker for this formula. -/
def Marks (content : Element) (formula : String) : Prop :=
  ∃ text raw, content.toNode.Holds text ∧ .marker raw formula ∈ Segment.split text

theorem mem_formulaTexts {text formula : String} :
    formula ∈ formulaTexts text ↔ ∃ raw, .marker raw formula ∈ Segment.split text := by
  simp only [formulaTexts, List.mem_filterMap]
  constructor
  · rintro ⟨segment, hmem, h⟩
    cases segment with
    | literal text => cases h
    | marker raw found =>
      cases h
      exact ⟨raw, hmem⟩
  · rintro ⟨raw, hmem⟩
    exact ⟨_, hmem, rfl⟩

theorem marks_iff {content : Element} {formula : String} :
    Marks content formula ↔ formula ∈ (textsOfElement content).flatMap formulaTexts := by
  simp only [Marks, List.mem_flatMap, mem_formulaTexts]
  constructor
  · rintro ⟨text, raw, hholds, hmem⟩
    exact ⟨text, mem_textsOf_of_holds hholds, raw, hmem⟩
  · rintro ⟨text, htext, raw, hmem⟩
    exact ⟨text, raw, holds_of_mem_textsOf htext, hmem⟩

theorem readFormulas_of_formulas {texts : List String} (h : ∀ text ∈ texts, ∃ formula, Formula.parse text = .ok formula)
    (table : List (String × Formula)) : ∃ table', readFormulas table texts = .ok table' := by
  induction texts generalizing table with
  | nil => exact ⟨table, rfl⟩
  | cons text texts ih =>
    obtain ⟨⟨formula, hparse⟩, h⟩ := List.forall_mem_cons.mp h
    cases hknown : table.lookup text with
    | some found =>
      obtain ⟨table', ht⟩ := ih h table
      exact ⟨table', readFormulas_cons_eq_ok.mpr (Or.inl ⟨by rw [hknown, Option.isSome_some], ht⟩)⟩
    | none =>
      obtain ⟨table', ht⟩ := ih h (table ++ [(text, formula)])
      exact ⟨table', readFormulas_cons_eq_ok.mpr (Or.inr ⟨hknown, formula, hparse, ht⟩)⟩

/-- A table can be made exactly where all the texts are formulas. -/
theorem readFormulas_succeeds_iff {texts : List String} :
    (∃ table, readFormulas [] texts = .ok table) ↔ ∀ text ∈ texts, ∃ formula, Formula.parse text = .ok formula := by
  refine ⟨fun ⟨table, h⟩ text ht => ?_, fun h => readFormulas_of_formulas h []⟩
  -- Every text has an entry in the table, and the table says nothing false.
  obtain ⟨formula, hl⟩ := Option.isSome_iff_exists.mp (complete_readFormulas h text (Or.inr ht))
  exact ⟨formula, faithful_readFormulas faithful_nil h text formula hl⟩

/-! ### A template -/

section
variable {file : String} {e : Element} {t : Template}

/-- The element declares a template: it has a name, and nothing in it but declarations of parameters under distinct
    names and one body, the markers of which are formulas. -/
structure WellDeclared (e : Element) : Prop where
  name : ∃ written, e.attribute? "name" = some written ∧ Text.allBlank written = false
  parts : ∀ node ∈ e.significant, IsPart node
  params : ∃ params, Declared (elementsNamed "param" e.significant) params ∧ (params.map Param.name).Nodup
  content : ∃ content, elementsNamed "content" e.significant = [content] ∧
    ∀ formula, Marks content formula → ∃ found, Formula.parse formula = .ok found

/-- The template is what the element declares: the trimmed name, the parameters in the order of their
    declarations, each to be found under its own name, and the body as it stands. -/
structure Describes (e : Element) (t : Template) : Prop where
  name : ∃ written, e.attribute? "name" = some written ∧ t.name = Text.trim written
  params : Declared (elementsNamed "param" e.significant) t.params
  named : ∀ param ∈ t.params, t.param? param.name = some param
  content : elementsNamed "content" e.significant = [t.content]

theorem wellDeclared_and_describes (h : ofElement file e = .ok t) : WellDeclared e ∧ Describes e t := by
  obtain ⟨⟨written, hwritten, hblank, hname⟩, hparts, hdeclared, hdistinct, hcontent, hformulas⟩ := ofElement_eq_ok.mp h
  have hformula : ∀ formula, Marks t.content formula → ∃ found, Formula.parse formula = .ok found := fun formula hm =>
    readFormulas_succeeds_iff.mp ⟨_, hformulas⟩ formula (marks_iff.mp hm)
  refine ⟨⟨⟨written, hwritten, hblank⟩, hparts, ⟨_, hdeclared, hdistinct⟩, t.content, hcontent, hformula⟩,
    ⟨written, hwritten, hname⟩, hdeclared, fun param hparam => ?_, hcontent⟩
  exact (find?_named hdistinct).mpr ⟨hparam, rfl⟩

theorem WellDeclared.ofElement_succeeds (h : WellDeclared e) (file : String) : ∃ t, ofElement file e = .ok t := by
  obtain ⟨⟨written, hwritten, hblank⟩, hparts, ⟨params, hdeclared, hdistinct⟩, content, hcontent, hformula⟩ := h
  obtain ⟨formulas, hformulas⟩ :=
    readFormulas_succeeds_iff.mpr fun formula hf => hformula formula (marks_iff.mpr hf)
  exact ⟨⟨Text.trim written, params, content, formulas⟩,
    ofElement_eq_ok.mpr ⟨⟨written, hwritten, hblank, rfl⟩, hparts, hdeclared, hdistinct, hcontent, hformulas⟩⟩

end

/-! ### A file -/

/-- The file of this root has the format. -/
def InFormat (root : Element) : Prop :=
  ∃ es, Declarations root es ∧ ∀ e ∈ es, WellDeclared e

section
variable {file : String} {root : Element} {ts : List Template}

theorem inFormat_of_ofRoot (h : ofRoot file root = .ok ts) : InFormat root ∧
    ∃ es, Declarations root es ∧ List.Forall₂ Describes es ts := by
  obtain ⟨es, hes, h⟩ := ofRoot_eq_ok.mp h
  refine ⟨⟨es, hes, fun e he => ?_⟩, es, hes, h.imp fun _ _ ht => (wellDeclared_and_describes ht).2⟩
  obtain ⟨t, -, ht⟩ := exists_of_forall₂ h he
  exact (wellDeclared_and_describes ht).1

/-- A file in the format is read into one template for each of its elements, in their order, and any other is
    refused: none of its templates is read. -/
theorem load_all_or_nothing (file : String) (root : Element) :
    ((∃ ts, ofRoot file root = .ok ts) ↔ InFormat root) ∧
    (∀ ts, ofRoot file root = .ok ts → ∃ es, Declarations root es ∧ List.Forall₂ Describes es ts) ∧
    (¬InFormat root → ∃ fault, ofRoot file root = .error fault) ∧
    ∀ text, Element.read? text = some root → load file text = ofRoot file root := by
  have hiff : (∃ ts, ofRoot file root = .ok ts) ↔ InFormat root := by
    refine ⟨fun ⟨_, h⟩ => (inFormat_of_ofRoot h).1, fun ⟨es, hes, hdeclared⟩ => ?_⟩
    obtain ⟨ts, hts⟩ := exists_forall₂ fun e he => (hdeclared e he).ofElement_succeeds file
    exact ⟨ts, ofRoot_eq_ok.mpr ⟨es, hes, hts⟩⟩
  refine ⟨hiff, fun _ h => (inFormat_of_ofRoot h).2, fun hnot => ?_, fun text htext => by rw [load, htext]⟩
  cases h : ofRoot file root with
  | error fault => exact ⟨fault, rfl⟩
  | ok ts => exact absurd (hiff.mp ⟨ts, h⟩) hnot

end

/-! ### Two notices

The second one is spoiled by half a formula in an attribute, deep in its body, and takes the first one with it. -/

def noticesFile : String :=
  "<templates><!-- notices --><template name=' hello '><param name='to' type='text'/>" ++
    "<content>Hello {{ to }}</content></template>" ++
    "<template name='bye'><content><p><a class='{{1}}'/></p></content></template></templates>"

/-- A root with two notices, and this marker in the second one. -/
def noticesRoot (marker : String) : Element :=
  ⟨{ name := "templates" }, [.comment " notices ",
    .element { name := "template", attributes := [("name", " hello ")] } [
      .element { name := "param", attributes := [("name", "to"), ("type", "text")] } [],
      .element { name := "content" } [.text "Hello {{ to }}"]],
    .element { name := "template", attributes := [("name", "bye")] } [.element { name := "content" } [
      .element { name := "p" } [.element { name := "a", attributes := [("class", marker)] } []]]]]⟩

def notices : List Template := [
  { name := "hello", params := [.text "to" true .generic],
    content := ⟨{ name := "content" }, [.text "Hello {{ to }}"]⟩, formulas := [("to", .var ["to"])] },
  { name := "bye", params := [], content := ⟨{ name := "content" }, [
      .element { name := "p" } [.element { name := "a", attributes := [("class", "{{1}}")] } []]]⟩,
    formulas := [("1", .constant "1")] }]

theorem notices_all_or_nothing :
    (load "notices.xml" noticesFile = .ok notices ∧ InFormat (noticesRoot "{{1}}") ∧
      ∃ es, Declarations (noticesRoot "{{1}}") es ∧ List.Forall₂ Describes es notices) ∧
    ¬InFormat (noticesRoot "{{1 +}}") ∧ ∃ fault, ofRoot "notices.xml" (noticesRoot "{{1 +}}") = .error fault := by
  have hread : Element.read? noticesFile = some (noticesRoot "{{1}}") := by decide +kernel
  have hnotices : ofRoot "notices.xml" (noticesRoot "{{1}}") = .ok notices := eq_ok_of_toOption (by decide +kernel)
  have hspoiled : (ofRoot "notices.xml" (noticesRoot "{{1 +}}")).toOption = none := by decide +kernel
  obtain ⟨hiff, hdescribes, -, hload⟩ := load_all_or_nothing "notices.xml" (noticesRoot "{{1}}")
  obtain ⟨hiff', -, hrefused, -⟩ := load_all_or_nothing "notices.xml" (noticesRoot "{{1 +}}")
  have hnot : ¬InFormat (noticesRoot "{{1 +}}") := fun h => by
    obtain ⟨ts, hts⟩ := hiff'.mpr h
    exact Option.some_ne_none ts ((congrArg Except.toOption hts).symm.trans hspoiled)
  exact ⟨⟨(hload _ hread).trans hnotices, hiff.mp ⟨_, hnotices⟩, hdescribes _ hnotices⟩, hnot, hrefused hnot⟩

end Template
end Letterpress
