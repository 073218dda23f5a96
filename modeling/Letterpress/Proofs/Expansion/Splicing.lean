import Letterpress.Proofs.Expansion.Basic

/-! Markers in a text and in an attribute value. An attribute value is put together from what its pieces come to,
    while a text falls into nodes around the markup that its variables stand for. Both come to the same: they fail
    alike, and the nodes are written as what the attribute value holds, escaped wherever it is not
    markup already. -/

namespace Letterpress

theorem Markup.escapeText_append (a b : String) : escapeText (a ++ b) = escapeText a ++ escapeText b := by
  simp [escapeText]

namespace Expansion
open Markup (Node Element Head escapeText escapeText_append)

variable {t : Template} {scope : Scope}

/-! ### Markup for a marker -/

/-- The formula is a single variable that is bound to markup. -/
def StandsForMarkup (t : Template) (scope : Scope) (formula : String) : Prop :=
  ∃ path e, formula? t formula = some (.var path) ∧ scope.lookup? path = some (.markup e)

theorem standsForMarkup_iff {formula : String} :
    StandsForMarkup t scope formula ↔ ∃ nodes, fragment? t scope formula = some nodes := by
  simp only [StandsForMarkup, fragment?_eq_some]
  constructor
  · rintro ⟨path, e, hf, hl⟩
    exact ⟨_, path, e, hf, hl, rfl⟩
  · rintro ⟨_, path, e, hf, hl, -⟩
    exact ⟨path, e, hf, hl⟩

theorem fragment?_eq_none {formula : String} : fragment? t scope formula = none ↔ ¬StandsForMarkup t scope formula := by
  rw [standsForMarkup_iff, ← Option.isSome_iff_exists, Option.not_isSome_iff_eq_none]

/-- The nodes one after the other, as they are written inside an element. -/
def written (nodes : List Node) : String :=
  String.join (nodes.map (·.writeTop .compact))

theorem written_append (a b : List Node) : written (a ++ b) = written a ++ written b := by
  rw [written, List.map_append, String.join_append, written, written]

theorem written_textNodes (text : String) : written (textNodes text) = escapeText text := by
  unfold textNodes
  split
  · rename_i h
    rw [h]
    rfl
  · exact String.empty_append

/-- In an attribute value, markup is written out. -/
theorem evaluate_of_fragment {formula : String} {nodes : List Node} (h : fragment? t scope formula = some nodes) :
    evaluate t scope formula = .ok (.resolved (written nodes)) := by
  obtain ⟨path, e, hf, hl, rfl⟩ := fragment?_eq_some.mp h
  refine evaluate_eq_resolved.mpr ⟨_, hf, ?_⟩
  simp only [Formula.eval, hl, Value.render]
  rfl

/-! ### Errors -/

theorem spliceSegments_eq_error {segments : List Segment} {pending : String} {fault : Error} :
    spliceSegments t scope pending segments = .error fault ↔ joinSegments t scope segments = .error fault := by
  induction segments generalizing pending with
  | nil => simp [spliceSegments, joinSegments]
  | cons segment segments ih =>
    cases segment with
    | literal text => simp [spliceSegments_literal, joinSegments, ih, bind_eq_error, pure, Except.pure]
    | marker raw formula =>
      cases hf : fragment? t scope formula with
      | some nodes =>
        simp [spliceSegments, joinSegments, hf, evaluate_of_fragment hf, ih, bind_eq_error, pure, Except.pure]
      | none => simp [spliceSegments, joinSegments, hf, ih, bind_eq_error, pure, Except.pure]

/-- Nothing is left of a text only if it has markers. -/
theorem markers_ne_nil {text : String} (h : text ≠ "") (hv : attributeValue t scope text = .ok "") :
    Segment.markers text ≠ [] := by
  intro hm
  rw [attributeValue_of_no_marker hm] at hv
  cases hv
  exact h rfl

/-! ### What the nodes are written as -/

/-- How a piece of a text is written once its marker has been replaced. Markup is written as it stands in an
    attribute value, and everything else is escaped. -/
inductive Written (t : Template) (scope : Scope) : Segment → String → Prop
  | literal (text : String) : Written t scope (.literal text) (escapeText text)
  | unresolved {raw formula : String} (h : evaluate t scope formula = .ok .deferred) :
      Written t scope (.marker raw formula) (escapeText raw)
  | resolved {raw formula text : String} (hm : ¬StandsForMarkup t scope formula)
      (h : evaluate t scope formula = .ok (.resolved text)) : Written t scope (.marker raw formula) (escapeText text)
  | markup {raw formula text : String} (hm : StandsForMarkup t scope formula)
      (h : joinSegments t scope [.marker raw formula] = .ok text) : Written t scope (.marker raw formula) text

theorem Written.of_evaluate {raw formula : String} {outcome : Outcome} (hm : ¬StandsForMarkup t scope formula)
    (h : evaluate t scope formula = .ok outcome) :
    Written t scope (.marker raw formula) (escapeText (outcome.textOr raw)) := by
  cases outcome with
  | deferred => exact .unresolved h
  | resolved text => exact .resolved hm h

theorem Written.of_fragment {raw formula : String} {nodes : List Node} (h : fragment? t scope formula = some nodes) :
    Written t scope (.marker raw formula) (written nodes) := by
  refine .markup (standsForMarkup_iff.mpr ⟨nodes, h⟩) (joinSegments_marker_eq_ok.mpr ?_)
  exact ⟨_, "", evaluate_of_fragment h, rfl, (String.append_empty).symm⟩

/-- The text that is still pending is written first, however it is cut off from what follows. -/
theorem written_spliceSegments {segments : List Segment} {pending : String} {nodes : List Node}
    (h : spliceSegments t scope pending segments = .ok nodes) :
    ∃ pieces, List.Forall₂ (Written t scope) segments pieces ∧
      written nodes = escapeText pending ++ String.join pieces := by
  induction segments generalizing pending nodes with
  | nil =>
    cases h
    exact ⟨[], .nil, by simp [written_textNodes]⟩
  | cons segment segments ih =>
    cases segment with
    | literal text =>
      obtain ⟨pieces, hpieces, hw⟩ := ih h
      exact ⟨_ :: pieces, .cons (.literal text) hpieces, by simp [hw, escapeText_append, String.append_assoc]⟩
    | marker raw formula =>
      cases hf : fragment? t scope formula with
      | some markup =>
        obtain ⟨rest, hr, rfl⟩ := (spliceSegments_fragment_eq_ok hf).mp h
        obtain ⟨pieces, hpieces, hw⟩ := ih hr
        have hempty : escapeText "" = "" := rfl
        refine ⟨_ :: pieces, .cons (.of_fragment hf) hpieces, ?_⟩
        simp [written_append, written_textNodes, hw, hempty]
      | none =>
        obtain ⟨outcome, ho, hr⟩ := (spliceSegments_text_eq_ok hf).mp h
        obtain ⟨pieces, hpieces, hw⟩ := ih hr
        exact ⟨_ :: pieces, .cons (.of_evaluate (fragment?_eq_none.mp hf) ho) hpieces,
          by simp [hw, escapeText_append, String.append_assoc]⟩

/-! ### Texts and attribute values -/

/-- A text fails where an attribute value does. Without markup for one of its markers it comes to one node with the
    attribute value, or to none if nothing is left of its markers; and its nodes are always written
    as its pieces are, one by one. -/
theorem splice_agrees (t : Template) (scope : Scope) (text : String) :
    (∀ fault, splice t scope text = .error fault ↔ attributeValue t scope text = .error fault) ∧
    ((∀ raw formula, .marker raw formula ∈ Segment.split text → ¬StandsForMarkup t scope formula) →
      ∀ value, attributeValue t scope text = .ok value →
        splice t scope text = .ok (if value = "" ∧ Segment.markers text ≠ [] then [] else [.text value])) ∧
    ∀ nodes value, splice t scope text = .ok nodes → attributeValue t scope text = .ok value →
      ∃ pieces, List.Forall₂ (Written t scope) (Segment.split text) pieces ∧
        ∀ head, Element.inner ⟨head, nodes⟩ = String.join pieces := by
  -- The empty text has no segments, but stays a node.
  by_cases hempty : text = ""
  · have hsplit : Segment.split "" = [] := Segment.splitFrom_nil []
    have hmarkers : Segment.markers "" = [] := by rw [Segment.markers, hsplit, List.filterMap_nil]
    have hsplice : splice t scope "" = .ok [.text ""] := by simp [splice, hmarkers]
    have hvalue : attributeValue t scope "" = .ok "" := by rw [attributeValue, hsplit, joinSegments]
    rw [hempty, hsplit, hsplice, hvalue]
    refine ⟨fun _ => by simp only [reduceCtorEq], ?_, ?_⟩
    · rintro - value ⟨⟩
      simp [hmarkers]
    · rintro nodes value ⟨⟩ ⟨⟩
      exact ⟨[], .nil, fun _ => rfl⟩
  · rw [splice_of_ne_empty hempty]
    refine ⟨fun fault => spliceSegments_eq_error, fun hm value hv => ?_, fun nodes value hn _ => ?_⟩
    · have hnone := fun raw formula hmem => fragment?_eq_none.mpr (hm raw formula hmem)
      rw [spliceSegments_of_no_fragment hnone hv, String.empty_append, textNodes]
      by_cases hvalue : value = ""
      · rw [if_pos hvalue, if_pos ⟨hvalue, markers_ne_nil hempty (hvalue ▸ hv)⟩]
      · rw [if_neg hvalue, if_neg fun h => hvalue h.1]
    · obtain ⟨pieces, hpieces, hw⟩ := written_spliceSegments hn
      exact ⟨pieces, hpieces, fun _ => hw.trans String.empty_append⟩

/-! ### A title page -/

def titlePage : Template where
  name := "title-page"
  params := [.markup "title" true, .text "author" true .generic]
  content := ⟨{ name := "content" }, []⟩
  formulas := []

def titleScope : Scope :=
  Scope.ofParams [("title", .markup ⟨{ name := "title" }, [.element { name := "em" } [.text "R&D"], .text " now"]⟩),
    ("author", .text "A & B")]

theorem title_beside_author :
    splice titlePage titleScope "by {{author}}, {{year}}" = .ok [.text "by A & B, {{year}}"] ∧
    ∃ nodes pieces, splice titlePage titleScope "<{{title}}> {{author}}" = .ok nodes ∧
      List.Forall₂ (Written titlePage titleScope) (Segment.split "<{{title}}> {{author}}") pieces ∧
      String.join pieces = "&lt;<em>R&amp;D</em> now&gt; A &amp; B" := by
  obtain ⟨-, hplain, -⟩ := splice_agrees titlePage titleScope "by {{author}}, {{year}}"
  obtain ⟨-, -, hwritten⟩ := splice_agrees titlePage titleScope "<{{title}}> {{author}}"
  constructor
  · have hsplit : Segment.split "by {{author}}, {{year}}" =
        [.literal "by ", .marker "{{author}}" "author", .literal ", ", .marker "{{year}}" "year"] := by decide +kernel
    have hnone : ∀ formula ∈ ["author", "year"], fragment? titlePage titleScope formula = none := by decide +kernel
    have hvalue : attributeValue titlePage titleScope "by {{author}}, {{year}}" = .ok "by A & B, {{year}}" :=
      eq_ok_of_toOption (by decide +kernel)
    refine hplain (fun raw formula hm => fragment?_eq_none.mp (hnone formula ?_)) _ hvalue
    rw [hsplit] at hm
    simp only [List.mem_cons, Segment.marker.injEq, reduceCtorEq, List.not_mem_nil] at hm
    grind
  · have hnodes : splice titlePage titleScope "<{{title}}> {{author}}" =
        .ok [.text "<", .element { name := "em" } [.text "R&D"], .text " now", .text "> A & B"] :=
      eq_ok_of_toOption (by decide +kernel)
    have hvalue : attributeValue titlePage titleScope "<{{title}}> {{author}}" = .ok "<<em>R&amp;D</em> now> A & B" :=
      eq_ok_of_toOption (by decide +kernel)
    obtain ⟨pieces, hpieces, hinner⟩ := hwritten _ _ hnodes hvalue
    exact ⟨_, pieces, hnodes, hpieces, (hinner titlePage.content.head).symm.trans (by decide +kernel)⟩

end Expansion
end Letterpress
