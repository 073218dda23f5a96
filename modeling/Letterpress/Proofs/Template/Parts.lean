import Letterpress.Proofs.Markup.Tree
import Letterpress.Proofs.Param.WellFormed
import Letterpress.Proofs.Text.Blank
import Letterpress.Template.Loading

/-! What the elements of a file are read into. Reading a template comes to an end exactly if there is nothing in its
    element but declarations of parameters under distinct names and one body, and a file exactly if each of
    its elements is read into a template. -/

namespace Letterpress
open Markup (Node Element)

namespace Template

/-! ### The parts of a template -/

/-- The elements of this name among the nodes. -/
def elementsNamed (name : String) (nodes : List Node) : List Element :=
  (nodes.filterMap Node.element?).filter (·.name = name)

section
variable {name : String} {parts out : Parts} {e : Element} {nodes : List Node}

theorem readParts_param (he : e.name = "param") : readParts name parts (e.toNode :: nodes) = .ok out ↔
    ∃ param, Param.ofElement e = .ok param ∧ ¬parts.params.any (·.name == param.name) = true ∧
      readParts name { parts with params := parts.params ++ [param] } nodes = .ok out := by
  simp only [readParts, Element.element?_toNode, if_pos he, bind_eq_ok]
  refine exists_congr fun param => and_congr_right fun _ => ?_
  split
  · rename_i hused
    exact iff_of_false (fun h => by cases h) fun h => h.1 hused
  · rename_i hnew
    exact (and_iff_right hnew).symm

theorem readParts_content (he : e.name = "content") : readParts name parts (e.toNode :: nodes) = .ok out ↔
    parts.content = none ∧ readParts name { parts with content := some e } nodes = .ok out := by
  have hparam : e.name ≠ "param" := fun h => absurd (he.symm.trans h) (by decide)
  simp only [readParts, Element.element?_toNode, if_neg hparam, if_pos he]
  split
  · rename_i hsome
    refine iff_of_false (fun h => by cases h) fun h => ?_
    rw [h.1] at hsome
    cases hsome
  · rename_i hnone
    exact (and_iff_right (by simpa using hnone)).symm

theorem readParts_other (node : Node) (h : ∀ e, node.element? = some e → e.name ≠ "param" ∧ e.name ≠ "content") :
    readParts name parts (node :: nodes) ≠ .ok out := by
  unfold readParts
  split
  · exact nofun
  · rename_i e he
    obtain ⟨hparam, hcontent⟩ := h e he
    rw [if_neg hparam, if_neg hcontent]
    exact nofun

theorem elementsNamed_cons_of_eq (he : e.name = name) :
    elementsNamed name (e.toNode :: nodes) = e :: elementsNamed name nodes :=
  List.filter_cons_of_pos (decide_eq_true he)

theorem elementsNamed_cons_of_ne (he : e.name ≠ name) :
    elementsNamed name (e.toNode :: nodes) = elementsNamed name nodes :=
  List.filter_cons_of_neg (decide_eq_true_iff.not.mpr he)

/-- The node is an element that a template can hold. -/
def IsPart (node : Node) : Prop :=
  ∃ part : Element, node = part.toNode ∧ (part.name = "param" ∨ part.name = "content")

/-- The parameters that these elements declare, in their order. -/
def Declared : List Element → List Param → Prop :=
  List.Forall₂ fun e param => Param.ofElement e = .ok param

theorem mem_of_elementsNamed (h : e ∈ elementsNamed name nodes) : e.toNode ∈ nodes := by
  obtain ⟨node, hmem, hnode⟩ := List.mem_filterMap.mp (List.mem_filter.mp h).1
  exact Node.element?_eq_some.mp hnode ▸ hmem

theorem Parts.eq_of_toList (hparams : out.params = parts.params)
    (hcontent : out.content.toList = parts.content.toList) : out = parts := by
  have hsame : out.content = parts.content := Option.ext fun e => by rw [← Option.mem_toList, hcontent, Option.mem_toList]
  obtain ⟨params, content⟩ := parts
  obtain ⟨params', content'⟩ := out
  cases hparams
  cases hsame
  rfl

/-- Reading goes on to the end exactly if there is nothing but parts, with new names and one body at most. The
    names read so far are distinct, and stay so. -/
theorem readParts_eq_ok (hd : (parts.params.map Param.name).Nodup) : readParts name parts nodes = .ok out ↔
    (∀ node ∈ nodes, IsPart node) ∧
    (∃ params, Declared (elementsNamed "param" nodes) params ∧ out.params = parts.params ++ params) ∧
    (out.params.map Param.name).Nodup ∧
    out.content.toList = parts.content.toList ++ elementsNamed "content" nodes := by
  induction nodes generalizing parts with
  | nil =>
    constructor
    · rintro ⟨⟩
      exact ⟨List.forall_mem_nil _, ⟨[], .nil, (List.append_nil _).symm⟩, hd, (List.append_nil _).symm⟩
    · rintro ⟨-, ⟨params, ⟨⟩, hparams⟩, -, hcontent⟩
      exact congrArg _ (Parts.eq_of_toList (hparams.trans (List.append_nil _)) (hcontent.trans (List.append_nil _))).symm
  | cons node nodes ih =>
    rw [List.forall_mem_cons]
    by_cases hpart : IsPart node
    · rw [and_iff_right hpart]
      obtain ⟨e, rfl, he | he⟩ := hpart
      · have hother : e.name ≠ "content" := fun h => absurd (he.symm.trans h) (by decide)
        rw [readParts_param he, elementsNamed_cons_of_eq he, elementsNamed_cons_of_ne hother]
        constructor
        · rintro ⟨param, hparam, hnew, h⟩
          obtain ⟨hparts, ⟨params, hdeclared, hparams⟩, hdistinct, hcontent⟩ := (ih (Param.distinct_concat hd hnew)).mp h
          refine ⟨hparts, ⟨param :: params, .cons hparam hdeclared, ?_⟩, hdistinct, hcontent⟩
          rw [hparams, List.append_assoc, List.singleton_append]
        · rintro ⟨hparts, ⟨params, hdeclared, hparams⟩, hdistinct, hcontent⟩
          obtain ⟨param, rest, hparam, hrest, rfl⟩ := List.forall₂_cons_left_iff.mp hdeclared
          have hnew := Param.new_of_distinct (hparams ▸ hdistinct)
          refine ⟨param, hparam, hnew,
            (ih (Param.distinct_concat hd hnew)).mpr ⟨hparts, ⟨rest, hrest, ?_⟩, hdistinct, hcontent⟩⟩
          rw [hparams, List.append_assoc, List.singleton_append]
      · have hother : e.name ≠ "param" := fun h => absurd (he.symm.trans h) (by decide)
        rw [readParts_content he, elementsNamed_cons_of_eq he, elementsNamed_cons_of_ne hother,
          @ih { parts with content := some e } hd]
        cases hcontent : parts.content with
        | none => exact and_iff_right rfl
        | some first =>
          -- The first body and this one are two, and there is room for one.
          refine iff_of_false nofun fun ⟨_, _, _, htwo⟩ => ?_
          cases hout : out.content <;> simp [hout] at htwo
    · refine iff_of_false (readParts_other node fun e he => not_or.mp fun hname => hpart ?_) fun h => hpart h.1.1
      exact ⟨e, Node.element?_eq_some.mp he, hname⟩

theorem readParts_empty_eq_ok : readParts name {} nodes = .ok out ↔
    (∀ node ∈ nodes, IsPart node) ∧ Declared (elementsNamed "param" nodes) out.params ∧
    (out.params.map Param.name).Nodup ∧ elementsNamed "content" nodes = out.content.toList := by
  rw [@readParts_eq_ok name {} out nodes List.nodup_nil]
  simp only [List.nil_append, Option.toList_none, exists_eq_right', @eq_comm _ out.content.toList]

end

/-! ### A template -/

section
variable {file : String} {root e : Element} {t : Template} {ts : List Template}

/-- A template is read exactly if its element has a name, holds nothing but parts, declares parameters under distinct
    names and has one body, in which all formulas can be read. -/
theorem ofElement_eq_ok : ofElement file e = .ok t ↔
    (∃ written, e.attribute? "name" = some written ∧ Text.allBlank written = false ∧ t.name = Text.trim written) ∧
    (∀ node ∈ e.significant, IsPart node) ∧ Declared (elementsNamed "param" e.significant) t.params ∧
    (t.params.map Param.name).Nodup ∧ elementsNamed "content" e.significant = [t.content] ∧
    readFormulas [] ((textsOfElement t.content).flatMap formulaTexts) = .ok t.formulas := by
  constructor
  · intro h
    unfold ofElement at h
    dsimp only at h
    split at h
    · cases h
    · rename_i hne
      obtain ⟨parts, hparts, h⟩ := bind_eq_ok.mp h
      split at h
      · rename_i content hcontent
        obtain ⟨formulas, hformulas, h⟩ := bind_eq_ok.mp h
        cases h
        obtain ⟨hnodes, hdeclared, hdistinct, hbody⟩ := readParts_empty_eq_ok.mp hparts
        rw [hcontent] at hbody
        refine ⟨?_, hnodes, hdeclared, hdistinct, hbody, hformulas⟩
        cases hwritten : e.attribute? "name" with
        | none => exact absurd (by rw [hwritten]; rfl) hne
        | some written =>
          rw [hwritten, Option.getD_some, Text.trim_eq_empty, Bool.not_eq_true] at hne
          exact ⟨written, rfl, hne, rfl⟩
      · cases h
  · rintro ⟨⟨written, hwritten, hblank, hname⟩, hnodes, hdeclared, hdistinct, hbody, hformulas⟩
    have hne : Text.trim written ≠ "" := by rw [ne_eq, Text.trim_eq_empty, hblank]; exact Bool.false_ne_true
    -- The parts that are described are those that reading comes to.
    have hparts : readParts (Text.trim written) {} e.significant = .ok ⟨t.params, some t.content⟩ :=
      readParts_empty_eq_ok.mpr ⟨hnodes, hdeclared, hdistinct, hbody⟩
    unfold ofElement
    dsimp only
    rw [hwritten, Option.getD_some, if_neg hne]
    refine bind_eq_ok.mpr ⟨_, hparts, bind_eq_ok.mpr ⟨t.formulas, hformulas, ?_⟩⟩
    rw [← hname]
    rfl

/-! ### A file -/

/-- The elements of a file that are to declare templates: its root, or all that is in a root of several. -/
inductive Declarations : Element → List Element → Prop
  | one {root : Element} (h : root.name = "template") : Declarations root [root]
  | several {root : Element} {es : List Element} (h : root.name = "templates")
      (inside : root.significant = es.map Element.toNode) (named : ∀ e ∈ es, e.name = "template") : Declarations root es

theorem ofNodes_cons_eq_ok {node : Node} {nodes : List Node} : ofNodes file (node :: nodes) = .ok ts ↔
    ∃ e t rest, node = e.toNode ∧ e.name = "template" ∧ ofElement file e = .ok t ∧ ofNodes file nodes = .ok rest ∧
      ts = t :: rest := by
  rw [ofNodes]
  cases hnode : node.element? with
  | none =>
    refine iff_of_false nofun ?_
    rintro ⟨e, _, _, rfl, _⟩
    cases hnode
  | some e =>
    cases Node.element?_eq_some.mp hnode
    dsimp only
    constructor
    · intro h
      split at h
      · rename_i hname
        obtain ⟨t, rest, ht, hrest, rfl⟩ := bind_both_eq_ok.mp h
        exact ⟨e, t, rest, rfl, hname, ht, hrest, rfl⟩
      · cases h
    · rintro ⟨e', t, rest, he', hname, ht, hrest, rfl⟩
      cases Element.toNode_injective he'
      rw [if_pos hname]
      exact bind_both_eq_ok.mpr ⟨t, rest, ht, hrest, rfl⟩

theorem ofNodes_eq_ok {nodes : List Node} : ofNodes file nodes = .ok ts ↔ ∃ es : List Element,
    nodes = es.map Element.toNode ∧ (∀ e ∈ es, e.name = "template") ∧
      List.Forall₂ (fun e t => ofElement file e = .ok t) es ts := by
  induction nodes generalizing ts with
  | nil =>
    constructor
    · rintro ⟨⟩
      exact ⟨[], rfl, List.forall_mem_nil _, .nil⟩
    · rintro ⟨es, hes, -, h⟩
      cases List.map_eq_nil_iff.mp hes.symm
      cases h
      rfl
  | cons node nodes ih =>
    rw [ofNodes_cons_eq_ok]
    constructor
    · rintro ⟨e, t, rest, rfl, he, ht, hrest, rfl⟩
      obtain ⟨es, rfl, hnamed, h⟩ := ih.mp hrest
      exact ⟨e :: es, rfl, List.forall_mem_cons.mpr ⟨he, hnamed⟩, .cons ht h⟩
    · rintro ⟨es, hes, hnamed, h⟩
      cases h with
      | nil => cases hes
      | @cons e t es rest ht h =>
        obtain ⟨he, hnamed⟩ := List.forall_mem_cons.mp hnamed
        obtain ⟨rfl, hnodes⟩ := List.cons.inj hes
        exact ⟨e, t, rest, rfl, he, ht, ih.mpr ⟨es, hnodes, hnamed, h⟩, rfl⟩

theorem ofRoot_eq_ok : ofRoot file root = .ok ts ↔
    ∃ es, Declarations root es ∧ List.Forall₂ (fun e t => ofElement file e = .ok t) es ts := by
  constructor
  · intro h
    unfold ofRoot at h
    split at h
    · rename_i hroot
      cases ht : ofElement file root with
      | error fault => rw [ht] at h; cases h
      | ok t =>
        rw [ht] at h
        cases h
        exact ⟨[root], .one hroot, .cons ht .nil⟩
    · split at h
      · rename_i hroot
        obtain ⟨es, hinside, hnamed, h⟩ := ofNodes_eq_ok.mp h
        exact ⟨es, .several hroot hinside hnamed, h⟩
      · cases h
  · rintro ⟨es, hes, h⟩
    cases hes with
    | one hroot =>
      obtain ⟨t, rest, ht, hrest, rfl⟩ := List.forall₂_cons_left_iff.mp h
      cases hrest
      rw [ofRoot, if_pos hroot, ht]
      rfl
    | several hroot hinside hnamed =>
      have hne : root.name ≠ "template" := fun h => absurd (hroot.symm.trans h) (by decide)
      rw [ofRoot, if_neg hne, if_pos hroot]
      exact ofNodes_eq_ok.mpr ⟨es, hinside, hnamed, h⟩

end

end Template
end Letterpress
