import Letterpress.Proofs.Expansion.Plain
import Letterpress.Proofs.Table

/-! Replacing markers in two scopes one after the other, where the second scope only adds names to the
    first. What the first pass resolves the second one would have resolved alike, and what the first one
    leaves the second one finds again, so the second pass makes the first one superfluous. -/

namespace Letterpress
open Markup (Node Element Head)
open Text (Unbraced)

/-- Every name of the first scope stands for the same value in the second one. -/
def Scope.Extends (s s' : Scope) : Prop :=
  ∀ name value, s.get? name = some value → s'.get? name = some value

theorem Scope.Extends.lookup? {s s' : Scope} (h : s.Extends s') {path : List String} {value : Value}
    (hl : s.lookup? path = some value) : s'.lookup? path = some value := by
  cases path with
  | nil => cases hl
  | cons name fields =>
    obtain ⟨found, hf, hd⟩ := Option.bind_eq_some_iff.mp hl
    exact Option.bind_eq_some_iff.mpr ⟨found, h name found hf, hd⟩

theorem Formula.eval_of_extends {s s' : Scope} (hx : s.Extends s') {formula : Formula} {text : String}
    (h : formula.eval s = .ok (.resolved text)) : formula.eval s' = .ok (.resolved text) := by
  induction formula generalizing text with
  | var path =>
    unfold Formula.eval at h ⊢
    split at h
    · cases h
    · rename_i value hl
      rw [hx.lookup? hl]
      exact h
  | constant content => exact h
  | binary op left right ihl ihr =>
    obtain ⟨a, ha, h⟩ := bind_eq_ok.mp h
    obtain ⟨b, hb, h⟩ := bind_eq_ok.mp h
    obtain ⟨x, y, -, -, rfl, rfl, -⟩ := Formula.combine_eq_resolved.mp h
    exact bind_eq_ok.mpr ⟨_, ihl ha, bind_eq_ok.mpr ⟨_, ihr hb, h⟩⟩

namespace Expansion

variable {t : Template} {s s' scope : Scope}

/-! ### Markers -/

theorem evaluate_of_extends (hx : s.Extends s') {formula text : String}
    (h : evaluate t s formula = .ok (.resolved text)) : evaluate t s' formula = .ok (.resolved text) := by
  obtain ⟨found, hf, he⟩ := evaluate_eq_resolved.mp h
  exact evaluate_eq_resolved.mpr ⟨found, hf, Formula.eval_of_extends hx he⟩

theorem fragment?_of_extends (hx : s.Extends s') {formula : String} {nodes : List Node}
    (h : fragment? t s formula = some nodes) : fragment? t s' formula = some nodes := by
  obtain ⟨path, e, hf, hl, hc⟩ := fragment?_eq_some.mp h
  exact fragment?_eq_some.mpr ⟨path, e, hf, hx.lookup? hl, hc⟩

/-- A marker that is resolved to text in the first scope stands for no markup in the second one. -/
theorem fragment?_eq_none_of_extends (hx : s.Extends s') {formula text : String}
    (hn : fragment? t s formula = none) (he : evaluate t s formula = .ok (.resolved text)) :
    fragment? t s' formula = none := by
  cases hf' : fragment? t s' formula with
  | none => rfl
  | some nodes =>
    obtain ⟨path, e, hf, hl', -⟩ := fragment?_eq_some.mp hf'
    rw [evaluate_eq_ok hf, Formula.eval] at he
    cases hl : s.lookup? path with
    | none =>
      rw [hl] at he
      cases he
    | some value =>
      -- The variable is bound in the first scope already, so to the same markup.
      have hv := hx.lookup? hl
      rw [hl'] at hv
      cases hv
      rw [fragment?_eq_some.mpr ⟨path, e, hf, hl, rfl⟩] at hn
      cases hn

/-! ### Pieces -/

/-- What a pass leaves of a piece: a marker stays if it is deferred, and is text if it is resolved. -/
inductive Leaves (t : Template) (s : Scope) : Segment → Segment → Prop
  | literal (text : String) : Leaves t s (.literal text) (.literal text)
  | resolved {raw formula text : String} (h : evaluate t s formula = .ok (.resolved text)) :
      Leaves t s (.marker raw formula) (.literal text)
  | deferred {raw formula : String} (h : evaluate t s formula = .ok .deferred) :
      Leaves t s (.marker raw formula) (.marker raw formula)

theorem Leaves.of_evaluate {raw formula : String} {outcome : Outcome} (h : evaluate t s formula = .ok outcome) :
    ∃ piece, Leaves t s (.marker raw formula) piece ∧ piece.source = outcome.textOr raw := by
  cases outcome with
  | resolved text => exact ⟨_, .resolved h, rfl⟩
  | deferred => exact ⟨_, .deferred h, rfl⟩

theorem Leaves.clean (ht : t.Loaded) (hs : s.Plain) {segment piece : Segment} (h : Leaves t s segment piece)
    (hc : segment.Clean) : piece.Clean := by
  cases h with
  | resolved h => exact unbraced_of_evaluate ht hs h
  | literal | deferred => exact hc

theorem Leaves.of_marker {segment : Segment} {raw formula : String} (h : Leaves t s segment (.marker raw formula)) :
    segment = .marker raw formula ∧ evaluate t s formula = .ok .deferred := by
  cases h with
  | deferred h => exact ⟨rfl, h⟩

/-! ### Attributes -/

theorem joinSegments_ofLiteral (cs : List Char) : joinSegments t scope (Segment.ofLiteral cs) = .ok (String.ofList cs) := by
  cases cs with
  | nil => rfl
  | cons c cs =>
    exact joinSegments_literal_eq_ok.mpr ⟨"", rfl, by simp⟩

/-- The borders of literal pieces do not count. -/
theorem joinSegments_merge {seen : List Char} {segments : List Segment} {out : String} :
    joinSegments t scope (Segment.merge seen segments) = .ok out ↔
      ∃ rest, joinSegments t scope segments = .ok rest ∧ out = String.ofList seen.reverse ++ rest := by
  -- `seen` is the literal text that the merge holds back until a marker comes.
  induction segments generalizing seen out with
  | nil => simp [Segment.merge, joinSegments_ofLiteral, joinSegments, eq_comm]
  | cons segment segments ih =>
    cases segment with
    | literal text =>
      simp only [Segment.merge, ih, joinSegments_literal_eq_ok]
      constructor
      · rintro ⟨rest, hr, rfl⟩
        exact ⟨_, ⟨rest, hr, rfl⟩, by simp [← String.append_assoc]⟩
      · rintro ⟨-, ⟨rest, hr, rfl⟩, rfl⟩
        exact ⟨rest, hr, by simp [← String.append_assoc]⟩
    | marker raw formula =>
      simp only [Segment.merge, joinSegments_append_eq_ok, joinSegments_ofLiteral, joinSegments_marker_eq_ok, ih,
        Except.ok.injEq]
      constructor
      · rintro ⟨-, -, rfl, ⟨outcome, -, ho, ⟨rest, hr, rfl⟩, rfl⟩, rfl⟩
        exact ⟨_, ⟨outcome, rest, ho, hr, rfl⟩, by simp⟩
      · rintro ⟨-, ⟨outcome, rest, ho, hr, rfl⟩, rfl⟩
        exact ⟨_, _, rfl, ⟨outcome, _, ho, ⟨rest, hr, rfl⟩, rfl⟩, by simp⟩

theorem attributeValue_join {segments : List Segment} (hc : ∀ segment ∈ segments, segment.Clean) {out : String} :
    attributeValue t scope (Segment.join segments) = .ok out ↔ joinSegments t scope segments = .ok out := by
  unfold attributeValue
  rw [Segment.split_join hc, joinSegments_merge]
  simp

/-- A pass puts together what it leaves of each piece. -/
theorem leaves_of_joinSegments {segments : List Segment} {middle : String} (h : joinSegments t s segments = .ok middle) :
    ∃ residue, List.Forall₂ (Leaves t s) segments residue ∧ Segment.join residue = middle := by
  induction segments generalizing middle with
  | nil =>
    cases h
    exact ⟨[], .nil, rfl⟩
  | cons segment segments ih =>
    cases segment with
    | literal text =>
      obtain ⟨rest, hr, rfl⟩ := joinSegments_literal_eq_ok.mp h
      obtain ⟨residue, hres, rfl⟩ := ih hr
      exact ⟨.literal text :: residue, .cons (.literal text) hres, rfl⟩
    | marker raw formula =>
      obtain ⟨outcome, rest, he, hr, rfl⟩ := joinSegments_marker_eq_ok.mp h
      obtain ⟨residue, hres, rfl⟩ := ih hr
      obtain ⟨piece, hpiece, hsource⟩ := @Leaves.of_evaluate t s raw formula outcome he
      exact ⟨piece :: residue, .cons hpiece hres, by rw [Segment.join, hsource]⟩

theorem clean_of_leaves (ht : t.Loaded) (hs : s.Plain) {segments residue : List Segment}
    (h : List.Forall₂ (Leaves t s) segments residue) (hc : ∀ segment ∈ segments, segment.Clean) :
    ∀ piece ∈ residue, piece.Clean := fun piece hp => by
  obtain ⟨segment, hmem, hleft⟩ := exists_left_of_forall₂ h hp
  exact hleft.clean ht hs (hc segment hmem)

theorem joinSegments_of_leaves (hx : s.Extends s') {segments residue : List Segment}
    (h : List.Forall₂ (Leaves t s) segments residue) {out : String} (ho : joinSegments t s' residue = .ok out) :
    joinSegments t s' segments = .ok out := by
  induction h generalizing out with
  | nil => exact ho
  | cons hleft _ ih =>
    cases hleft with
    | literal text =>
      obtain ⟨rest, hr, rfl⟩ := joinSegments_literal_eq_ok.mp ho
      exact joinSegments_literal_eq_ok.mpr ⟨rest, ih hr, rfl⟩
    | resolved he =>
      obtain ⟨rest, hr, rfl⟩ := joinSegments_literal_eq_ok.mp ho
      exact joinSegments_marker_eq_ok.mpr ⟨_, rest, evaluate_of_extends hx he, ih hr, rfl⟩
    | deferred =>
      obtain ⟨outcome, rest, he', hr, rfl⟩ := joinSegments_marker_eq_ok.mp ho
      exact joinSegments_marker_eq_ok.mpr ⟨outcome, rest, he', ih hr, rfl⟩

theorem attributeValue_absorb (ht : t.Loaded) (hs : s.Plain) (hx : s.Extends s') {value middle out : String}
    (hv : Segment.Tidy value) (h : attributeValue t s value = .ok middle)
    (h' : attributeValue t s' middle = .ok out) : attributeValue t s' value = .ok out := by
  obtain ⟨residue, hres, rfl⟩ := leaves_of_joinSegments h
  exact joinSegments_of_leaves hx hres ((attributeValue_join (clean_of_leaves ht hs hres hv.clean)).mp h')

theorem substituteAttributes_absorb (ht : t.Loaded) (hs : s.Plain) (hx : s.Extends s')
    {attributes middle out : List (String × String)} (hv : ∀ a ∈ attributes, Segment.Tidy a.2)
    (h : substituteAttributes t s attributes = .ok middle) (h' : substituteAttributes t s' middle = .ok out) :
    substituteAttributes t s' attributes = .ok out := by
  induction attributes generalizing middle out with
  | nil =>
    cases h
    exact h'
  | cons a attributes ih =>
    obtain ⟨name, value⟩ := a
    obtain ⟨value₁, rest₁, hv₁, hr₁, rfl⟩ := substituteAttributes_cons_eq_ok.mp h
    obtain ⟨value₂, rest₂, hv₂, hr₂, rfl⟩ := substituteAttributes_cons_eq_ok.mp h'
    exact substituteAttributes_cons_eq_ok.mpr
      ⟨value₂, rest₂, attributeValue_absorb ht hs hx (hv _ List.mem_cons_self) hv₁ hv₂,
        ih (fun a ha => hv a (List.mem_cons_of_mem _ ha)) hr₁ hr₂, rfl⟩

theorem substituteHead_absorb (ht : t.Loaded) (hs : s.Plain) (hx : s.Extends s') {head middle out : Head}
    (hv : ∀ a ∈ head.attributes, Segment.Tidy a.2) (h : substituteHead t s head = .ok middle)
    (h' : substituteHead t s' middle = .ok out) : substituteHead t s' head = .ok out := by
  obtain ⟨attributes₁, h₁, rfl⟩ := substituteHead_eq_ok.mp h
  obtain ⟨attributes₂, h₂, rfl⟩ := substituteHead_eq_ok.mp h'
  exact substituteHead_eq_ok.mpr ⟨attributes₂, substituteAttributes_absorb ht hs hx hv h₁ h₂, rfl⟩

/-! ### Texts -/

theorem spliceSegments_ofLiteral {pending : String} {cs : List Char} {segments : List Segment} :
    spliceSegments t scope pending (Segment.ofLiteral cs ++ segments) =
      spliceSegments t scope (pending ++ String.ofList cs) segments := by
  cases cs with
  | nil => simp [Segment.ofLiteral]
  | cons c cs => rfl

theorem spliceSegments_marker_congr {raw formula : String} {a b : List Segment}
    (h : ∀ pending, spliceSegments t scope pending a = spliceSegments t scope pending b) (pending : String) :
    spliceSegments t scope pending (.marker raw formula :: a) =
      spliceSegments t scope pending (.marker raw formula :: b) := by
  cases hf : fragment? t scope formula with
  | some nodes => simp only [spliceSegments, hf, h]
  | none => simp only [spliceSegments, hf, h]

theorem spliceSegments_append_congr {a b : List Segment}
    (h : ∀ pending, spliceSegments t scope pending a = spliceSegments t scope pending b)
    (segments : List Segment) (pending : String) :
    spliceSegments t scope pending (segments ++ a) = spliceSegments t scope pending (segments ++ b) := by
  induction segments generalizing pending with
  | nil => exact h pending
  | cons segment segments ih =>
    cases segment with
    | literal text => exact ih (pending ++ text)
    | marker raw formula => exact spliceSegments_marker_congr ih pending

theorem spliceSegments_merge (seen : List Char) (segments : List Segment) (pending : String) :
    spliceSegments t scope pending (Segment.merge seen segments) =
      spliceSegments t scope (pending ++ String.ofList seen.reverse) segments := by
  induction segments generalizing seen pending with
  | nil =>
    have := @spliceSegments_ofLiteral t scope pending seen.reverse []
    simpa [Segment.merge] using this
  | cons segment segments ih =>
    cases segment with
    | literal text => simp [Segment.merge, ih, spliceSegments_literal, String.append_assoc]
    | marker raw formula =>
      rw [Segment.merge, spliceSegments_ofLiteral]
      exact spliceSegments_marker_congr (fun pending => by simp [ih]) _

theorem spliceSegments_append_fragment {raw formula : String} {nodes : List Node}
    (hf : fragment? t scope formula = some nodes) {segments rest : List Segment} {pending : String}
    {front back : List Node} (h : spliceSegments t scope pending segments = .ok front)
    (hr : spliceSegments t scope "" rest = .ok back) :
    spliceSegments t scope pending (segments ++ .marker raw formula :: rest) = .ok (front ++ nodes ++ back) := by
  induction segments generalizing pending front with
  | nil =>
    cases h
    exact (spliceSegments_fragment_eq_ok hf).mpr ⟨back, hr, rfl⟩
  | cons segment segments ih =>
    cases segment with
    | literal text => exact ih h
    | marker raw' formula' =>
      cases hf' : fragment? t scope formula' with
      | some nodes' =>
        obtain ⟨front', hfront, rfl⟩ := (spliceSegments_fragment_eq_ok hf').mp h
        exact (spliceSegments_fragment_eq_ok hf').mpr ⟨_, ih hfront, by simp⟩
      | none =>
        obtain ⟨outcome, ho, hfront⟩ := (spliceSegments_text_eq_ok hf').mp h
        exact (spliceSegments_text_eq_ok hf').mpr ⟨outcome, ho, ih hfront⟩

theorem substitute_textNodes_join {segments : List Segment} (hc : ∀ segment ∈ segments, segment.Clean) :
    substitute t scope (textNodes (Segment.join segments)) = spliceSegments t scope "" segments := by
  have hsplit : spliceSegments t scope "" (Segment.split (Segment.join segments)) = spliceSegments t scope "" segments := by
    rw [Segment.split_join hc, spliceSegments_merge]
    rfl
  unfold textNodes
  by_cases he : Segment.join segments = ""
  · rw [if_pos he, ← hsplit, he, Segment.split, String.toList_empty, Segment.splitFrom_nil]
    rfl
  · rw [if_neg he, ← hsplit, ← splice_of_ne_empty he]
    cases h : splice t scope (Segment.join segments) with
    | error fault => simp [substitute, substituteNode, h, bind, Except.bind]
    | ok nodes => simp [substitute, substituteNode, h, bind, Except.bind, pure, Except.pure]

/-- A pass over the pieces of a text, behind pieces whose text is pending. Markup ends the text before it, and the
    text starts anew behind it. -/
inductive Spliced (t : Template) (s : Scope) : List Segment → List Segment → List Node → Prop
  | done {front : List Segment} : Spliced t s front [] (textNodes (Segment.join front))
  | piece {front segments : List Segment} {segment piece : Segment} {nodes : List Node} (left : Leaves t s segment piece)
      (text : ∀ raw formula, segment = .marker raw formula → fragment? t s formula = none)
      (rest : Spliced t s (front ++ [piece]) segments nodes) : Spliced t s front (segment :: segments) nodes
  | markup {front segments : List Segment} {raw formula : String} {fragment nodes : List Node}
      (hf : fragment? t s formula = some fragment) (rest : Spliced t s [] segments nodes) :
      Spliced t s front (.marker raw formula :: segments) (textNodes (Segment.join front) ++ fragment ++ nodes)

theorem spliced_of_spliceSegments {front segments : List Segment} {nodes : List Node}
    (h : spliceSegments t s (Segment.join front) segments = .ok nodes) : Spliced t s front segments nodes := by
  have hjoin : ∀ front piece, Segment.join (front ++ [piece]) = Segment.join front ++ piece.source := fun front piece => by
    rw [Segment.join_append]
    simp [Segment.join]
  -- What is pending is always the text of the pieces since the last markup.
  induction segments generalizing front nodes with
  | nil =>
    cases h
    exact .done
  | cons segment segments ih =>
    cases segment with
    | literal text => exact .piece (.literal text) (fun _ _ h => by cases h) (ih (by rwa [hjoin]))
    | marker raw formula =>
      cases hf : fragment? t s formula with
      | some fragment =>
        obtain ⟨rest, hr, rfl⟩ := (spliceSegments_fragment_eq_ok hf).mp h
        exact .markup hf (@ih [] rest hr)
      | none =>
        obtain ⟨outcome, he, hr⟩ := (spliceSegments_text_eq_ok hf).mp h
        obtain ⟨piece, hpiece, hsource⟩ := @Leaves.of_evaluate t s raw formula outcome he
        refine .piece hpiece (fun raw' formula' heq => ?_) (ih (by rwa [hjoin, hsource]))
        cases heq
        exact hf

/-- In the second scope a piece and what the pass leaves of it are interchangeable. -/
theorem Leaves.spliceSegments_eq (hx : s.Extends s') {segment piece : Segment} (h : Leaves t s segment piece)
    (text : ∀ raw formula, segment = .marker raw formula → fragment? t s formula = none) (segments : List Segment)
    (pending : String) : spliceSegments t s' pending (segment :: segments) = spliceSegments t s' pending (piece :: segments) := by
  cases h with
  | literal | deferred => rfl
  | resolved he =>
    simp [spliceSegments, fragment?_eq_none_of_extends hx (text _ _ rfl) he, evaluate_of_extends hx he, Outcome.textOr,
      bind, Except.bind]

theorem Spliced.absorb (ht : t.Loaded) (hs : s.Plain) (hx : s.Extends s') {front segments : List Segment}
    {middle out : List Node} (h : Spliced t s front segments middle) (hf : ∀ segment ∈ front, segment.Clean)
    (hc : ∀ segment ∈ segments, segment.Clean) (h' : substitute t s' middle = .ok out) :
    spliceSegments t s' "" (front ++ segments) = .ok out := by
  induction h generalizing out with
  | done =>
    rw [substitute_textNodes_join hf] at h'
    rwa [List.append_nil]
  | @piece front segments segment piece nodes left text _ ih =>
    obtain ⟨hsegment, hsegments⟩ := List.forall_mem_cons.mp hc
    have hfront := List.forall_mem_append.mpr ⟨hf, List.forall_mem_singleton.mpr (left.clean ht hs hsegment)⟩
    rw [spliceSegments_append_congr (left.spliceSegments_eq hx text segments)]
    simpa using ih hfront hsegments h'
  | markup hm _ ih =>
    obtain ⟨out₁₂, out₃, h₁₂, h₃, rfl⟩ := substitute_append_eq_ok.mp h'
    obtain ⟨out₁, out₂, h₁, h₂, rfl⟩ := substitute_append_eq_ok.mp h₁₂
    rw [substitute_textNodes_join hf] at h₁
    rw [substitute_plain (plain_of_fragment? hs hm)] at h₂
    cases h₂
    exact spliceSegments_append_fragment (fragment?_of_extends hx hm) h₁
      (ih (List.forall_mem_nil _) (List.forall_mem_cons.mp hc).2 h₃)

theorem splice_absorb (ht : t.Loaded) (hs : s.Plain) (hx : s.Extends s') {text : String} {middle out : List Node}
    (hv : Segment.Tidy text) (h : splice t s text = .ok middle) (h' : substitute t s' middle = .ok out) :
    splice t s' text = .ok out := by
  unfold splice at h ⊢
  by_cases hm : (Segment.markers text).isEmpty = true
  · rw [if_pos hm] at h ⊢
    cases h
    obtain ⟨front, rest, hf, hr, rfl⟩ := substitute_cons_eq_ok.mp h'
    cases hr
    rw [substituteNode, splice, if_pos hm] at hf
    rw [hf, List.append_nil]
  · rw [if_neg hm] at h ⊢
    exact (@spliced_of_spliceSegments t s [] _ _ h).absorb ht hs hx (List.forall_mem_nil _) hv.clean h'

/-! ### Nodes -/

theorem tidy_attributes {head : Head} (h : ∀ text ∈ Template.attributeTexts head, Segment.Tidy text) :
    ∀ a ∈ head.attributes, Segment.Tidy a.2 :=
  fun a ha => h a.2 (List.mem_map.mpr ⟨a, ha, rfl⟩)

mutual

theorem substituteNode_absorb (ht : t.Loaded) (hs : s.Plain) (hx : s.Extends s') : ∀ {node : Node}
    {middle out : List Node}, (∀ text ∈ Template.textsOf node, Segment.Tidy text) →
    substituteNode t s node = .ok middle → substitute t s' middle = .ok out → substituteNode t s' node = .ok out
  | .element head children, middle, out, hv, h, h' => by
    rw [Template.textsOf, List.forall_mem_append] at hv
    obtain ⟨head₁, children₁, hh₁, hc₁, rfl⟩ := substituteNode_element_eq_ok.mp h
    obtain ⟨front, rest, hf, hr, rfl⟩ := substitute_cons_eq_ok.mp h'
    obtain ⟨head₂, children₂, hh₂, hc₂, rfl⟩ := substituteNode_element_eq_ok.mp hf
    cases hr
    exact substituteNode_element_eq_ok.mpr ⟨head₂, children₂, substituteHead_absorb ht hs hx (tidy_attributes hv.1) hh₁ hh₂,
      substitute_absorb ht hs hx hv.2 hc₁ hc₂, rfl⟩
  | .text content, middle, out, hv, h, h' => splice_absorb ht hs hx (hv content List.mem_cons_self) h h'
  | .cdata _, middle, out, hv, h, h' | .comment _, middle, out, hv, h, h'
  | .instruction .., middle, out, hv, h, h' => by
    cases h
    exact h'

/-- What the second pass makes of the output of the first one, it makes of the nodes themselves. -/
theorem substitute_absorb (ht : t.Loaded) (hs : s.Plain) (hx : s.Extends s') : ∀ {nodes middle out : List Node},
    (∀ text ∈ Template.textsIn nodes, Segment.Tidy text) → substitute t s nodes = .ok middle →
    substitute t s' middle = .ok out → substitute t s' nodes = .ok out
  | [], middle, out, hv, h, h' => by cases h; exact h'
  | node :: nodes, middle, out, hv, h, h' => by
    rw [Template.textsIn, List.forall_mem_append] at hv
    obtain ⟨front₁, rest₁, hf₁, hr₁, rfl⟩ := substitute_cons_eq_ok.mp h
    obtain ⟨front₂, rest₂, hf₂, hr₂, rfl⟩ := substitute_append_eq_ok.mp h'
    exact substitute_cons_eq_ok.mpr ⟨front₂, rest₂, substituteNode_absorb ht hs hx hv.1 hf₁ hf₂,
      substitute_absorb ht hs hx hv.2 hr₁ hr₂, rfl⟩

end

end Expansion
end Letterpress
