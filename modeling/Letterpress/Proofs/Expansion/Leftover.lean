import Letterpress.Proofs.Expansion.Absorption

/-! What a pass over the markers leaves of a text: no stray brace, and of the markers only those whose formula
    is deferred. -/

namespace Letterpress
open Markup (Node Element Head)
open Text (Unbraced)

namespace Segment

/-- Outside its markers the text has no brace, and the formulas of its markers have the property. -/
def Only (M : String → Prop) (text : String) : Prop :=
  Tidy text ∧ ∀ raw formula, .marker raw formula ∈ split text → M formula

variable {M M' : String → Prop}

theorem Only.mono {text : String} (h : Only M text) (hm : ∀ formula, M formula → M' formula) : Only M' text :=
  ⟨h.1, fun raw formula hmem => hm formula (h.2 raw formula hmem)⟩

theorem marker_not_mem_ofLiteral {cs : List Char} {raw formula : String} : .marker raw formula ∉ ofLiteral cs := by
  cases cs with
  | nil => exact nofun
  | cons c cs => exact fun h => by cases List.mem_singleton.mp h

theorem unbraced_of_mem_ofLiteral {cs : List Char} (hc : ∀ c ∈ cs, c ≠ '{' ∧ c ≠ '}') {text : String}
    (h : .literal text ∈ ofLiteral cs) : Unbraced text := by
  cases cs with
  | nil => cases h
  | cons c cs =>
    cases List.mem_singleton.mp h
    exact Text.unbraced_ofList hc

theorem marker_mem_of_mem_merge {seen : List Char} {segments : List Segment} {raw formula : String}
    (h : .marker raw formula ∈ merge seen segments) : .marker raw formula ∈ segments := by
  induction segments generalizing seen with
  | nil => exact absurd h marker_not_mem_ofLiteral
  | cons segment segments ih =>
    cases segment with
    | literal text => exact List.mem_cons_of_mem _ (ih h)
    | marker raw' formula' =>
      rw [merge, List.mem_append, List.mem_cons] at h
      rcases h with h | h | h
      · exact absurd h marker_not_mem_ofLiteral
      · exact h ▸ List.mem_cons_self
      · exact List.mem_cons_of_mem _ (ih h)

theorem unbraced_of_mem_merge {seen : List Char} (hs : ∀ c ∈ seen, c ≠ '{' ∧ c ≠ '}') {segments : List Segment}
    (hc : ∀ segment ∈ segments, segment.Clean) {text : String} (h : .literal text ∈ merge seen segments) :
    Unbraced text := by
  induction segments generalizing seen with
  | nil => exact unbraced_of_mem_ofLiteral (fun c hmem => hs c (List.mem_reverse.mp hmem)) h
  | cons segment segments ih =>
    have hc' := fun segment hs => hc segment (List.mem_cons_of_mem _ hs)
    cases segment with
    | literal found =>
      refine ih (fun c hmem => ?_) hc' h
      rcases List.mem_append.mp hmem with hmem | hmem
      · exact hc (.literal found) List.mem_cons_self c (List.mem_reverse.mp hmem)
      · exact hs c hmem
    | marker raw formula =>
      rw [merge, List.mem_append, List.mem_cons] at h
      rcases h with h | h | h
      · exact unbraced_of_mem_ofLiteral (fun c hmem => hs c (List.mem_reverse.mp hmem)) h
      · cases h
      · exact ih (List.forall_mem_nil _) hc' h

/-- Clean pieces put together are a text with no other markers. -/
theorem only_join {segments : List Segment} (hc : ∀ segment ∈ segments, segment.Clean)
    (hm : ∀ raw formula, .marker raw formula ∈ segments → M formula) : Only M (join segments) := by
  refine ⟨fun text h => ?_, fun raw formula h => ?_⟩
  · rw [split_join hc] at h
    exact unbraced_of_mem_merge (List.forall_mem_nil _) hc h
  · rw [split_join hc] at h
    exact hm raw formula (marker_mem_of_mem_merge h)

theorem only_of_unbraced {text : String} (h : Unbraced text) : Only M text := by
  have hsplit := split_unbraced h
  refine ⟨fun literal hl => ?_, fun raw formula hm => ?_⟩
  · rw [hsplit] at hl
    exact unbraced_of_mem_ofLiteral h hl
  · rw [hsplit] at hm
    exact absurd hm marker_not_mem_ofLiteral

theorem unbraced_join {segments : List Segment} (h : ∀ segment ∈ segments, ∃ text, segment = .literal text ∧ Unbraced text) :
    Unbraced (join segments) := by
  induction segments with
  | nil => exact nofun
  | cons segment segments ih =>
    obtain ⟨⟨text, hsegment, hu⟩, hrest⟩ := List.forall_mem_cons.mp h
    rw [hsegment]
    exact Text.Unbraced.append hu (ih hrest)

/-- A text with no stray brace and no marker has no brace at all. -/
theorem unbraced_of_only {text : String} (h : Only (fun _ => False) text) : Unbraced text := by
  rw [← join_split text]
  refine unbraced_join fun segment hs => ?_
  cases segment with
  | literal found => exact ⟨found, rfl, h.1 found hs⟩
  | marker raw formula => exact absurd (h.2 raw formula hs) id

end Segment

namespace Expansion

variable {t : Template} {scope : Scope} {M : String → Prop}

/-- The formula of a marker stays deferred in the scope. -/
def Deferred (t : Template) (scope : Scope) (formula : String) : Prop :=
  evaluate t scope formula = .ok .deferred

theorem only_of_attributeValue (ht : t.Loaded) (hs : scope.Plain) {value out : String} (h : Segment.Only M value)
    (ho : attributeValue t scope value = .ok out) :
    Segment.Only (fun formula => M formula ∧ Deferred t scope formula) out := by
  obtain ⟨residue, hres, rfl⟩ := leaves_of_joinSegments ho
  refine Segment.only_join (clean_of_leaves ht hs hres h.1.clean) fun raw formula hm => ?_
  obtain ⟨segment, hmem, hleft⟩ := exists_left_of_forall₂ hres hm
  obtain ⟨rfl, hd⟩ := Leaves.of_marker hleft
  exact ⟨h.2 raw formula hmem, hd⟩

/-- A node that a text comes to is a text again, or one of the nodes of bound markup. -/
def Leftover (t : Template) (scope : Scope) (M : String → Prop) (node : Node) : Prop :=
  (∃ content, node = .text content ∧ Segment.Only (fun formula => M formula ∧ Deferred t scope formula) content) ∨
    ∃ path e, scope.lookup? path = some (.markup e) ∧ node ∈ e.children

theorem leftover_textNodes {front : List Segment} (hf : ∀ segment ∈ front, segment.Clean)
    (hfm : ∀ raw formula, .marker raw formula ∈ front → M formula ∧ Deferred t scope formula) :
    ∀ node ∈ textNodes (Segment.join front), Leftover t scope M node := fun _ hn =>
  Or.inl ⟨_, (mem_textNodes.mp hn).2, Segment.only_join hf hfm⟩

/-- The markers of the pieces before are deferred, and so is every marker that joins them. -/
theorem leftover_of_spliced (ht : t.Loaded) (hs : scope.Plain) {front segments : List Segment} {nodes : List Node}
    (h : Spliced t scope front segments nodes) (hf : ∀ segment ∈ front, segment.Clean)
    (hfm : ∀ raw formula, .marker raw formula ∈ front → M formula ∧ Deferred t scope formula)
    (hc : ∀ segment ∈ segments, segment.Clean) (hm : ∀ raw formula, .marker raw formula ∈ segments → M formula) :
    ∀ node ∈ nodes, Leftover t scope M node := by
  induction h with
  | done => exact leftover_textNodes hf hfm
  | @piece front segments segment piece nodes left _ _ ih =>
    obtain ⟨hsegment, hsegments⟩ := List.forall_mem_cons.mp hc
    have hfront := List.forall_mem_append.mpr ⟨hf, List.forall_mem_singleton.mpr (left.clean ht hs hsegment)⟩
    refine ih hfront (fun raw formula hmem => ?_) hsegments fun raw formula hmem => hm raw formula (List.mem_cons_of_mem _ hmem)
    rcases List.mem_append.mp hmem with hmem | hmem
    · exact hfm raw formula hmem
    · obtain ⟨rfl, hd⟩ := Leaves.of_marker (List.mem_singleton.mp hmem ▸ left)
      exact ⟨hm raw formula List.mem_cons_self, hd⟩
  | markup hfragment _ ih =>
    obtain ⟨path, e, -, hl, rfl⟩ := fragment?_eq_some.mp hfragment
    refine List.forall_mem_append.mpr ⟨List.forall_mem_append.mpr ⟨leftover_textNodes hf hfm, fun node hn => ?_⟩, ?_⟩
    · exact Or.inr ⟨path, e, hl, hn⟩
    · exact ih (List.forall_mem_nil _) nofun (List.forall_mem_cons.mp hc).2 fun raw formula hmem =>
        hm raw formula (List.mem_cons_of_mem _ hmem)

theorem leftover_of_splice (ht : t.Loaded) (hs : scope.Plain) {text : String} (h : Segment.Only M text) {nodes : List Node}
    (ho : splice t scope text = .ok nodes) : ∀ node ∈ nodes, Leftover t scope M node := by
  by_cases he : text = ""
  · have hu : Unbraced text := he ▸ (by decide)
    rw [splice_unbraced hu] at ho
    cases ho
    exact List.forall_mem_singleton.mpr (Or.inl ⟨text, rfl, Segment.only_of_unbraced hu⟩)
  · rw [splice_of_ne_empty he] at ho
    exact leftover_of_spliced ht hs (@spliced_of_spliceSegments t scope [] _ _ ho) nofun nofun h.1.clean h.2

end Expansion
end Letterpress
