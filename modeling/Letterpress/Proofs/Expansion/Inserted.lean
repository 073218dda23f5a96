import Letterpress.Proofs.Expansion.Leftover
import Letterpress.Proofs.Expansion.Scoping
import Letterpress.Proofs.Template.Binding

/-! What becomes of the text of an instance that has taken the place of a marker. Outside loops it stays as it is.
    Inside a loop there are further passes over it, one for each loop around the marker, which do not tell the text
    from the body: it stays only if these passes can evaluate none of the markers written in it. -/

namespace Letterpress
namespace Expansion
open Markup (Node Element)

variable {t : Template} {ctx : Context} {scope : Scope}

/-! ### Texts that stay -/

/-- No marker in the text can be evaluated in the scope. -/
def Dormant (t : Template) (scope : Scope) (text : String) : Prop :=
  ∀ raw formula, .marker raw formula ∈ Segment.split text → Deferred t scope formula

theorem substitute_of_dormant {text : String} (h : Dormant t scope text) :
    substitute t scope (textNodes text) = .ok (textNodes text) := by
  by_cases hne : text = ""
  · rw [textNodes, if_pos hne, substitute]
  · rw [substitute_textNodes hne, spliceSegments_of_deferred h, Segment.join_split, String.empty_append]

theorem passes_of_dormant {scopes : List Scope} {text : String} (h : ∀ scope ∈ scopes, Dormant t scope text) :
    passes t scopes (textNodes text) = .ok (textNodes text) := by
  induction scopes with
  | nil => rfl
  | cons scope scopes ih =>
    obtain ⟨hfirst, hrest⟩ := List.forall_mem_cons.mp h
    exact foldlM_cons_eq_ok.mpr ⟨_, substitute_of_dormant hfirst, ih hrest⟩

theorem runActions_textNodes (run : Scope → List Node → Except Error (List Node)) (text : String) :
    runActions t ctx run scope (textNodes text) = .ok (textNodes text) := by
  unfold textNodes
  split <;> rfl

theorem runActions_of_infix {run : Scope → List Node → Except Error (List Node)} {nodes out part : List Node}
    (h : runActions t ctx run scope nodes = .ok out) (hi : part <:+: nodes) :
    ∃ done, runActions t ctx run scope part = .ok done ∧ done <:+: out := by
  obtain ⟨before, after, rfl⟩ := hi
  obtain ⟨front, rest, hf, -, rfl⟩ := runActions_append_eq_ok.mp h
  obtain ⟨first, done, -, hd, rfl⟩ := runActions_append_eq_ok.mp hf
  exact ⟨done, hd, first, rest, rfl⟩

/-! ### The text in the place of a marker -/

/-- A text that is bound where a marker stands alone takes its place in the first pass. -/
theorem substitute_alone {inner : List Char} {name text : String} (hm : IsVariable t inner name)
    (hv : scope.get? name = some (.text text)) {out : List Node} :
    substitute t scope [.text (Segment.rawOf inner)] = .ok out ↔ out = textNodes text := by
  have hne : Segment.rawOf inner ≠ "" := by simpa using Segment.rawOf_append_ne_empty "" "" inner
  have hfill : (Frame.mk [] "" "" []).fill (Segment.rawOf inner) = [.text (Segment.rawOf inner)] := by
    simp [Frame.fill, textNodes, hne]
  have hsplit : Segment.split "" = [] := Segment.splitFrom_nil []
  have hpass : (Frame.mk [] "" "" []).pass t scope = .ok ⟨[], "", "", []⟩ := by
    refine Frame.pass_eq_ok.mpr ⟨[], [], "", "", [], [], rfl, ?_, ?_, rfl, rfl⟩ <;> rw [hsplit] <;> rfl
  rw [← hfill, Frame.substitute_fill_bound hm hv]
  constructor
  · rintro ⟨f', hf', hput⟩
    cases hpass.symm.trans hf'
    cases hput
    simp [Frame.fill]
  · rintro rfl
    exact ⟨_, hpass, by simp [Frame.put, Value.render, Except.map, Frame.fill]⟩

/-- Every copy of a marker that stands alone, with the name of a parameter that an instance binds to a text, comes
    to what the passes of the loops around it make of this text: the text itself outside loops, and also where
    these passes cannot evaluate a marker of the text. A marker of the text that is a variable is replaced in the
    first of these passes that binds it. -/
theorem bound_text_passes {e out : Element} (h : t.apply ctx e = .ok out) {bound : Layer}
    (hb : t.bind ctx e = .ok bound) {name text : String} (hv : bound.lookup name = some (.text text)) {q : Place}
    (hq : Enters t ctx ⟨[], Scope.ofParams bound, t.content.children⟩ q) {inner : List Char}
    (hm : IsVariable t inner name) (mem : .text (Segment.rawOf inner) ∈ q.nodes) :
    ∃ loops filled limit copy, q.scopes = Scope.ofParams bound :: loops ∧ passes t loops (textNodes text) = .ok filled ∧
      runActions t ctx (expand t ctx limit) q.scope filled = .ok copy ∧ Within copy out.children ∧
      (q.around = [] → copy = textNodes text) ∧ ((∀ s ∈ loops, Dormant t s text) → copy = textNodes text) ∧
      ∀ inner' name' value outer first later, IsVariable t inner' name' → loops = outer ++ first :: later →
        (∀ s ∈ outer, s.get? name' = none) → first.get? name' = some value →
        Resolves t outer first later inner' value (textNodes text) filled := by
  obtain ⟨bound', hb', hexpand⟩ := bind_eq_ok.mp h
  cases hb.symm.trans hb'
  obtain ⟨part, ⟨limit, middle, hmiddle, hrun⟩, hw⟩ := hq.runs (runs_of_expandElement hexpand)
  obtain ⟨loops, hloops⟩ := hq.scopes_eq
  have hscopes : q.scopes = Scope.ofParams bound :: loops := hloops
  obtain ⟨filled, hfilled, hi⟩ := passes_of_mem hmiddle mem
  rw [hscopes] at hfilled
  obtain ⟨first, hfirst, hpasses⟩ := foldlM_cons_eq_ok.mp hfilled
  -- The first pass puts the text in whole; only the passes of the loops can read it again.
  rw [substitute_alone hm (by rw [Scope.get?_ofParams, hv])] at hfirst
  subst hfirst
  obtain ⟨copy, hcopy, hinfix⟩ := runActions_of_infix hrun hi
  have hdormant : (∀ s ∈ loops, Dormant t s text) → copy = textNodes text := fun hd => by
    cases (passes_of_dormant hd).symm.trans hpasses
    rw [runActions_textNodes] at hcopy
    exact (Except.ok.inj hcopy).symm
  refine ⟨loops, filled, limit, copy, hscopes, hpasses, hcopy, (Within.here hinfix).trans hw, fun haround => ?_, hdormant, ?_⟩
  · rw [Place.scopes, haround, List.nil_append] at hscopes
    rw [← (List.cons.inj hscopes).2] at hdormant
    exact hdormant nofun
  · intro inner' name' value outer first later hm' hsplit hn hvalue
    exact resolves_of_unbound hm' hn hvalue (hsplit ▸ hpasses)

/-- A template that shows a note at every item of a list, and once more behind them. -/
def noted : Template where
  name := "noted"
  params := [.text "note" true .generic, .list "items" true (.text "item" true .generic)]
  content := ⟨{ name := "content" },
    [.element { name := "ForEach", attributes := [("list", "items")] } [.text "{{note}}"],
      .element { name := "p" } [.text "{{note}}"]]⟩
  formulas := [("note", .var ["note"])]

/-- An instance whose note is written like a marker. -/
def notedInstance : Element :=
  ⟨{ name := "noted" },
    [.element { name := "note" } [.text "{{item}}"],
      .element { name := "items" } [.element { name := "item" } [.text "a"]]]⟩

def notedBound : Layer :=
  [("note", .text "{{item}}"), ("items", .list [.text "a"])]

def notedOutput : Element :=
  ⟨{ name := "content" }, [.text "a", .element { name := "p" } [.text "{{item}}"]]⟩

theorem apply_noted : noted.apply emptySite notedInstance = .ok notedOutput ∧
    noted.bind emptySite notedInstance = .ok notedBound :=
  ⟨eq_ok_of_toOption (by decide +kernel), rfl⟩

/-- The note stays behind the loop, but in the loop the item takes the place of the marker that it is written like. -/
theorem note_read_again :
    noted.apply emptySite notedInstance = .ok notedOutput ∧ noted.bind emptySite notedInstance = .ok notedBound ∧
      notedBound.lookup "note" = some (.text "{{item}}") ∧ IsVariable noted "note".toList "note" ∧
      Within (textNodes "{{item}}") notedOutput.children ∧
      ∃ filled, passes noted [iterationScope (Scope.ofParams notedBound) "__iter" "item" 1 (.text "a")]
        (textNodes "{{item}}") = .ok filled ∧ filled = [.text "a"] ∧ Within [.text "a"] notedOutput.children := by
  obtain ⟨happly, hbind⟩ := apply_noted
  have hnote : IsVariable noted "note".toList "note" := ⟨by decide, by decide +kernel⟩
  have hbehind : Enters noted emptySite ⟨[], Scope.ofParams notedBound, noted.content.children⟩
      ⟨[], Scope.ofParams notedBound, [.text "{{note}}"]⟩ :=
    @Enters.inside _ _ _ _ { name := "p" } _ .here (List.mem_cons_of_mem _ List.mem_cons_self) rfl
  have hinside : Enters noted emptySite ⟨[], Scope.ofParams notedBound, noted.content.children⟩
      ⟨[Scope.ofParams notedBound], iterationScope (Scope.ofParams notedBound) "__iter" "item" 1 (.text "a"),
        [.text "{{note}}"]⟩ :=
    @Enters.iteration _ _ _ _ _ { name := "ForEach", attributes := [("list", "items")] } _ _ "item" 0 _ .here
      List.mem_cons_self rfl (eq_ok_of_toOption (by decide +kernel)) ⟨"items", rfl, rfl, rfl⟩ rfl
  obtain ⟨-, -, -, copy, -, -, -, hwithin, hstays, -, -⟩ :=
    bound_text_passes happly hbind rfl hbehind hnote List.mem_cons_self
  obtain ⟨loops, filled, limit, copy', hscopes, hfilled, hcopy, hwithin', -, -, -⟩ :=
    bound_text_passes happly hbind rfl hinside hnote List.mem_cons_self
  cases hstays rfl
  cases (List.cons.inj hscopes).2
  have hread : passes noted [iterationScope (Scope.ofParams notedBound) "__iter" "item" 1 (.text "a")]
      (textNodes "{{item}}") = .ok [.text "a"] := eq_ok_of_toOption (by decide +kernel)
  cases hread.symm.trans hfilled
  cases hcopy
  exact ⟨happly, hbind, rfl, hnote, hwithin, _, hfilled, rfl, hwithin'⟩

end Expansion
end Letterpress
