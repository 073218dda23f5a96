import Letterpress.Markup.Scanner
import Letterpress.Markup.Writer
import Letterpress.Proofs.Path.Parts

/-! Scanning what has been written. What the writer makes of a plain name, an attribute value, a tag or a text takes
    the scanner from one state to the next, whatever has been read before, and the scanner meets what the writer
    was given: the references that the writer puts in place of markup characters are resolved again. -/

namespace Letterpress
namespace Markup

/-- The text is a name without a colon. -/
def isName (name : String) : Bool :=
  match name.toList with
  | [] => false
  | c :: cs => isNameStart c && cs.all isNameChar

/-- All characters of the text may stand in a document. -/
def OfDocument (text : String) : Prop :=
  ∀ c ∈ text.toList, isDocumentChar c = true

instance (text : String) : Decidable (OfDocument text) :=
  List.decidableBAll (fun c => isDocumentChar c = true) text.toList

/-- The head is that of an element without namespaces whose opening tag can be written. -/
structure Head.Plain (head : Head) : Prop where
  name : isName head.name = true
  qualifier : head.qualifier = none
  scope : head.scope = []
  distinct : (head.attributes.map Prod.fst).Nodup
  attributes : ∀ pair ∈ head.attributes, isName pair.1 = true ∧ pair.1 ≠ "xmlns" ∧ OfDocument pair.2

theorem isName_iff {name : String} :
    isName name = true ↔ ∃ c cs, name.toList = c :: cs ∧ isNameStart c = true ∧ ∀ d ∈ cs, isNameChar d = true := by
  unfold isName
  cases name.toList <;> simp

theorem isNameChar_of_isNameStart {c : Char} (h : isNameStart c = true) : isNameChar c = true := by
  simp [isNameChar, h]

theorem isDocumentChar_of_isNameChar {c : Char} (h : isNameChar c = true) : isDocumentChar c = true := by
  have halpha : c.isAlpha = (decide (c.val ≥ 'A'.val ∧ c.val ≤ 'Z'.val) || (c.val ≥ 'a'.val && c.val ≤ 'z'.val)) := rfl
  simp [isNameChar, isNameStart, isDocumentChar, halpha, Char.isDigit,
    UInt32.le_iff_toNat_le, Char.ext_iff, ← UInt32.toNat_inj] at h ⊢
  omega

theorem isNameChar_of_isName {name : String} (h : isName name = true) : ∀ c ∈ name.toList, isNameChar c = true := by
  obtain ⟨c, cs, hname, hc, hcs⟩ := isName_iff.mp h
  rw [hname]
  exact List.forall_mem_cons.mpr ⟨isNameChar_of_isNameStart hc, hcs⟩

theorem isNameChar_colon : isNameChar ':' = false := by decide

theorem ofChars?_of_isName {name : String} (h : isName name = true) : QName.ofChars? name.toList = some ⟨none, name⟩ := by
  have hfree : ∀ c ∈ name.toList, (c == ':') = false := fun c hc => by
    refine beq_eq_false_iff_ne.mpr fun hcolon => ?_
    have := isNameChar_of_isName h c hc
    rw [hcolon, isNameChar_colon] at this
    cases this
  obtain ⟨c, cs, hname, -, -⟩ := isName_iff.mp h
  have hne : name.toList.isEmpty = false := by rw [hname]; rfl
  simp [QName.ofChars?, Text.splitChars_of_free hfree, hne]

namespace Scanner

variable {entities : Entities} {events : List Event}

/-! ### From one state to the next -/

/-- Reading the characters takes the scanner from the first progress to the second. -/
def Progress.Reads (p : Progress) (cs : List Char) (p' : Progress) : Prop :=
  p.read cs = some p'

theorem Progress.Reads.nil {p : Progress} : p.Reads [] p := rfl

theorem Progress.read_append (p : Progress) (a b : List Char) : p.read (a ++ b) = (p.read a).bind (·.read b) := by
  induction a generalizing p with
  | nil => rfl
  | cons c a ih =>
    simp only [List.cons_append, read]
    cases p.advance c with
    | none => rfl
    | some next =>
      obtain ⟨q, text⟩ := next
      cases text with
      | nil => exact ih q
      | cons d text => cases hq : q.readEntity 9 (d :: text) <;> simp [hq, ih]

theorem Progress.Reads.append {p q r : Progress} {a b : List Char} (h : p.Reads a q) (h' : q.Reads b r) :
    p.Reads (a ++ b) r := by
  rw [Reads, read_append, h]
  exact h'

theorem Progress.Reads.cons {p q r : Progress} {c : Char} {cs : List Char} (h : p.Reads [c] q) (h' : q.Reads cs r) :
    p.Reads (c :: cs) r :=
  h.append h'

theorem reads_of_events {s s' : State} {c : Char} (hc : isDocumentChar c = true) (met : List Event)
    (h : step entities s c = some (s', met.map .event)) :
    Progress.Reads ⟨s, entities, events⟩ [c] ⟨s', entities, met.reverse ++ events⟩ := by
  have hnote : ∀ (met : List Event) (p : Progress),
      p.note (met.map .event) = ({ p with events := met.reverse ++ p.events }, []) := fun met => by
    induction met with
    | nil => exact fun _ => rfl
    | cons e met ih => simp [Progress.note, ih]
  simp [Progress.Reads, Progress.read, Progress.advance, hc, h, hnote]

theorem reads_of_move {s s' : State} {c : Char} (hc : isDocumentChar c = true) (h : step entities s c = move s') :
    Progress.Reads ⟨s, entities, events⟩ [c] ⟨s', entities, events⟩ :=
  reads_of_events hc [] h

/-! ### Names -/

theorem continuesName_of_isNameChar {seen : List Char} {c : Char} (hs : seen ≠ []) (hc : isNameChar c = true) :
    continuesName seen c = true := by
  have hcolon : c ≠ ':' := fun h => by
    rw [h, isNameChar_colon] at hc
    cases hc
  have hne : seen.isEmpty = false := List.isEmpty_eq_false_iff.mpr hs
  simp [continuesName, hcolon, hne, hc]

theorem continuesName_of_isNameStart {c : Char} (hc : isNameStart c = true) : continuesName [] c = true := by
  have hcolon : c ≠ ':' := fun h => by
    rw [h] at hc
    exact absurd hc (by decide)
  simp [continuesName, hcolon, hc]

/-- A name ends before a character that is none of a name. -/
theorem not_continuesName {name : String} (h : isName name = true) {c : Char} (hc : isNameChar c = false) (hcolon : c ≠ ':') :
    continuesName name.toList.reverse c = false := by
  obtain ⟨first, rest, hname, -, -⟩ := isName_iff.mp h
  have hne : name.toList.reverse.isEmpty = false := by simp [hname]
  simp [continuesName, hcolon, hne, hc]

/-- A name, in a state that collects the characters of a name once it has begun. -/
theorem reads_name {s : State} (collect : List Char → State)
    (hfirst : ∀ c, isNameStart c = true → step entities s c = move (collect [c]))
    (hstep : ∀ seen c, continuesName seen c = true → step entities (collect seen) c = move (collect (c :: seen)))
    {name : String} (hn : isName name = true) :
    Progress.Reads ⟨s, entities, events⟩ name.toList ⟨collect name.toList.reverse, entities, events⟩ := by
  have hrest : ∀ {cs seen : List Char}, seen ≠ [] → (∀ c ∈ cs, isNameChar c = true) →
      Progress.Reads ⟨collect seen, entities, events⟩ cs ⟨collect (cs.reverse ++ seen), entities, events⟩ := by
    intro cs
    induction cs with
    | nil => exact fun _ _ => .nil
    | cons c cs ih =>
      intro seen hs hcs
      obtain ⟨hc, hcs⟩ := List.forall_mem_cons.mp hcs
      have hnext := hstep seen c (continuesName_of_isNameChar hs hc)
      rw [List.reverse_cons, List.append_assoc]
      exact (reads_of_move (isDocumentChar_of_isNameChar hc) hnext).cons (ih (List.cons_ne_nil c seen) hcs)
  obtain ⟨c, cs, hname, hc, hcs⟩ := isName_iff.mp hn
  rw [hname, List.reverse_cons]
  refine (reads_of_move ?_ (hfirst c hc)).cons (hrest (List.cons_ne_nil c []) hcs)
  exact isDocumentChar_of_isNameChar (isNameChar_of_isNameStart hc)

/-! ### Attributes -/

/-- What stands in the state behind a part of an opening tag goes on inside the tag. -/
def Behind (entities : Entities) (s : State) (tag : OpenTag) : Prop :=
  ∀ c, isNameChar c = false → c ≠ ':' → step entities s c = afterPart tag c

theorem behind_openName {name : String} (h : isName name = true) :
    Behind entities (.openName name.toList.reverse) { tag := ⟨none, name⟩ } := by
  intro c hc hcolon
  simp [step, not_continuesName h hc hcolon, ofChars?_of_isName h]

theorem behind_afterValue (tag : OpenTag) : Behind entities (.afterValue tag) tag := fun _ _ _ => rfl

theorem reads_attributeChar {v : OpenValue} (hv : v.quote = '"') {c : Char} (hc : isDocumentChar c = true) :
    Progress.Reads ⟨.value v, entities, events⟩ (attributeChar c)
      ⟨.value { v with seen := c :: v.seen }, entities, events⟩ := by
  obtain ⟨tag, name, quote, seen⟩ := v
  subst hv
  unfold attributeChar
  split
  case h_8 hamp hlt _ hquote _ _ _ =>
    refine reads_of_move hc ?_
    rw [step, if_neg hquote, if_neg hlt, if_neg hamp]
  all_goals rfl

theorem reads_attributeValue {v : OpenValue} (hv : v.quote = '"') {cs : List Char}
    (hcs : ∀ c ∈ cs, isDocumentChar c = true) :
    Progress.Reads ⟨.value v, entities, events⟩ (cs.flatMap attributeChar)
      ⟨.value { v with seen := cs.reverse ++ v.seen }, entities, events⟩ := by
  induction cs generalizing v with
  | nil => exact .nil
  | cons c cs ih =>
    obtain ⟨hc, hcs⟩ := List.forall_mem_cons.mp hcs
    rw [List.reverse_cons, List.append_assoc]
    exact (reads_attributeChar hv hc).append (@ih { v with seen := c :: v.seen } hv hcs)

/-- The attribute as it comes from an opening tag. -/
def asRead (pair : String × String) : QName × String :=
  (⟨none, pair.1⟩, pair.2)

theorem reads_attribute {s : State} {tag : OpenTag} (hs : Behind entities s tag) {name value : String}
    (hn : isName name = true) (hv : OfDocument value) (hnew : ∀ other ∈ tag.attributes, other.1 ≠ ⟨none, name⟩) :
    Progress.Reads ⟨s, entities, events⟩ (writeAttribute (name, value)).toList
      ⟨.afterValue { tag with attributes := asRead (name, value) :: tag.attributes }, entities, events⟩ := by
  have hchars : (writeAttribute (name, value)).toList =
      ' ' :: (name.toList ++ '=' :: '"' :: (value.toList.flatMap attributeChar ++ ['"'])) := by
    simp [writeAttribute, escapeAttribute]
  have hblank : step entities s ' ' = move (.inTag tag) := hs ' ' (by decide) (by decide)
  have hname := @reads_name entities events (.inTag tag) (.attributeName tag) (fun c h => if_pos h) (fun seen c h => if_pos h)
    name hn
  have hequals : step entities (.attributeName tag name.toList.reverse) '=' = move (.beforeValue tag ⟨none, name⟩) := by
    have hstop : continuesName name.toList.reverse '=' = false := not_continuesName hn (by decide) (by decide)
    have hany : tag.attributes.any (·.1 == ⟨none, name⟩) = false := by simpa using hnew
    simp [step, hstop, attributeNamed, ofChars?_of_isName hn, hany]
  have hvalue := @reads_attributeValue entities events { tag, name := ⟨none, name⟩, quote := '"' } rfl _ hv
  have hend : step entities (.value { tag, name := ⟨none, name⟩, quote := '"', seen := value.toList.reverse }) '"' =
      move (.afterValue { tag with attributes := asRead (name, value) :: tag.attributes }) := by
    simp [step, asRead]
  rw [hchars]
  refine (reads_of_move (by decide) hblank).cons (hname.append ?_)
  refine (reads_of_move (by decide) hequals).cons ((reads_of_move (by decide) rfl).cons (hvalue.append ?_))
  rw [List.append_nil]
  exact reads_of_move (by decide) hend

theorem reads_attributes {s : State} {tag : OpenTag} (hs : Behind entities s tag) {attributes : List (String × String)}
    (ha : ∀ pair ∈ attributes, isName pair.1 = true ∧ OfDocument pair.2) (hd : (attributes.map Prod.fst).Nodup)
    (hnew : ∀ pair ∈ attributes, ∀ other ∈ tag.attributes, other.1 ≠ ⟨none, pair.1⟩) :
    ∃ s', Progress.Reads ⟨s, entities, events⟩ (String.join (attributes.map writeAttribute)).toList
        ⟨s', entities, events⟩ ∧
      Behind entities s' { tag with attributes := (attributes.map asRead).reverse ++ tag.attributes } := by
  induction attributes generalizing s tag with
  | nil => exact ⟨s, .nil, hs⟩
  | cons pair attributes ih =>
    obtain ⟨⟨hn, hv⟩, ha⟩ := List.forall_mem_cons.mp ha
    obtain ⟨hfirst, hnew⟩ := List.forall_mem_cons.mp hnew
    obtain ⟨hd₁, hd⟩ := List.nodup_cons.mp hd
    have hnew' : ∀ later ∈ attributes, ∀ other ∈ asRead pair :: tag.attributes, other.1 ≠ ⟨none, later.1⟩ := by
      refine fun later hl => List.forall_mem_cons.mpr ⟨fun heq => hd₁ ?_, hnew later hl⟩
      have hname : pair.1 = later.1 := (QName.mk.inj heq).2
      exact hname ▸ List.mem_map_of_mem hl
    obtain ⟨s', hr, hb⟩ := ih (behind_afterValue { tag with attributes := asRead pair :: tag.attributes }) ha hd hnew'
    refine ⟨s', ?_, by simpa using hb⟩
    rw [List.map_cons, String.join_cons, String.toList_append]
    exact (reads_attribute hs hn hv hfirst).append hr

/-! ### Tags and texts -/

section
variable {seen : List Char} {bare : Bool} {brackets : Nat}

theorem reads_angle : Progress.Reads ⟨.content seen bare brackets, entities, events⟩ ['<']
    ⟨.angle, entities, (textEvents seen bare).reverse ++ events⟩ :=
  reads_of_events (by decide) _ rfl

/-- An opening tag up to its closing bracket. What has been read before it is complete by then. -/
theorem reads_head {known : List (String × String)} {head : Head} (h : head.Plain) :
    ∃ s, Progress.Reads ⟨.content seen bare brackets, entities, events⟩ (writeHead known head).toList
        ⟨s, entities, (textEvents seen bare).reverse ++ events⟩ ∧
      Behind entities s ⟨⟨none, head.name⟩, (head.attributes.map asRead).reverse⟩ := by
  have hchars : (writeHead known head).toList =
      '<' :: (head.name.toList ++ (String.join (head.attributes.map writeAttribute)).toList) := by
    simp [writeHead, Head.tag, h.qualifier, h.scope]
  have hfirst : ∀ c, isNameStart c = true → step entities .angle c = move (.openName [c]) := fun c hc => by
    have hne : c ≠ '/' ∧ c ≠ '!' ∧ c ≠ '?' := by
      refine ⟨?_, ?_, ?_⟩ <;> rintro rfl <;> exact absurd hc (by decide)
    rw [step, if_neg hne.1, if_neg hne.2.1, if_neg hne.2.2, if_pos hc]
  have hname := @reads_name entities ((textEvents seen bare).reverse ++ events) .angle .openName hfirst
    (fun seen c h => if_pos h) head.name h.name
  obtain ⟨s, hattributes, hbehind⟩ := @reads_attributes entities ((textEvents seen bare).reverse ++ events) _ _
    (behind_openName h.name) head.attributes
    (fun pair hp => ⟨(h.attributes pair hp).1, (h.attributes pair hp).2.2⟩) h.distinct (fun _ _ => List.forall_mem_nil _)
  rw [List.append_nil] at hbehind
  rw [hchars]
  exact ⟨s, reads_angle.cons (hname.append hattributes), hbehind⟩

theorem reads_opening {known : List (String × String)} {head : Head} (h : head.Plain) :
    Progress.Reads ⟨.content seen bare brackets, entities, events⟩ (writeHead known head ++ ">").toList
      ⟨.content [] true 0, entities,
        .opening ⟨none, head.name⟩ (head.attributes.map asRead) false :: ((textEvents seen bare).reverse ++ events)⟩ := by
  obtain ⟨s, hr, hb⟩ := @reads_head entities events seen bare brackets known head h
  have hchars : (writeHead known head ++ ">").toList = (writeHead known head).toList ++ ['>'] := by simp
  rw [hchars]
  refine hr.append (reads_of_events (by decide) [_] ?_)
  rw [hb '>' (by decide) (by decide), afterPart, if_pos rfl, endTag, List.reverse_reverse]
  rfl

/-- The tag of an element that closes itself. -/
theorem reads_closed {known : List (String × String)} {head : Head} (h : head.Plain) :
    Progress.Reads ⟨.content seen bare brackets, entities, events⟩ (writeHead known head ++ " />").toList
      ⟨.content [] true 0, entities,
        .opening ⟨none, head.name⟩ (head.attributes.map asRead) true :: ((textEvents seen bare).reverse ++ events)⟩ := by
  obtain ⟨s, hr, hb⟩ := @reads_head entities events seen bare brackets known head h
  have hchars : (writeHead known head ++ " />").toList = (writeHead known head).toList ++ [' ', '/', '>'] := by simp
  have hblank : step entities s ' ' = move (.inTag ⟨⟨none, head.name⟩, (head.attributes.map asRead).reverse⟩) :=
    hb ' ' (by decide) (by decide)
  rw [hchars]
  refine hr.append ((reads_of_move (by decide) hblank).cons ((reads_of_move (by decide) rfl).cons ?_))
  refine reads_of_events (by decide) [_] ?_
  rw [step, if_pos rfl, endTag, List.reverse_reverse]
  rfl

theorem reads_closing {name : String} (h : isName name = true) :
    Progress.Reads ⟨.content seen bare brackets, entities, events⟩ ("</" ++ name ++ ">").toList
      ⟨.content [] true 0, entities, .closing ⟨none, name⟩ :: ((textEvents seen bare).reverse ++ events)⟩ := by
  have hchars : ("</" ++ name ++ ">").toList = '<' :: '/' :: (name.toList ++ ['>']) := by simp
  have hname := @reads_name entities ((textEvents seen bare).reverse ++ events) (.closeName []) .closeName
    (fun c hc => if_pos (continuesName_of_isNameStart hc)) (fun seen c h => if_pos h) name h
  have hend : step entities (.closeName name.toList.reverse) '>' =
      some (.content [] true 0, [Event.closing ⟨none, name⟩].map .event) := by
    have hstop : continuesName name.toList.reverse '>' = false := not_continuesName h (by decide) (by decide)
    simp [step, hstop, ofChars?_of_isName h, complete]
  rw [hchars]
  refine reads_angle.cons ((reads_of_move (by decide) rfl).cons (hname.append ?_))
  exact reads_of_events (by decide) _ hend

theorem reads_textChar {c : Char} (hc : isDocumentChar c = true) :
    ∃ bare' brackets', Progress.Reads ⟨.content seen bare brackets, entities, events⟩ (textChar c)
      ⟨.content (c :: seen) bare' brackets', entities, events⟩ := by
  unfold textChar
  split
  -- A closing angle bracket is written as a reference, so the scanner never meets one behind two square brackets.
  case h_4 hamp hlt hgt =>
    by_cases hbracket : c = ']'
    · refine ⟨bare, brackets + 1, reads_of_move hc ?_⟩
      rw [step, if_neg hlt, if_neg hamp, if_pos hbracket]
    · refine ⟨bare, 0, reads_of_move hc ?_⟩
      rw [step, if_neg hlt, if_neg hamp, if_neg hbracket, if_neg fun h => hgt h.1]
  all_goals exact ⟨false, 0, rfl⟩

theorem reads_text {cs : List Char} (hcs : ∀ c ∈ cs, isDocumentChar c = true) :
    ∃ bare' brackets', Progress.Reads ⟨.content seen bare brackets, entities, events⟩ (cs.flatMap textChar)
      ⟨.content (cs.reverse ++ seen) bare' brackets', entities, events⟩ := by
  induction cs generalizing seen bare brackets with
  | nil => exact ⟨bare, brackets, .nil⟩
  | cons c cs ih =>
    obtain ⟨hc, hcs⟩ := List.forall_mem_cons.mp hcs
    obtain ⟨bare₁, brackets₁, hfirst⟩ := @reads_textChar entities events seen bare brackets c hc
    obtain ⟨bare', brackets', hrest⟩ := @ih (c :: seen) bare₁ brackets₁ hcs
    rw [List.reverse_cons, List.append_assoc]
    exact ⟨bare', brackets', hfirst.append hrest⟩

end

end Scanner
end Markup
end Letterpress
