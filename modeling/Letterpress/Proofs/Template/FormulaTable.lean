import Letterpress.Proofs.Template.Fault
import Letterpress.Proofs.Template.Loaded

/-! The table of formulas of a template. It only saves reading a formula again: it says of a text what reading
    it says, it has an entry for every marker of the body, and a text it does not know is read when it
    comes up. So a template without its table is applied alike, and no application ends with a fault of
    reading a formula: those are found when the template is loaded. -/

namespace Letterpress
open Markup (Node Element Head)

/-- The text is an attribute value, a text or a section of character data in the node, at any depth. -/
inductive Markup.Node.Holds (text : String) : Node → Prop
  | value {head : Head} {children : List Node} {name : String} (h : (name, text) ∈ head.attributes) :
      Holds text (.element head children)
  | inside {head : Head} {children : List Node} {node : Node} (hm : node ∈ children) (h : node.Holds text) :
      Holds text (.element head children)
  | text : Holds text (.text text)
  | cdata : Holds text (.cdata text)

namespace Template

theorem mem_textsIn {text : String} {nodes : List Node} : text ∈ textsIn nodes ↔ ∃ node ∈ nodes, text ∈ textsOf node := by
  induction nodes with
  | nil => simp [textsIn]
  | cons node nodes ih => simp [textsIn, ih]

/-- Markers count in every text of a tree. -/
theorem mem_textsOf_of_holds {text : String} {node : Node} (h : node.Holds text) : text ∈ textsOf node := by
  induction h with
  | value h => exact List.mem_append_left _ (List.mem_map.mpr ⟨_, h, rfl⟩)
  | inside hm _ ih => exact List.mem_append_right _ (mem_textsIn.mpr ⟨_, hm, ih⟩)
  | text => exact List.mem_singleton.mpr rfl
  | cdata => exact List.mem_singleton.mpr rfl

/-! ### Templates that read alike -/

/-- Both templates have the same formula for every text and the same declaration for every path. -/
structure ReadsAlike (t t' : Template) : Prop where
  formula : ∀ text, Expansion.formula? t' text = Expansion.formula? t text
  declaration : ∀ path, t'.declaration? path = t.declaration? path

/-- The template without its table of formulas. -/
def withoutFormulas (t : Template) : Template :=
  { t with formulas := [] }

end Template

namespace Expansion

variable {t t' : Template} {ctx : Context} {scope : Scope}

theorem evaluate_alike (h : t.ReadsAlike t') (text : String) : evaluate t' scope text = evaluate t scope text := by
  rw [evaluate, evaluate, h.formula]

theorem fragment?_alike (h : t.ReadsAlike t') (text : String) : fragment? t' scope text = fragment? t scope text := by
  rw [fragment?, fragment?, h.formula]

theorem relatesMarkers_of_readsAlike (h : t.ReadsAlike t') : RelatesMarkers (fun x x' => x' = x) t t' scope where
  toStepwise := .equal
  fragment := fragment?_alike h
  evaluate := evaluate_alike h

theorem substituteHead_alike (h : t.ReadsAlike t') (head : Head) :
    substituteHead t' scope head = substituteHead t scope head :=
  (relatesMarkers_of_readsAlike h).substituteHead head

theorem substitute_alike (h : t.ReadsAlike t') (nodes : List Node) :
    substitute t' scope nodes = substitute t scope nodes :=
  (relatesMarkers_of_readsAlike h).substitute nodes

section
variable {run : Scope → List Node → Except Error (List Node)}

theorem runLoop_alike (h : t.ReadsAlike t') (e : Element) : runLoop t' run scope e = runLoop t run scope e := by
  have hitem : ∀ list path, itemName t' e list path = itemName t e list path := fun list path => by
    rw [itemName, itemName, h.declaration]
  simp only [runLoop, hitem]

theorem runActions_alike (h : t.ReadsAlike t') (nodes : List Node) :
    runActions t' ctx run scope nodes = runActions t ctx run scope nodes := by
  have hr : RelatesActions (fun x x' => x' = x) t t' ctx ctx run run scope :=
    { Stepwise.equal with
      loop := runLoop_alike h
      key := fun _ => rfl
      ambiguous := fun _ _ => rfl }
  exact hr.runActions nodes

end

theorem expand_alike (h : t.ReadsAlike t') (limit : Nat) : expand t' ctx limit = expand t ctx limit := by
  induction limit with
  | zero => rfl
  | succ limit ih =>
    funext scope nodes
    simp only [expand, ih, substitute_alike h, runActions_alike h]

theorem expandElement_alike (h : t.ReadsAlike t') (limit : Nat) (e : Element) :
    expandElement t' ctx limit scope e = expandElement t ctx limit scope e := by
  rw [expandElement, expandElement, substituteHead_alike h, expand_alike h]

end Expansion

namespace Template

variable {t : Template} {ctx : Context}

/-- Templates with the same parameters bind alike. -/
theorem bind_eq_of_params {t' : Template} (hname : t'.name = t.name) (hparams : t'.params = t.params) (e : Element) :
    t'.bind ctx e = t.bind ctx e := by
  have hparam : ∀ name, t'.param? name = t.param? name := fun name => by rw [param?, param?, hparams]
  have hnodes : ∀ bound nodes, t'.bindNodes ctx e bound nodes = t.bindNodes ctx e bound nodes := by
    intro bound nodes
    induction nodes generalizing bound with
    | nil => rfl
    | cons node nodes ih => simp only [bindNodes, ih, hparam, hname]
  simp only [bind, firstMissing?, hnodes, hparams, hname]

/-- The formula for a text is what the text is read as, whether the table has it or not. -/
theorem Loaded.formula?_eq (h : t.Loaded) (text : String) :
    Expansion.formula? t text = (Formula.parse text).toOption := by
  cases hp : Formula.parse text with
  | ok formula =>
    unfold Expansion.formula?
    split
    · rename_i found hl
      rw [h.faithful text found hl] at hp
      cases hp
      rfl
    · rw [hp]
  | error fault =>
    cases hf : Expansion.formula? t text with
    | none => rfl
    | some found =>
      rw [h.parse_of_formula? hf] at hp
      cases hp

theorem Loaded.readsAlike (h : t.Loaded) : t.ReadsAlike t.withoutFormulas where
  formula text := (h.formula?_eq text).symm
  declaration _ := rfl

theorem Loaded.apply_withoutFormulas (h : t.Loaded) (ctx : Context) (e : Element) :
    t.withoutFormulas.apply ctx e = t.apply ctx e := by
  simp only [apply, @bind_eq_of_params t ctx t.withoutFormulas rfl rfl, Expansion.expandElement_alike h.readsAlike]
  rfl

/-- No application ends with a fault of reading a formula. -/
theorem apply_ne_unreadable (t : Template) (ctx : Context) (e : Element) (text : String) (cause : Formula.Fault) :
    t.apply ctx e ≠ .error (.formula text (.unreadable cause)) := by
  have hfails : FailsWith (∀ text cause, · ≠ .formula text (.unreadable cause)) (t.apply ctx e) := by
    refine t.fails_apply ?_ ?_ e (Expansion.carries_of_forEach fun _ _ _ _ => nofun) fun _ _ => trivial
    · exact ⟨fun _ _ _ _ _ _ => nofun, fun _ _ _ _ _ => nofun, fun _ _ _ _ => nofun⟩
    · refine ⟨fun text fault text' cause h => ?_, fun _ _ _ _ => nofun, fun _ _ _ => nofun, fun _ _ => nofun⟩
      injection h with _ hfault
      exact fault.2 cause hfault
  exact fun h => hfails _ h text cause rfl

/-- What the table of a template from a file says is what reading says, it knows every marker of the body, and
    it makes no difference to any application. -/
theorem table_is_transparent {t : Template} (h : t.OfFile) :
    (∀ text formula, t.formula? text = some formula → Formula.parse text = .ok formula) ∧
    (∀ text raw formula, t.content.toNode.Holds text → .marker raw formula ∈ Segment.split text →
      ∃ found, t.formula? formula = some found) ∧
    (∀ text, Expansion.formula? t text = (Formula.parse text).toOption) ∧
    (∀ ctx e, t.withoutFormulas.apply ctx e = t.apply ctx e) ∧
    ∀ ctx e text cause, t.apply ctx e ≠ .error (.formula text (.unreadable cause)) := by
  have ht := h.loaded
  refine ⟨ht.faithful, fun text raw formula hx hm => ?_, ht.formula?_eq, ht.apply_withoutFormulas, apply_ne_unreadable t⟩
  exact ht.lookup_of_marker (mem_textsOf_of_holds hx) hm

/-! ### An invoice

The marker in the note is none of the body's, so its formula is read when the loop comes upon it. -/

def invoiceFile : String :=
  "<template name='invoice'><param name='price' type='text'/><param name='note' type='text'/>" ++
    "<param name='items' type='list'><param name='item' type='text'/></param>" ++
    "<content><ForEach list='items'>{{note}} for {{ item }}</ForEach></content></template>"

def invoice : Template where
  name := "invoice"
  params := [.text "price" true .generic, .text "note" true .generic, .list "items" true (.text "item" true .generic)]
  content := ⟨{ name := "content" },
    [.element { name := "ForEach", attributes := [("list", "items")] } [.text "{{note}} for {{ item }}"]]⟩
  formulas := [("note", .var ["note"]), ("item", .var ["item"])]

def invoiceInstance : Element :=
  ⟨{ name := "invoice" }, [.element { name := "price" } [.text "7"], .element { name := "note" } [.text "{{price}}"],
    .element { name := "items" } [.element { name := "item" } [.text "tea"]]]⟩

theorem invoice_ofFile : invoice.OfFile :=
  ⟨"invoice.xml", invoiceFile, [invoice], eq_ok_of_toOption (by decide +kernel), List.mem_singleton.mpr rfl⟩

theorem invoice_without_table : invoice.OfFile ∧ invoice.formula? "price" = none ∧
    invoice.content.toNode.Holds "{{note}} for {{ item }}" ∧
    .marker "{{ item }}" "item" ∈ Segment.split "{{note}} for {{ item }}" ∧
    (∃ found, invoice.formula? "item" = some found) ∧
    invoice.withoutFormulas.apply emptySite invoiceInstance = .ok ⟨{ name := "content" }, [.text "7 for tea"]⟩ := by
  have hholds : invoice.content.toNode.Holds "{{note}} for {{ item }}" :=
    .inside List.mem_cons_self (.inside List.mem_cons_self .text)
  have hmarker : .marker "{{ item }}" "item" ∈ Segment.split "{{note}} for {{ item }}" := by decide +kernel
  have hresult : invoice.apply emptySite invoiceInstance = .ok ⟨{ name := "content" }, [.text "7 for tea"]⟩ :=
    eq_ok_of_toOption (by decide +kernel)
  obtain ⟨-, hknown, -, happly, -⟩ := table_is_transparent invoice_ofFile
  exact ⟨invoice_ofFile, by decide, hholds, hmarker, hknown _ _ _ hholds hmarker, (happly _ _).trans hresult⟩

end Template
end Letterpress
