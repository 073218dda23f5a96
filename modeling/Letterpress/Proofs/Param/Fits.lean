import Letterpress.Proofs.Param.Validation
import Letterpress.Proofs.Scope

/-! What values look like that have been validated. A path that leads into such a value leads through its
    declaration as well, and the value it leads to has been validated against the declaration it leads to;
    only the fields of a date have none, and are texts. -/

namespace Letterpress
namespace Param
open Markup (Node Element)

variable {ctx : Context}

/-! ### Validated values -/

/-- The value is what some element supplies for the declaration; without one it is a text. -/
def Fits (ctx : Context) : Option Param → Value → Prop
  | some param, value => ∃ e, param.validate ctx e = .ok value
  | none, value => ∃ content, value = .text content

theorem readText_ne_list {form : TextForm} {content : String} {items : List Value} :
    readText ctx form content ≠ .ok (.list items) := by
  intro h
  cases readText_eq_ok.mp h

/-- The fields of a text are those of a date, all of them texts. -/
theorem text_of_readText {form : TextForm} {content : String} {value inner : Value} {name : String}
    (h : readText ctx form content = .ok value) (hf : value.field? name = some inner) :
    ∃ content, inner = .text content := by
  cases readText_eq_ok.mp h with
  | generic | integer | float | file | markdown => cases hf
  | date =>
    have hmem := mem_of_lookup hf
    simp only [List.mem_cons, Prod.mk.injEq, List.not_mem_nil, or_false] at hmem
    rcases hmem with ⟨-, h⟩ | ⟨-, h⟩ | ⟨-, h⟩ | ⟨-, h⟩ | ⟨-, h⟩
    all_goals exact ⟨_, h⟩

theorem fits_of_mem_items {name : String} {required : Bool} {item : Param} {e : Element} {items : List Value}
    (h : (list name required item).validate ctx e = .ok (.list items)) : ∀ value ∈ items, Fits ctx (some item) value := by
  obtain ⟨items', hitems, hforall⟩ := validate_list_eq_ok h
  cases hitems
  clear h
  generalize e.significant = nodes at hforall
  induction hforall with
  | nil => exact nofun
  | cons hvalue _ ih =>
    obtain ⟨child, -, -, hchild⟩ := hvalue
    exact List.forall_mem_cons.mpr ⟨⟨child, hchild⟩, ih⟩

/-- Each field of a validated record has been validated against the declaration of its name. -/
theorem field_of_validate_record {name field : String} {required : Bool} {fields : List Param} {e : Element}
    {values : List (String × Value)} {inner : Value}
    (h : (record name required fields).validate ctx e = .ok (.record values)) (hl : values.lookup field = some inner) :
    ∃ param child, fields.find? (·.name == field) = some param ∧ param.validate ctx child = .ok inner := by
  obtain ⟨entries, values', hvalue, hs, -, hv⟩ := validate_record_eq_ok.mp h
  cases hvalue
  rw [lookup_arranged hv] at hl
  obtain ⟨-, -, hl⟩ := Option.bind_eq_some_iff.mp hl
  obtain ⟨child, -, rfl, hchild⟩ := hs.of_mem (mem_of_lookup hl)
  rw [validateField_eq] at hchild
  obtain ⟨param, hparam, hchild⟩ := Option.map_eq_some_iff.mp hchild
  exact ⟨param, child, hparam, hchild⟩

/-! ### Paths into validated values -/

namespace Fits

theorem field? {origin : Option Param} {value inner : Value} {name : String} (h : Fits ctx origin value)
    (hf : value.field? name = some inner) : Fits ctx (origin.bind (·.field? name)) inner := by
  cases origin with
  | none =>
    obtain ⟨content, rfl⟩ := h
    cases hf
  | some param =>
    obtain ⟨e, h⟩ := h
    cases param with
    | text n required form =>
      obtain ⟨content, -, h⟩ := validate_text_eq_ok.mp h
      exact text_of_readText h hf
    | markup n required =>
      cases h
      cases hf
    | list n required item =>
      obtain ⟨items, rfl, -⟩ := validate_list_eq_ok h
      cases hf
    | record n required fields =>
      obtain ⟨-, values, rfl, -⟩ := validate_record_eq_ok.mp h
      obtain ⟨field, child, hfield, hchild⟩ := field_of_validate_record h hf
      show Fits ctx (fields.find? (·.name == name)) inner
      rw [hfield]
      exact ⟨child, hchild⟩

theorem descend? {origin : Option Param} {value inner : Value} {names : List String} (h : Fits ctx origin value)
    (hd : value.descend? names = some inner) : Fits ctx (origin.bind (·.descend? names)) inner := by
  induction names generalizing origin value with
  | nil =>
    cases hd
    cases origin with
    | none => exact h
    | some param => exact h
  | cons name names ih =>
    unfold Value.descend? at hd
    split at hd
    · rename_i field hf
      have hstep : origin.bind (·.descend? (name :: names)) =
          (origin.bind (·.field? name)).bind (·.descend? names) := by
        cases origin with
        | none => rfl
        | some param =>
          show param.descend? (name :: names) = (param.field? name).bind (·.descend? names)
          rw [Param.descend?]
          cases param.field? name <;> rfl
      rw [hstep]
      exact ih (h.field? hf) hd
    · cases hd

/-- A list has been validated against the declaration of a list, and its items, one for each node that carries
    content, against the declaration of its items, from elements of that name. -/
theorem list {origin : Option Param} {items : List Value} (h : Fits ctx origin (.list items)) :
    ∃ name required item e, origin = some (.list name required item) ∧
      (Param.list name required item).validate ctx e = .ok (.list items) := by
  cases origin with
  | none =>
    obtain ⟨content, h⟩ := h
    cases h
  | some param =>
    obtain ⟨e, h⟩ := h
    cases param with
    | text n required form =>
      obtain ⟨content, -, h⟩ := validate_text_eq_ok.mp h
      exact absurd h readText_ne_list
    | markup n required => cases h
    | list n required item => exact ⟨n, required, item, e, rfl, h⟩
    | record n required fields =>
      obtain ⟨-, values, h, -⟩ := validate_record_eq_ok.mp h
      cases h

end Fits

/-! ### Paths that a declaration promises -/

/-- The names of the fields of a date. -/
def dateFields : List String :=
  ["text", "year", "month", "day", "month-name"]

/-- The names lead through declared fields, the last one perhaps into a date. -/
inductive Leads : Param → List String → Prop
  | here (param : Param) : Leads param []
  | field {param inner : Param} {name : String} {names : List String} (h : param.field? name = some inner)
      (rest : inner.Leads names) : Leads param (name :: names)
  | date {name field : String} {required : Bool} (h : field ∈ dateFields) : Leads (.text name required .date) [field]

theorem lookup_of_validate_record {name field : String} {required : Bool} {fields : List Param} {inner : Param}
    {e : Element} {value : Value} (h : (record name required fields).validate ctx e = .ok value)
    (hf : fields.find? (·.name == field) = some inner) :
    ∃ found child, value.field? field = some found ∧ inner.validate ctx child = .ok found := by
  obtain ⟨entries, values, rfl, -, -, hv⟩ := validate_record_eq_ok.mp h
  have hname : inner.name = field := by
    have := List.find?_some hf
    exact eq_of_beq this
  obtain ⟨entry, -, -, hentry⟩ := exists_of_forall₂ hv (List.mem_of_find?_eq_some hf)
  have hl : values.lookup field = some entry.2 := by
    rw [lookup_arranged hv, hf, ← hname, hentry]
    rfl
  obtain ⟨param, child, hparam, hchild⟩ := field_of_validate_record h hl
  cases hf.symm.trans hparam
  exact ⟨entry.2, child, hl, hchild⟩

theorem field?_dateValue {text name : String} (date : Calendar.Date) (h : name ∈ dateFields) :
    ∃ found, (dateValue text date).field? name = some found := by
  simp only [dateFields, List.mem_cons, List.not_mem_nil, or_false] at h
  rcases h with rfl | rfl | rfl | rfl | rfl
  all_goals exact ⟨_, rfl⟩

/-- Whatever has been validated against a declaration can be followed along the paths that it promises. -/
theorem Leads.descend? {param : Param} {names : List String} (h : param.Leads names) {e : Element} {value : Value}
    (hv : param.validate ctx e = .ok value) : ∃ inner, value.descend? names = some inner := by
  induction h generalizing e value with
  | here => exact ⟨value, rfl⟩
  | @field param inner name names hf _ ih =>
    cases param with
    | record n required fields =>
      obtain ⟨found, child, hfound, hchild⟩ := lookup_of_validate_record hv hf
      obtain ⟨result, hresult⟩ := ih hchild
      exact ⟨result, by rw [Value.descend?, hfound]; exact hresult⟩
    | _ => cases hf
  | date h =>
    obtain ⟨content, -, hread⟩ := validate_text_eq_ok.mp hv
    cases readText_eq_ok.mp hread with
    | @date _ date =>
      obtain ⟨found, hfound⟩ := field?_dateValue date h
      exact ⟨found, by rw [Value.descend?, hfound]; rfl⟩

end Param
end Letterpress
