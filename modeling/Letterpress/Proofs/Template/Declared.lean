import Letterpress.Proofs.Table
import Letterpress.Template.Basic

/-! The declarations of a template: its parameters and all that is declared inside them, at any depth. Where
    their names are distinct, a path that starts at the name of a declaration leads into that one. -/

namespace Letterpress
namespace Param

mutual

/-- The declaration itself and all inside it, each one before those inside it. -/
def declared : Param → List Param
  | text name required form => [text name required form]
  | markup name required => [markup name required]
  | list name required item => list name required item :: item.declared
  | record name required fields => record name required fields :: declaredIn fields

/-- The declarations and all inside them, in order. -/
def declaredIn : List Param → List Param
  | [] => []
  | param :: params => param.declared ++ declaredIn params

end

mutual

theorem find?_eq (name : String) : ∀ param : Param, param.find? name = param.declared.find? (·.name == name)
  | text n _ _ | markup n _ => by
    by_cases h : n = name
    · simp [find?, declared, Param.name, h]
    · simp [find?, declared, Param.name, h]
  | list n _ item => by
    by_cases h : n = name
    · simp [find?, declared, Param.name, h]
    · simp [find?, declared, Param.name, h, find?_eq name item]
  | record n _ fields => by
    by_cases h : n = name
    · simp [find?, declared, Param.name, h]
    · simp [find?, declared, Param.name, h, findIn?_eq name fields]

/-- To search some declarations is to take the first of the name among all of them. -/
theorem findIn?_eq (name : String) : ∀ params : List Param,
    findIn? name params = (declaredIn params).find? (·.name == name)
  | [] => rfl
  | param :: params => by
    rw [findIn?, find?_eq name param, findIn?_eq name params, declaredIn, List.find?_append]
    cases param.declared.find? (·.name == name) <;> rfl

end

theorem mem_declared_self (param : Param) : param ∈ param.declared := by
  cases param <;> simp [declared]

theorem mem_declaredIn {param : Param} {params : List Param} :
    param ∈ declaredIn params ↔ ∃ p ∈ params, param ∈ p.declared := by
  induction params with
  | nil => simp [declaredIn]
  | cons p params ih => simp [declaredIn, ih]

mutual

theorem mem_declared_trans {a b : Param} (hb : b ∈ a.declared) : ∀ {c : Param}, a ∈ c.declared → b ∈ c.declared
  | text .., h | markup .., h => by
    rw [declared, List.mem_singleton] at h
    exact h ▸ hb
  | list _ _ item, h => by
    rw [declared, List.mem_cons] at h
    rcases h with rfl | h
    · exact hb
    · exact List.mem_cons_of_mem _ (mem_declared_trans hb h)
  | record _ _ fields, h => by
    rw [declared, List.mem_cons] at h
    rcases h with rfl | h
    · exact hb
    · exact List.mem_cons_of_mem _ (mem_declaredIn_trans hb h)

theorem mem_declaredIn_trans {a b : Param} (hb : b ∈ a.declared) : ∀ {params : List Param},
    a ∈ declaredIn params → b ∈ declaredIn params
  | param :: params, h => by
    rw [declaredIn, List.mem_append] at h ⊢
    rcases h with h | h
    · exact Or.inl (mem_declared_trans hb h)
    · exact Or.inr (mem_declaredIn_trans hb h)

end

theorem mem_declaredIn_of_mem {param : Param} {params : List Param} (h : param ∈ params) : param ∈ declaredIn params :=
  mem_declaredIn.mpr ⟨param, h, param.mem_declared_self⟩

/-- The declaration of the items, if it is one of a list. -/
def item? : Param → Option Param
  | list _ _ item => some item
  | _ => none

theorem mem_declared_of_item? {param item : Param} (h : param.item? = some item) : item ∈ param.declared := by
  cases param with
  | list name required found =>
    cases h
    exact List.mem_cons_of_mem _ item.mem_declared_self
  | _ => cases h

theorem mem_declared_of_field? {param field : Param} {name : String} (h : param.field? name = some field) :
    field ∈ param.declared := by
  cases param with
  | record n required fields => exact List.mem_cons_of_mem _ (mem_declaredIn_of_mem (List.mem_of_find?_eq_some h))
  | _ => cases h

theorem mem_declared_of_descend? {param inner : Param} {names : List String} (h : param.descend? names = some inner) :
    inner ∈ param.declared := by
  induction names generalizing param with
  | nil =>
    cases h
    exact inner.mem_declared_self
  | cons name names ih =>
    unfold descend? at h
    split at h
    · rename_i field hf
      exact mem_declared_trans (ih h) (mem_declared_of_field? hf)
    · cases h

end Param

namespace Template

/-- All that the template declares, at any depth. -/
def declared (t : Template) : List Param :=
  Param.declaredIn t.params

/-- No two declarations of the template have the same name, at whatever depths. -/
def Distinct (t : Template) : Prop :=
  (t.declared.map Param.name).Nodup

instance (t : Template) : Decidable t.Distinct :=
  inferInstanceAs (Decidable (List.Nodup _))

variable {t : Template}

theorem Distinct.eq_of_name (hd : t.Distinct) {a b : Param} (ha : a ∈ t.declared) (hb : b ∈ t.declared)
    (h : a.name = b.name) : a = b :=
  List.inj_on_of_nodup_map hd ha hb h

theorem name_of_param? {name : String} {param : Param} (h : t.param? name = some param) : param.name = name := by
  have := List.find?_some h
  exact eq_of_beq this

theorem declared_of_param? {name : String} {param : Param} (h : t.param? name = some param) : param ∈ t.declared :=
  Param.mem_declaredIn_of_mem (List.mem_of_find?_eq_some h)

/-- A path that starts at the name of a declaration leads into it. -/
theorem Distinct.declaration?_eq (hd : t.Distinct) {param : Param} (hp : param ∈ t.declared) (fields : List String) :
    t.declaration? (param.name :: fields) = param.descend? fields := by
  simp only [declaration?]
  split
  · rename_i found hf
    rw [hd.eq_of_name (declared_of_param? hf) hp (name_of_param? hf)]
  · have hfound : Param.findIn? param.name t.params = some param := by
      rw [Param.findIn?_eq]
      exact (find?_named hd).mpr ⟨hp, rfl⟩
    rw [hfound]
    rfl

end Template
end Letterpress
