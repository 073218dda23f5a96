import Letterpress.Proofs.Param.Fits
import Letterpress.Proofs.Template.Declared
import Letterpress.Template.Binding

/-! What an instance binds: each name to a value that has been validated against the parameter of that name,
    and the name of each required parameter. -/

namespace Letterpress
open Markup (Node Element)

theorem Scope.get?_ofParams (bound : Layer) (name : String) : (Scope.ofParams bound).get? name = bound.lookup name := by
  cases h : bound.lookup name <;> simp [Scope.ofParams, Scope.get?, Scope.layers, h]

namespace Template

variable {t : Template} {ctx : Context} {e : Element} {bound : Layer}

/-- What an element of an instance supplies: a value for the parameter of its name, if there is one. -/
def read? (t : Template) (ctx : Context) (child : Element) : Option (Except Error Value) :=
  (t.param? child.name).map (·.validate ctx child)

/-- Parameters are bound as the fields of a record are read; only the errors are others. -/
theorem bindNodes_eq_ok_iff {param : Param} {before : Layer} {nodes : List Node} :
    t.bindNodes ctx e before nodes = .ok bound ↔ param.readFields e (t.read? ctx) before nodes = .ok bound := by
  induction nodes generalizing before with
  | nil => rfl
  | cons node nodes ih =>
    unfold bindNodes Param.readFields
    cases node.element? with
    | none => constructor <;> rintro ⟨⟩
    | some supplied =>
      cases hp : t.param? supplied.name with
      | none => simp [read?, hp]
      | some declared =>
        simp only [read?, hp, Option.map_some, name_of_param? hp]
        split
        · constructor <;> rintro ⟨⟩
        · simp only [bind_eq_ok, ih]

theorem bindNodes_eq_ok {nodes : List Node} : t.bindNodes ctx e [] nodes = .ok bound ↔
    Param.Supplied (t.read? ctx) nodes bound ∧ (bound.map Prod.fst).Nodup := by
  have hnil : (([] : Layer).map Prod.fst).Nodup := List.nodup_nil
  rw [@bindNodes_eq_ok_iff t ctx e bound (.markup t.name false), Param.readFields_eq_ok hnil]
  constructor
  · rintro ⟨entries, hs, hd, hbound⟩
    rw [List.nil_append] at hd hbound
    exact hbound ▸ ⟨hs, hd⟩
  · rintro ⟨hs, hd⟩
    exact ⟨bound, hs, hd, rfl⟩

theorem bind_eq_ok_iff : t.bind ctx e = .ok bound ↔
    t.bindNodes ctx e [] e.significant = .ok bound ∧ t.firstMissing? bound = none := by
  unfold bind
  constructor
  · intro h
    obtain ⟨found, hf, h⟩ := bind_eq_ok.mp h
    split at h
    · cases h
    · rename_i hmissing
      cases h
      exact ⟨hf, hmissing⟩
  · rintro ⟨hf, hmissing⟩
    refine bind_eq_ok.mpr ⟨bound, hf, ?_⟩
    rw [hmissing]
    rfl

/-- Whatever is bound has been supplied by an element for the parameter of its name. -/
theorem supplied_of_bind (h : t.bind ctx e = .ok bound) {name : String} {value : Value} (hm : (name, value) ∈ bound) :
    ∃ param child, t.param? name = some param ∧ child.toNode ∈ e.significant ∧ child.name = name ∧
      param.validate ctx child = .ok value := by
  obtain ⟨hs, -⟩ := bindNodes_eq_ok.mp (bind_eq_ok_iff.mp h).1
  obtain ⟨child, hchild, rfl, hread⟩ := hs.of_mem hm
  obtain ⟨param, hparam, hvalue⟩ := Option.map_eq_some_iff.mp hread
  exact ⟨param, child, hparam, hchild, rfl, hvalue⟩

/-- Every name is bound to a value of the parameter of this name. -/
theorem fits_of_bind (h : t.bind ctx e = .ok bound) {name : String} {value : Value}
    (hl : (Scope.ofParams bound).get? name = some value) :
    ∃ param, t.param? name = some param ∧ Param.Fits ctx (some param) value := by
  rw [Scope.get?_ofParams] at hl
  obtain ⟨param, child, hparam, -, -, hvalue⟩ := supplied_of_bind h (mem_of_lookup hl)
  exact ⟨param, hparam, child, hvalue⟩

/-- Every required parameter is bound. -/
theorem bound_of_required (h : t.bind ctx e = .ok bound) {name : String} {param : Param}
    (hp : t.param? name = some param) (hr : param.required = true) :
    ∃ value, (Scope.ofParams bound).get? name = some value := by
  have hnone := List.find?_eq_none.mp (bind_eq_ok_iff.mp h).2 param (List.mem_of_find?_eq_some hp)
  rw [name_of_param? hp, hr, Bool.true_and, Option.isNone_iff_eq_none] at hnone
  rw [Scope.get?_ofParams]
  exact Option.ne_none_iff_exists'.mp hnone

end Template
end Letterpress
