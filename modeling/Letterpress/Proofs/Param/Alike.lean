import Letterpress.Proofs.Param.Validation
import Letterpress.Proofs.Param.WellFormed
import Mathlib.Data.List.Perm.Basic

/-! Elements that differ in their layout only: in comments, in blank text around items and fields, and in the
    order of the fields of a record. One is accepted if and only if the other is, and for the same value. -/

namespace Letterpress
open Markup (Node Head Element)

/-- Two elements with the same head that are alike, or twice the same node that is not an element. -/
inductive Markup.Node.Alike (alike : Element → Element → Prop) : Node → Node → Prop
  | element {head : Head} {children children' : List Node} (h : alike ⟨head, children⟩ ⟨head, children'⟩) :
      Alike alike (.element head children) (.element head children')
  | leaf {node : Node} (h : node.element? = none) : Alike alike node node

namespace Param

mutual

/-- As supplied for the parameter, the elements differ in their layout only. Markup has none. -/
def Alike : Param → Element → Element → Prop
  | text .., e, e' => e.children.filter (!·.isComment) = e'.children.filter (!·.isComment)
  | markup .., e, e' => e = e'
  | list _ _ item, e, e' =>
    List.Forall₂ (Node.Alike fun child child' => child.name = item.name → item.Alike child child')
      e.significant e'.significant
  | record _ _ fields, e, e' =>
    ∃ nodes, e.significant.Perm nodes ∧ List.Forall₂ (Node.Alike (AlikeIn fields)) nodes e'.significant

/-- The elements are alike as supplied for whichever of the parameters has the name of the first. -/
def AlikeIn : List Param → Element → Element → Prop
  | [], _, _ => True
  | param :: params, e, e' => (e.name = param.name → param.Alike e e') ∧ AlikeIn params e e'

end

theorem alikeIn_iff {params : List Param} {e e' : Element} :
    AlikeIn params e e' ↔ ∀ param ∈ params, e.name = param.name → param.Alike e e' := by
  induction params with
  | nil => exact ⟨fun _ => List.forall_mem_nil _, fun _ => trivial⟩
  | cons param params ih => rw [AlikeIn, ih, List.forall_mem_cons]

theorem alikeIn_of_find? {params : List Param} (hd : (params.map name).Nodup) {e e' : Element} {param : Param}
    (hf : params.find? (·.name == e.name) = some param) (h : param.Alike e e') : AlikeIn params e e' := by
  refine alikeIn_iff.mpr fun other hm hname => ?_
  have hother : params.find? (·.name == e.name) = some other := (find?_named hd).mpr ⟨hm, hname.symm⟩
  cases hf.symm.trans hother
  exact h

/-! ### What nodes supply -/

section
variable {read : Element → Option (Except Error Value)} {nodes middle nodes' : List Node}

theorem Supplied.perm {entries : List (String × Value)} (h : Supplied read nodes entries) (hp : nodes.Perm nodes') :
    ∃ entries', entries.Perm entries' ∧ Supplied read nodes' entries' := by
  obtain ⟨entries', hs, hperm⟩ := List.perm_comp_forall₂ hp.symm h
  exact ⟨entries', hperm.symm, hs⟩

/-- Both lists of nodes supply the same, though in another order. -/
def SupplyAlike (read : Element → Option (Except Error Value)) (nodes nodes' : List Node) : Prop :=
  ∀ entries, Supplied read nodes entries → ∃ entries', entries.Perm entries' ∧ Supplied read nodes' entries'

theorem supplyAlike_of_perm (hp : nodes.Perm middle)
    (h : List.Forall₂ (Node.Alike fun child child' => ∀ value,
      read child = some (.ok value) ↔ read child' = some (.ok value)) middle nodes') :
    SupplyAlike read nodes nodes' ∧ SupplyAlike read nodes' nodes := by
  have hsame : ∀ entries, Supplied read middle entries ↔ Supplied read nodes' entries := fun entries => by
    refine forall₂_congr_left h fun node node' hnode entry => ?_
    cases hnode with
    | leaf hleaf => rfl
    | element hread =>
      simp only [Supplies, Node.element?, Option.some.injEq, exists_eq_left', hread, Element.name]
  constructor
  · intro entries hs
    obtain ⟨entries', hperm, hs'⟩ := hs.perm hp
    exact ⟨entries', hperm, (hsame entries').mp hs'⟩
  · intro entries' hs'
    exact Supplied.perm ((hsame entries').mpr hs') hp.symm

end

/-! ### Validation -/

variable {ctx : Context}

theorem validate_record_of_supplyAlike {name : String} {required : Bool} {fields : List Param} {e e' : Element}
    {value : Value} (hs : SupplyAlike (fun child => validateField ctx child.name fields child) e.significant e'.significant)
    (h : (record name required fields).validate ctx e = .ok value) :
    (record name required fields).validate ctx e' = .ok value := by
  rw [validate_record_eq_ok] at h ⊢
  obtain ⟨entries, values, rfl, hsupplied, hd, hv⟩ := h
  obtain ⟨entries', hperm, hsupplied'⟩ := hs entries hsupplied
  have hnames := hperm.map Prod.fst
  refine ⟨entries', values, rfl, hsupplied', hnames.nodup_iff.mp hd, hv.imp fun field entry h => ⟨h.1, ?_⟩⟩
  rw [lookup_perm hd hperm, h.2]

theorem validateField_of_alikeIn {fields : List Param} (hd : (fields.map Param.name).Nodup) {e e' : Element}
    (hname : e'.name = e.name) (h : AlikeIn fields e e')
    (hfields : ∀ field ∈ fields, field.Alike e e' → ∀ value,
      field.validate ctx e = .ok value ↔ field.validate ctx e' = .ok value) (value : Value) :
    validateField ctx e.name fields e = some (.ok value) ↔ validateField ctx e'.name fields e' = some (.ok value) := by
  rw [validateField_eq, validateField_eq, hname]
  cases hf : fields.find? (·.name == e.name) with
  | none => rfl
  | some field =>
    obtain ⟨hm, hfield⟩ := (find?_named hd).mp hf
    simp only [Option.map_some, Option.some.injEq]
    exact hfields field hm (alikeIn_iff.mp h field hm hfield.symm) value

mutual

theorem validate_of_alike : ∀ {param : Param} {e e' : Element}, param.WellFormed → param.Alike e e' → ∀ value,
    param.validate ctx e = .ok value ↔ param.validate ctx e' = .ok value
  | text name required form, e, e', _, h, value => by
    rw [Alike] at h
    rw [validate_text_eq_ok, validate_text_eq_ok, plainText, plainText, h]
  | markup name required, e, e', _, h, value => by
    rw [Alike] at h
    rw [h]
  | list name required item, e, e', hw, h, value => by
    cases hw with
    | list _ _ inside =>
      rw [Alike] at h
      rw [validate_list_eq_ok_iff, validate_list_eq_ok_iff]
      refine exists_congr fun items => and_congr_right fun _ => forall₂_congr_left h fun node node' hnode value => ?_
      cases hnode with
      | leaf hleaf => rfl
      | element halike =>
        simp only [Node.element?, Option.some.injEq, exists_eq_left']
        exact and_congr_right fun hitem => validate_of_alike inside (halike hitem) value
  | record name required fields, e, e', hw, h, value => by
    cases hw with
    | record _ _ _ distinct inside =>
      rw [Alike] at h
      -- The children may come in another order; what each supplies under its name is the same.
      obtain ⟨nodes, hp, hnodes⟩ := h
      have hsupply : List.Forall₂ (Node.Alike fun child child' => ∀ value,
          validateField ctx child.name fields child = some (.ok value) ↔
            validateField ctx child'.name fields child' = some (.ok value)) nodes e'.significant := by
        refine hnodes.imp fun _ _ hnode => ?_
        cases hnode with
        | leaf hleaf => exact .leaf hleaf
        | element halike =>
          exact .element (validateField_of_alikeIn distinct rfl halike fun field hf => fields_of_alike inside field hf)
      obtain ⟨hforth, hback⟩ := supplyAlike_of_perm hp hsupply
      exact ⟨validate_record_of_supplyAlike hforth, validate_record_of_supplyAlike hback⟩

theorem fields_of_alike : ∀ {fields : List Param}, (∀ field ∈ fields, field.WellFormed) → ∀ field ∈ fields,
    ∀ {e e' : Element}, field.Alike e e' → ∀ value, field.validate ctx e = .ok value ↔ field.validate ctx e' = .ok value
  | field :: fields, hw, found, hm, e, e', h, value => by
    obtain ⟨hfirst, hrest⟩ := List.forall_mem_cons.mp hw
    rcases List.mem_cons.mp hm with heq | hm
    · rw [heq] at h ⊢
      exact validate_of_alike hfirst h value
    · exact fields_of_alike hrest found hm h value

end

end Param
end Letterpress
