import Letterpress.Param.Declaration
import Letterpress.Proofs.Result
import Letterpress.Proofs.Template.Declared
import Letterpress.Proofs.Text.Blank

/-! Well-formed declarations. Whatever is read from the elements of a file has names without blanks at their
    ends, and the fields of a record have distinct names, at every depth. -/

namespace Letterpress
namespace Param
open Markup (Node Element)

/-- A name that can be declared: it is not empty and has no blanks at its ends. -/
def IsName (name : String) : Prop :=
  name ≠ "" ∧ Text.trim name = name

instance (name : String) : Decidable (IsName name) :=
  inferInstanceAs (Decidable (name ≠ "" ∧ Text.trim name = name))

/-- At every depth the names can be declared, and a record has fields, under distinct names. -/
inductive WellFormed : Param → Prop
  | text {name : String} (required : Bool) (form : TextForm) (hn : IsName name) : WellFormed (.text name required form)
  | markup {name : String} (required : Bool) (hn : IsName name) : WellFormed (.markup name required)
  | list {name : String} (required : Bool) {item : Param} (hn : IsName name) (inside : item.WellFormed) :
      WellFormed (.list name required item)
  | record {name : String} (required : Bool) {fields : List Param} (hn : IsName name) (some_field : fields ≠ [])
      (distinct : (fields.map Param.name).Nodup) (inside : ∀ field ∈ fields, field.WellFormed) :
      WellFormed (.record name required fields)

/-! ### Reading -/

theorem readHead_eq_ok {e : Element} {name : String} {required : Bool} {kind : Kind}
    (h : readHead e = .ok (name, required, kind)) :
    e.name = "param" ∧ name ≠ "" ∧ (∃ written, e.attribute? "name" = some written ∧ Text.trim written = name) ∧
      readRequired (e.attribute? "required") = .ok required ∧
      ∃ type, e.attribute? "type" = some type ∧ Kind.ofType type = .ok kind := by
  unfold readHead at h
  by_cases hparam : e.name = "param"
  · rw [hparam] at h
    cases hwritten : e.attribute? "name" with
    | none => simp [hwritten] at h
    | some written =>
      by_cases hempty : Text.trim written = ""
      · simp [hwritten, hempty, bind_eq_ok] at h
      · cases htype : e.attribute? "type" with
        | none => simp [hwritten, hempty, htype] at h
        | some type =>
          simp only [hwritten, hempty, htype, ne_eq, not_true_eq_false, if_false] at h
          obtain ⟨required', hr, h⟩ := bind_eq_ok.mp h
          obtain ⟨kind', hk, h⟩ := bind_eq_ok.mp h
          cases h
          exact ⟨hparam, hempty, ⟨written, rfl, rfl⟩, mapError_eq_ok.mp hr, type, rfl, mapError_eq_ok.mp hk⟩
  · simp [hparam, bind_eq_ok] at h

theorem isName_of_readHead {e : Element} {name : String} {required : Bool} {kind : Kind}
    (h : readHead e = .ok (name, required, kind)) : IsName name := by
  obtain ⟨-, hne, ⟨written, -, rfl⟩, -⟩ := readHead_eq_ok h
  exact ⟨hne, Text.trim_trim written⟩

/-- A declaration of a new name keeps the names distinct. -/
theorem distinct_concat {params : List Param} {param : Param} (hd : (params.map Param.name).Nodup)
    (hn : ¬params.any (·.name == param.name)) : ((params ++ [param]).map Param.name).Nodup := by
  rw [List.map_append, List.map_singleton, List.nodup_append]
  refine ⟨hd, List.nodup_singleton _, fun name hname other hother heq => hn ?_⟩
  obtain ⟨found, hfound, rfl⟩ := List.mem_map.mp hname
  exact List.any_eq_true.mpr ⟨found, hfound, beq_iff_eq.mpr (heq.trans (List.mem_singleton.mp hother))⟩

/-- Where the names are distinct, the name of a declaration is new when its turn comes. -/
theorem new_of_distinct {before after : List Param} {param : Param}
    (hd : ((before ++ param :: after).map Param.name).Nodup) : ¬before.any (·.name == param.name) := by
  rw [List.map_append, List.nodup_append] at hd
  simp only [List.any_eq_true, beq_iff_eq, not_exists, not_and]
  exact fun other hother => hd.2.2 _ (List.mem_map_of_mem hother) _ List.mem_cons_self

mutual

theorem wellFormed_of_ofNode {stray : Error} : ∀ {node : Node} {param : Param}, ofNode stray node = .ok param →
    param.WellFormed
  | .element head children, param, h => by
    unfold ofNode at h
    obtain ⟨⟨name, required, kind⟩, hhead, h⟩ := bind_eq_ok.mp h
    have hn := isName_of_readHead hhead
    cases kind with
    | text form =>
      cases h
      exact .text required form hn
    | markup =>
      cases h
      exact .markup required hn
    | list =>
      obtain ⟨item, hitem, h⟩ := bind_eq_ok.mp h
      cases h
      exact .list required hn (wellFormed_of_itemOf (fun _ h => by cases h) hitem)
    | record =>
      obtain ⟨fields, hfields, h⟩ := bind_eq_ok.mp h
      obtain ⟨hdistinct, hinside⟩ := wellFormed_of_fieldsOf (List.forall_mem_nil _) List.nodup_nil hfields
      dsimp only at h
      split at h
      · cases h
      · rename_i hsome
        cases h
        exact .record required hn (fun hnil => hsome (by rw [hnil]; rfl)) hdistinct hinside
  | .text _, _, h | .cdata _, _, h | .comment _, _, h | .instruction .., _, h => by cases h

theorem wellFormed_of_itemOf {name : String} {e : Element} : ∀ {nodes : List Node} {found : Option Param} {param : Param},
    (∀ item, found = some item → item.WellFormed) → itemOf name e found nodes = .ok param → param.WellFormed
  | [], found, param, hf, h => by
    cases found with
    | none => cases h
    | some item =>
      cases h
      exact hf _ rfl
  | node :: nodes, found, param, hf, h => by
    unfold itemOf at h
    split at h
    · exact wellFormed_of_itemOf hf h
    · split at h
      · cases h
      · obtain ⟨item, hitem, h⟩ := bind_eq_ok.mp h
        refine wellFormed_of_itemOf (fun found' hfound => ?_) h
        cases hfound
        exact wellFormed_of_ofNode hitem

theorem wellFormed_of_fieldsOf {name : String} : ∀ {nodes : List Node} {fields params : List Param},
    (∀ field ∈ fields, field.WellFormed) → (fields.map Param.name).Nodup → fieldsOf name fields nodes = .ok params →
    (params.map Param.name).Nodup ∧ ∀ param ∈ params, param.WellFormed
  | [], fields, params, hf, hd, h => by
    cases h
    exact ⟨hd, hf⟩
  | node :: nodes, fields, params, hf, hd, h => by
    unfold fieldsOf at h
    split at h
    · exact wellFormed_of_fieldsOf hf hd h
    · obtain ⟨field, hfield, h⟩ := bind_eq_ok.mp h
      dsimp only at h
      split at h
      · cases h
      · rename_i hnew
        have hwell := wellFormed_of_ofNode hfield
        exact wellFormed_of_fieldsOf (List.forall_mem_append.mpr ⟨hf, List.forall_mem_singleton.mpr hwell⟩)
          (distinct_concat hd hnew) h

end

theorem wellFormed_of_ofElement {e : Element} {param : Param} (h : ofElement e = .ok param) : param.WellFormed :=
  wellFormed_of_ofNode h

mutual

theorem wellFormed_of_mem_declared {param : Param} : ∀ {outer : Param}, outer.WellFormed → param ∈ outer.declared →
    param.WellFormed
  | text .., hw, h | markup .., hw, h => List.mem_singleton.mp h ▸ hw
  | list .., hw, h => by
    rcases List.mem_cons.mp h with heq | h
    · exact heq ▸ hw
    · cases hw with
      | list _ _ inside => exact wellFormed_of_mem_declared inside h
  | record .., hw, h => by
    rcases List.mem_cons.mp h with heq | h
    · exact heq ▸ hw
    · cases hw with
      | record _ _ _ _ inside => exact wellFormed_of_mem_declaredIn inside h

theorem wellFormed_of_mem_declaredIn {param : Param} : ∀ {params : List Param}, (∀ outer ∈ params, outer.WellFormed) →
    param ∈ declaredIn params → param.WellFormed
  | outer :: params, hw, h => by
    obtain ⟨hfirst, hrest⟩ := List.forall_mem_cons.mp hw
    rcases List.mem_append.mp h with h | h
    · exact wellFormed_of_mem_declared hfirst h
    · exact wellFormed_of_mem_declaredIn hrest h

end

end Param
end Letterpress
