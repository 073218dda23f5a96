import Letterpress.Proofs.Expansion.Fault

/-! Which errors an application of a template can end in: those of binding its parameters and those of
    expanding its body. -/

namespace Letterpress
open Markup (Node Element Head)

variable {P : Error → Prop} {ctx : Context}

namespace Param

/-- The errors with the property include all those of content that does not fit its declaration. -/
def Misfits (P : Error → Prop) : Prop :=
  ∀ param type fault markup, P (.content param type fault markup)

theorem fails_invalid (hp : Misfits P) {α : Type} (param : Param) (e : Element) (fault : ContentFault) :
    FailsWith P (.error (param.invalid e fault) : Except Error α) :=
  .error (hp _ _ _ _)

theorem fails_readItems (hp : Misfits P) {param : Param} {e : Element} {itemName : String} {readItem : Element → Except Error Value}
    (h : ∀ item, FailsWith P (readItem item)) (nodes : List Node) :
    FailsWith P (readItems param e itemName readItem nodes) := by
  induction nodes with
  | nil => exact .ok _
  | cons node nodes ih =>
    unfold readItems
    split
    · exact fails_invalid hp _ _ _
    · split
      · exact (h _).bind fun _ _ => ih.bind fun _ _ => .ok _
      · exact fails_invalid hp _ _ _

theorem fails_readFields (hp : Misfits P) {param : Param} {e : Element} {readField : Element → Option (Except Error Value)}
    (h : ∀ field result, readField field = some result → FailsWith P result) (found : List (String × Value))
    (nodes : List Node) : FailsWith P (readFields param e readField found nodes) := by
  induction nodes generalizing found with
  | nil => exact .ok _
  | cons node nodes ih =>
    unfold readFields
    split
    · exact fails_invalid hp _ _ _
    · split
      · exact fails_invalid hp _ _ _
      · rename_i result hr
        split
        · exact fails_invalid hp _ _ _
        · exact (h _ result hr).bind fun _ _ => ih _

theorem fails_arrange (hp : Misfits P) {param : Param} {e : Element} {found : List (String × Value)} (fields : List Param) :
    FailsWith P (arrange param e found fields) := by
  induction fields with
  | nil => exact .ok _
  | cons field fields ih =>
    unfold arrange
    split
    · exact fails_invalid hp _ _ _
    · exact ih.bind fun _ _ => .ok _

mutual

theorem fails_validate (hp : Misfits P) : ∀ (param : Param) (e : Element), FailsWith P (param.validate ctx e)
  | .text .., _ => .mapError fun _ => hp _ _ _ _
  | .markup .., _ => .ok _
  | .list _ _ item, _ => (fails_readItems hp (fails_validate hp item) _).bind fun _ _ => .ok _
  | .record _ _ fields, _ =>
    (fails_readFields hp (fun field _ h => fails_validateField hp field.name fields field h) _ _).bind fun _ _ =>
      (fails_arrange hp fields).bind fun _ _ => .ok _

theorem fails_validateField (hp : Misfits P) (name : String) : ∀ (fields : List Param) (e : Element)
    {result : Except Error Value}, validateField ctx name fields e = some result → FailsWith P result
  | field :: fields, e, result, h => by
    unfold validateField at h
    split at h
    · cases h
      exact fails_validate hp field e
    · exact fails_validateField hp name fields e h

end

end Param

namespace Template

/-- The errors with the property include those that binding parameters can end in. -/
structure Refusals (P : Error → Prop) : Prop where
  content : Param.Misfits P
  unknownElement : ∀ template tag markup, P (.unknownElement template tag markup)
  missingParameter : ∀ template param, P (.missingParameter template param)

theorem fails_bind (hp : Refusals P) (t : Template) (e : Element) : FailsWith P (t.bind ctx e) := by
  have hnodes : ∀ bound nodes, FailsWith P (t.bindNodes ctx e bound nodes) := by
    intro bound nodes
    induction nodes generalizing bound with
    | nil => exact .ok _
    | cons node nodes ih =>
      unfold bindNodes
      split
      · exact .error (hp.content ..)
      · split
        · exact .error (hp.unknownElement ..)
        · split
          · exact .error (hp.content ..)
          · exact (Param.fails_validate hp.content _ _).bind fun _ _ => ih _
  refine (hnodes _ _).bind fun bound _ => ?_
  split
  · exact .error (hp.missingParameter ..)
  · exact .ok _

theorem fails_apply {S : Scope → Prop} (hp : Refusals P) (hu : Expansion.Usual P) (t : Template) (e : Element)
    (hc : Expansion.Carries t P S) (hs : ∀ bound, t.bind ctx e = .ok bound → S (Scope.ofParams bound)) :
    FailsWith P (t.apply ctx e) := by
  refine (fails_bind hp t e).bind fun bound hb => ?_
  refine (Expansion.fails_substituteHead hu.formula _).bind fun _ _ => ?_
  exact (Expansion.fails_expand hu hc _ (hs bound hb) _).bind fun _ _ => .ok _

end Template
end Letterpress
