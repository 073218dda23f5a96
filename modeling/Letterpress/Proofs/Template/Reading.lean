import Letterpress.Proofs.Result
import Letterpress.Template.Loading

/-! Which errors reading the templates of a file can end in: those of its document, of its declarations and of
    the formulas in its bodies. -/

namespace Letterpress
open Markup (Node Element Head)

variable {P : Error → Prop}

namespace Param

/-- The errors with the property include all those of a declaration. -/
def Misdeclared (P : Error → Prop) : Prop :=
  ∀ name fault, P (.schema name fault)

theorem fails_readHead (hp : Misdeclared P) (e : Element) : FailsWith P (readHead e) := by
  unfold readHead
  dsimp only
  split
  · exact .error (hp ..)
  · split
    · split
      · exact .error (hp ..)
      · split
        · exact (FailsWith.mapError fun _ => hp ..).bind fun _ _ => (FailsWith.mapError fun _ => hp ..).bind fun _ _ => .ok _
        · exact .error (hp ..)
    · exact .error (hp ..)

mutual

theorem fails_ofNode (hp : Misdeclared P) {stray : Error} (hs : P stray) : ∀ node : Node, FailsWith P (ofNode stray node)
  | .element head children => by
    unfold ofNode
    refine (fails_readHead hp _).bind fun ⟨name, required, kind⟩ _ => ?_
    cases kind with
    | text form => exact .ok _
    | markup => exact .ok _
    | list => exact (fails_itemOf hp name _ none children).bind fun _ _ => .ok _
    | record =>
      refine (fails_fieldsOf hp name [] children).bind fun fields _ => ?_
      split
      · exact .error (hp ..)
      · exact .ok _
  | .text _ | .cdata _ | .comment _ | .instruction .. => .error hs

theorem fails_itemOf (hp : Misdeclared P) (name : String) (e : Element) (found : Option Param) :
    ∀ nodes : List Node, FailsWith P (itemOf name e found nodes)
  | [] => by
    cases found with
    | none => exact .error (hp ..)
    | some item => exact .ok _
  | node :: nodes => by
    unfold itemOf
    split
    · exact fails_itemOf hp name e found nodes
    · split
      · exact .error (hp ..)
      · exact (fails_ofNode hp (hp ..) node).bind fun item _ => fails_itemOf hp name e (some item) nodes

theorem fails_fieldsOf (hp : Misdeclared P) (name : String) (fields : List Param) :
    ∀ nodes : List Node, FailsWith P (fieldsOf name fields nodes)
  | [] => .ok _
  | node :: nodes => by
    unfold fieldsOf
    split
    · exact fails_fieldsOf hp name fields nodes
    · refine (fails_ofNode hp (hp ..) node).bind fun field _ => ?_
      split
      · exact .error (hp ..)
      · exact fails_fieldsOf hp name _ nodes

end

end Param

namespace Template

/-- The errors with the property include all those of a file of templates. -/
structure Unreadable (P : Error → Prop) : Prop where
  declaration : Param.Misdeclared P
  formula : ∀ text fault, P (.formula text fault)
  document : ∀ fault, P (.document fault)

variable (hp : Unreadable P)
include hp

theorem fails_readParts (name : String) (parts : Parts) (nodes : List Node) : FailsWith P (readParts name parts nodes) := by
  induction nodes generalizing parts with
  | nil => exact .ok _
  | cons node nodes ih =>
    unfold readParts
    split
    · exact .error (hp.declaration ..)
    · split
      · refine (Param.fails_ofNode hp.declaration (hp.declaration ..) _).bind fun param _ => ?_
        split
        · exact .error (hp.declaration ..)
        · exact ih _
      · split
        · split
          · exact .error (hp.declaration ..)
          · exact ih _
        · exact .error (hp.declaration ..)

theorem fails_readFormulas (table : List (String × Formula)) (texts : List String) :
    FailsWith P (readFormulas table texts) := by
  induction texts generalizing table with
  | nil => exact .ok _
  | cons text texts ih =>
    unfold readFormulas
    split
    · exact ih _
    · split
      · exact ih _
      · exact .error (hp.formula ..)

theorem fails_ofElement (file : String) (e : Element) : FailsWith P (ofElement file e) := by
  unfold ofElement
  dsimp only
  split
  · exact .error (hp.declaration ..)
  · refine (fails_readParts hp _ _ _).bind fun parts _ => ?_
    split
    · exact (fails_readFormulas hp _ _).bind fun _ _ => .ok _
    · exact .error (hp.declaration ..)

theorem fails_ofNodes (file : String) (nodes : List Node) : FailsWith P (ofNodes file nodes) := by
  induction nodes with
  | nil => exact .ok _
  | cons node nodes ih =>
    unfold ofNodes
    split
    · exact .error (hp.declaration ..)
    · split
      · exact (fails_ofElement hp file _).bind fun _ _ => ih.bind fun _ _ => .ok _
      · exact .error (hp.declaration ..)

theorem fails_load (file text : String) : FailsWith P (load file text) := by
  unfold load
  split
  · exact .error (hp.document _)
  · rename_i root _
    unfold ofRoot
    split
    · cases he : ofElement file root with
      | error fault => exact .error (fails_ofElement hp file root fault he)
      | ok t => exact .ok _
    · split
      · exact fails_ofNodes hp file _
      · exact .error (hp.declaration ..)

end Template
end Letterpress
