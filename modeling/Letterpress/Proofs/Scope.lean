import Letterpress.Proofs.Table
import Letterpress.Scope

/-! Properties of all that a scope binds: of every text and every markup in it, at any depth of lists and
    records. Whatever a path leads to has them too. -/

namespace Letterpress
open Markup (Element)

variable {P : String → Prop} {Q : Element → Prop}

/-- Every text in the value has the first property and every markup the second one, at any depth. -/
inductive Value.Every (P : String → Prop) (Q : Element → Prop) : Value → Prop
  | text {content : String} (h : P content) : Every P Q (.text content)
  | markup {e : Element} (h : Q e) : Every P Q (.markup e)
  | list {items : List Value} (inside : ∀ value ∈ items, value.Every P Q) : Every P Q (.list items)
  | record {fields : List (String × Value)} (inside : ∀ name value, (name, value) ∈ fields → value.Every P Q) :
      Every P Q (.record fields)

/-- What any name stands for has the properties throughout. -/
def Scope.Every (P : String → Prop) (Q : Element → Prop) (s : Scope) : Prop :=
  ∀ name value, s.get? name = some value → value.Every P Q

namespace Value

theorem Every.mono {P' : String → Prop} {Q' : Element → Prop} {value : Value} (h : value.Every P Q)
    (hp : ∀ text, P text → P' text) (hq : ∀ e, Q e → Q' e) : value.Every P' Q' := by
  induction h with
  | text h => exact .text (hp _ h)
  | markup h => exact .markup (hq _ h)
  | list _ ih => exact .list ih
  | record _ ih => exact .record ih

theorem Every.descend? {value inner : Value} {names : List String} (h : value.Every P Q)
    (hd : value.descend? names = some inner) : inner.Every P Q := by
  induction names generalizing value with
  | nil =>
    cases hd
    exact h
  | cons name names ih =>
    unfold Value.descend? at hd
    split at hd
    · rename_i field hf
      refine ih ?_ hd
      cases h with
      | record inside => exact inside name field (mem_of_lookup hf)
      | _ => cases hf
    · cases hd

end Value

namespace Scope

theorem Every.lookup? {s : Scope} (h : s.Every P Q) {path : List String} {value : Value}
    (hl : s.lookup? path = some value) : value.Every P Q := by
  cases path with
  | nil => cases hl
  | cons name fields =>
    obtain ⟨found, hf, hd⟩ := Option.bind_eq_some_iff.mp hl
    exact (h name found hf).descend? hd

theorem get?_bind (s : Scope) (name : String) (value : Value) (other : String) :
    (s.bind name value).get? other = if other = name then some value else s.get? other := by
  obtain ⟨inner, outermost⟩ := s
  by_cases h : other = name
  · cases inner <;> simp [Scope.bind, get?, layers, h]
  · have hb : (other == name) = false := beq_eq_false_iff_ne.mpr h
    cases inner <;> simp [Scope.bind, get?, layers, h, List.findSome?_cons, List.lookup_cons, hb]

theorem get?_push (s : Scope) (name : String) : s.push.get? name = s.get? name := by
  simp [Scope.push, get?, layers, List.findSome?_cons]

theorem lookup?_singleton (s : Scope) (name : String) : s.lookup? [name] = s.get? name := by
  cases h : s.get? name with
  | none => simp [Scope.lookup?, h]
  | some value => simp [Scope.lookup?, h, Value.descend?]

end Scope
end Letterpress
