import Letterpress.Proofs.Template.Binding
import Letterpress.Proofs.Template.Fault

/-! Where the lists come from that loops run over. Values are found by scopes and declarations by name. The
    two agree wherever a loop is reached, if the names that a template declares are distinct: the declaration
    that the path of a list leads to is the one that the list was validated against. -/

namespace Letterpress
namespace Expansion
open Markup (Node Element Head)

variable {t : Template} {ctx : Context}

/-! ### Origins -/

/-- The declaration that the value of each name was validated against; the numbers of iterations have none. -/
abbrev Origins := String → Option Param

/-- The declaration that what a path leads to was validated against. -/
def Origins.path? (o : Origins) : List String → Option Param
  | [] => none
  | name :: fields => (o name).bind (·.descend? fields)

/-- The origins in an iteration over the list that the path leads to. -/
def Origins.iteration (o : Origins) (path : List String) (index item : String) : Origins := fun name =>
  if name = item then (o.path? path).bind Param.item? else if name = index then none else o name

/-- Every value was validated against its origin, and the origins are declarations of the template, each under
    its own name. -/
structure Origins.Of (t : Template) (ctx : Context) (o : Origins) (scope : Scope) : Prop where
  fits : ∀ name value, scope.get? name = some value → Param.Fits ctx (o name) value
  declared : ∀ name param, o name = some param → param ∈ t.declared ∧ param.name = name

theorem origins_ofParams {e : Element} {bound : Layer} (hb : t.bind ctx e = .ok bound) :
    Origins.Of t ctx t.param? (Scope.ofParams bound) where
  fits _ _ h := by
    obtain ⟨param, hp, hfits⟩ := t.fits_of_bind hb h
    rw [hp]
    exact hfits
  declared _ _ h := ⟨Template.declared_of_param? h, Template.name_of_param? h⟩

namespace Origins.Of

variable {o : Origins} {scope : Scope}

theorem lookup? (ho : o.Of t ctx scope) {path : List String} {value : Value} (h : scope.lookup? path = some value) :
    Param.Fits ctx (o.path? path) value := by
  cases path with
  | nil => cases h
  | cons name fields =>
    obtain ⟨found, hf, hd⟩ := Option.bind_eq_some_iff.mp h
    exact (ho.fits name found hf).descend? hd

/-- The path of a list leads to the declaration it was validated against. -/
theorem declaration?_eq (ho : o.Of t ctx scope) (hd : t.Distinct) {path : List String} {param : Param}
    (h : o.path? path = some param) : t.declaration? path = some param := by
  cases path with
  | nil => cases h
  | cons name fields =>
    obtain ⟨origin, horigin, hdescend⟩ := Option.bind_eq_some_iff.mp h
    obtain ⟨hmem, rfl⟩ := ho.declared name origin horigin
    rw [hd.declaration?_eq hmem, hdescend]

theorem mem_declared (ho : o.Of t ctx scope) {path : List String} {param : Param} (h : o.path? path = some param) :
    param ∈ t.declared := by
  cases path with
  | nil => cases h
  | cons name fields =>
    obtain ⟨origin, horigin, hdescend⟩ := Option.bind_eq_some_iff.mp h
    exact Param.mem_declaredIn_trans (Param.mem_declared_of_descend? hdescend) (ho.declared name origin horigin).1

/-- What a loop runs over was validated against the declaration that its path leads to. -/
theorem list (ho : o.Of t ctx scope) (hd : t.Distinct) {path : List String} {items : List Value}
    (h : scope.lookup? path = some (.list items)) : ∃ name required item supplied,
      o.path? path = some (.list name required item) ∧ t.declaration? path = some (.list name required item) ∧
      (Param.list name required item).validate ctx supplied = .ok (.list items) := by
  obtain ⟨name, required, item, supplied, horigin, hv⟩ := (ho.lookup? h).list
  exact ⟨name, required, item, supplied, horigin, ho.declaration?_eq hd horigin, hv⟩

/-- A loop binds the items of its list under the name of their declaration, which they were validated against. -/
theorem item (ho : o.Of t ctx scope) (hd : t.Distinct) {path : List String} {items : List Value}
    (h : scope.lookup? path = some (.list items)) {list item : String} {e : Element}
    (hn : itemName t e list path = .ok item) : ∃ spec ∈ t.declared, spec.name = item ∧
      (o.path? path).bind Param.item? = some spec ∧ (t.declaration? path).bind Param.item? = some spec ∧
      ∀ value ∈ items, Param.Fits ctx (some spec) value := by
  obtain ⟨name, required, spec, supplied, horigin, hdecl, hvalid⟩ := ho.list hd h
  rw [itemName, hdecl] at hn
  refine ⟨spec, Param.mem_declaredIn_trans (Param.mem_declared_of_item? rfl) (ho.mem_declared horigin), Except.ok.inj hn,
    ?_, ?_, Param.fits_of_mem_items hvalid⟩
  · rw [horigin]
    rfl
  · rw [hdecl]
    rfl

theorem iteration (ho : o.Of t ctx scope) (hd : t.Distinct) {path : List String} {items : List Value}
    (h : scope.lookup? path = some (.list items)) {list index item : String} {e : Element} {number : Nat} {value : Value}
    (hn : itemName t e list path = .ok item) (hv : value ∈ items) :
    (o.iteration path index item).Of t ctx (iterationScope scope index item number value) := by
  -- The item is bound last: its name counts before that of the number, and both before what is bound around the loop.
  obtain ⟨spec, hmem, hname, hspec, -, hfits⟩ := ho.item hd h hn
  refine ⟨fun other found hf => ?_, fun other param hp => ?_⟩
  · rw [get?_iterationScope] at hf
    unfold Origins.iteration
    split at hf
    · rename_i heq
      cases hf
      rw [if_pos heq, hspec]
      exact hfits _ hv
    · rename_i hne
      rw [if_neg hne]
      split at hf
      · rename_i heq
        cases hf
        rw [if_pos heq]
        exact ⟨_, rfl⟩
      · rename_i hne
        rw [if_neg hne]
        exact ho.fits other found hf
  · unfold Origins.iteration at hp
    split at hp
    · rename_i heq
      cases hspec.symm.trans hp
      exact ⟨hmem, hname.trans heq.symm⟩
    · split at hp
      · cases hp
      · exact ho.declared other param hp

end Origins.Of

/-! ### Loops that are reached -/

/-- To run the actions of the nodes is to come to this loop in the inner scope, whether or not what comes before
    it succeeds. Both scopes come with the origins of their values. -/
inductive Visits (t : Template) (ctx : Context) (origins : Origins) (inner : Scope) (loop : Element) :
    Origins → Scope → List Node → Prop
  | here {nodes : List Node} (mem : loop.toNode ∈ nodes) (tag : Action.ofTag? loop.name = some .forEach) :
      Visits t ctx origins inner loop origins inner nodes
  | inside {o : Origins} {scope : Scope} {head : Head} {children nodes : List Node}
      (mem : .element head children ∈ nodes) (tag : Action.ofTag? head.name = none)
      (h : Visits t ctx origins inner loop o scope children) : Visits t ctx origins inner loop o scope nodes
  | branch {o : Origins} {scope : Scope} {head label : Head} {children body nodes : List Node}
      (mem : .element head children ∈ nodes) (tag : Action.ofTag? head.name = some .choose)
      (hk : choiceKey ctx ⟨head, children⟩ = .ok label.name) (hb : .element label body ∈ children)
      (h : Visits t ctx origins inner loop o scope body) : Visits t ctx origins inner loop o scope nodes
  | iteration {o : Origins} {scope : Scope} {head : Head} {children body nodes : List Node} {list item : String}
      {items : List Value} {number : Nat} {value : Value} (mem : .element head children ∈ nodes)
      (tag : Action.ofTag? head.name = some .forEach) (hl : loopList ⟨head, children⟩ = .ok list)
      (hi : scope.lookup? (Text.split (· == '.') list) = some (.list items))
      (hn : itemName t ⟨head, children⟩ list (Text.split (· == '.') list) = .ok item)
      (hv : items[number]? = some value)
      (hm : substitute t (iterationScope scope (loopIndex ⟨head, children⟩) item (1 + number) value) children = .ok body)
      (h : Visits t ctx origins inner loop (o.iteration (Text.split (· == '.') list) (loopIndex ⟨head, children⟩) item)
        (iterationScope scope (loopIndex ⟨head, children⟩) item (1 + number) value) body) :
      Visits t ctx origins inner loop o scope nodes

theorem Visits.origins {origins o : Origins} {inner scope : Scope} {loop : Element} {nodes : List Node}
    (h : Visits t ctx origins inner loop o scope nodes) (hd : t.Distinct) (ho : o.Of t ctx scope) :
    origins.Of t ctx inner := by
  induction h with
  | here => exact ho
  | inside _ _ _ ih => exact ih ho
  | branch _ _ _ _ _ ih => exact ih ho
  | iteration _ _ _ hi hn hv _ _ ih => exact ih (ho.iteration hd hi hn (List.mem_of_getElem? hv))

/-- A loop in a scope whose values have origins finds the name of its items, and so do all loops inside it. -/
theorem carries_origins {P : Error → Prop} (hd : t.Distinct) : Carries t P fun scope => ∃ o : Origins, o.Of t ctx scope := by
  rintro scope e list items ⟨o, ho⟩ _ hi
  have hlookup := items?_eq_some.mp hi
  obtain ⟨name, required, item, supplied, -, hdecl, -⟩ := ho.list hd hlookup
  refine ⟨?_, fun found number value hv hn => ⟨_, ho.iteration hd hlookup hn hv⟩⟩
  rw [itemName, hdecl]
  exact .ok _

/-- Where the names that a template declares are distinct, the list that a loop runs over was validated against
    the declaration that its path leads to, and each item from an element of the name that it is bound to. So
    no application fails for want of that declaration. -/
theorem lists_agree {t : Template} (hd : t.Distinct) (ctx : Context) (e : Element) :
    (∀ bound nodes o scope loop list items, t.bind ctx e = .ok bound →
      substitute t (Scope.ofParams bound) t.content.children = .ok nodes →
      Visits t ctx o scope loop t.param? (Scope.ofParams bound) nodes → loopList loop = .ok list →
      scope.lookup? (Text.split (· == '.') list) = some (.list items) →
      ∃ name required item supplied,
        o.path? (Text.split (· == '.') list) = some (.list name required item) ∧
        t.declaration? (Text.split (· == '.') list) = some (.list name required item) ∧
        (Param.list name required item).validate ctx supplied = .ok (.list items) ∧
        RunsOver t scope loop items item.name ∧
        List.Forall₂ (fun node value => ∃ child, node.element? = some child ∧ child.name = item.name ∧
          item.validate ctx child = .ok value) supplied.significant items) ∧
    ∀ list markup, t.apply ctx e ≠ .error (.action .forEach (.notDeclaredAsList list) markup) ∧
      t.apply ctx e ≠ .error (.action .forEach (.undeclaredList list) markup) := by
  refine ⟨fun bound nodes o scope loop list items hb _ hvisit hl hi => ?_, fun list markup => ?_⟩
  · have ho := hvisit.origins hd (origins_ofParams hb)
    obtain ⟨name, required, item, supplied, horigin, hdecl, hvalid⟩ := ho.list hd hi
    obtain ⟨items', hitems, hforall⟩ := Param.validate_list_eq_ok hvalid
    cases hitems
    refine ⟨name, required, item, supplied, horigin, hdecl, hvalid, ⟨list, hl, items?_eq_some.mpr hi, ?_⟩, hforall⟩
    rw [itemName, hdecl]
  · -- No other fault is one of these two, and those of a loop without declaration never come up.
    have hfails : FailsWith (fun fault => ∀ list markup, fault ≠ .action .forEach (.notDeclaredAsList list) markup ∧
        fault ≠ .action .forEach (.undeclaredList list) markup) (t.apply ctx e) := by
      refine t.fails_apply ?_ ?_ e (carries_origins hd) fun bound hb => ⟨_, origins_ofParams hb⟩
      · exact ⟨fun _ _ _ _ _ _ => ⟨nofun, nofun⟩, fun _ _ _ _ _ => ⟨nofun, nofun⟩, fun _ _ _ _ => ⟨nofun, nofun⟩⟩
      · exact ⟨fun _ _ _ _ => ⟨nofun, nofun⟩, fun _ _ _ _ => ⟨nofun, nofun⟩, fun _ _ _ => ⟨nofun, nofun⟩,
          fun _ _ => ⟨nofun, nofun⟩⟩
    exact ⟨fun h => (hfails _ h list markup).1 rfl, fun h => (hfails _ h list markup).2 rfl⟩

/-- Accounts with the dates of their entries. The number of an account hides the list of all of them. -/
def ledger : Template where
  name := "ledger"
  params := [.list "accounts" true (.record "account" true
    [.text "owner" true .generic, .list "entries" true (.text "entry" true .date)])]
  content := ⟨{ name := "content" },
    [.element { name := "ForEach", attributes := [("list", "accounts"), ("i", "accounts")] }
      [.element { name := "ForEach", attributes := [("list", "account.entries")] } [.text "{{entry.year}}"]]]⟩
  formulas := [("entry.year", .var ["entry", "year"])]

def ledgerInstance : Element :=
  ⟨{ name := "ledger" }, [.element { name := "accounts" } [.element { name := "account" }
    [.element { name := "owner" } [.text "a"],
      .element { name := "entries" } [.element { name := "entry" } [.text "2024-02-29"]]]]]⟩

def ledgerDate : Value :=
  Param.dateValue "2024-02-29" ⟨2024, 2, 29, by decide, by decide, by decide⟩

def ledgerAccount : Value :=
  .record [("owner", .text "a"), ("entries", .list [ledgerDate])]

def ledgerScope : Scope :=
  Scope.ofParams [("accounts", .list [ledgerAccount])]

/-- The loop over the entries of an account. -/
def ledgerLoop : Element :=
  ⟨{ name := "ForEach", attributes := [("list", "account.entries")] }, [.text "{{entry.year}}"]⟩

theorem ledger_distinct : ledger.Distinct := by
  decide

theorem ledger_entries_agree : ∃ name required item supplied,
    ledger.declaration? ["account", "entries"] = some (.list name required item) ∧
    (Param.list name required item).validate emptySite supplied = .ok (.list [ledgerDate]) ∧
    RunsOver ledger (iterationScope ledgerScope "accounts" "account" 1 ledgerAccount) ledgerLoop [ledgerDate] item.name ∧
    ledger.apply emptySite ledgerInstance ≠
      .error (.action .forEach (.undeclaredList "account.entries") ledgerLoop.outer) := by
  have hvisit : Visits ledger emptySite (Origins.iteration ledger.param? ["accounts"] "accounts" "account")
      (iterationScope ledgerScope "accounts" "account" 1 ledgerAccount) ledgerLoop ledger.param? ledgerScope
      ledger.content.children :=
    @Visits.iteration _ _ _ _ _ _ _ { name := "ForEach", attributes := [("list", "accounts"), ("i", "accounts")] } _
      [ledgerLoop.toNode] _ "accounts" "account" _ 0 _ List.mem_cons_self rfl rfl rfl rfl rfl
      (eq_ok_of_toOption (by decide +kernel)) (.here List.mem_cons_self rfl)
  have hbind : ledger.bind emptySite ledgerInstance = .ok ledgerScope.outermost := rfl
  obtain ⟨hlists, hfaults⟩ := lists_agree ledger_distinct emptySite ledgerInstance
  obtain ⟨name, required, item, supplied, -, hdecl, hvalid, hover, -⟩ := hlists _ _ _ _ _ "account.entries" [ledgerDate]
    hbind (eq_ok_of_toOption (by decide +kernel)) hvisit rfl rfl
  exact ⟨name, required, item, supplied, hdecl, hvalid, hover, (hfaults _ _).2⟩

end Expansion
end Letterpress
