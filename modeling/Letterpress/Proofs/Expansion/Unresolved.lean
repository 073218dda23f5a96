import Letterpress.Proofs.Expansion.Lists
import Letterpress.Proofs.Template.Loaded
import Letterpress.Proofs.Template.WellScoped

/-! A well-scoped template leaves no marker behind. A pass in a scope resolves the markers that stand directly
    in it and leaves, inside further loops, only markers that are visible there; the pass in the scope of an
    iteration gets to them. What takes the place of a marker has no braces, and what is skipped is gone with
    its markers. -/

namespace Letterpress
open Markup (Node Element Head)
open Text (Unbraced)

namespace Expansion
open Template (Loop Visible Shaped textsIn textsOf)

variable {t : Template} {ctx : Context}

/-! ### Scopes inside loops -/

/-- The scope binds what is visible inside these loops: every required parameter, and the number and the item
    of each loop. What it binds is inert and comes from the declaration of its name. -/
structure Covers (t : Template) (ctx : Context) (loops : List Loop) (o : Origins) (scope : Scope) : Prop where
  origins : o.Of t ctx scope
  known : ∀ param ∈ t.declared, ∀ value, scope.get? param.name = some value → o param.name = some param
  inert : scope.Every Unbraced Element.Inert
  required : ∀ name param, t.param? name = some param → param.required = true → ∃ value, scope.get? name = some value
  index : ∀ loop ∈ loops, ∃ value, scope.get? loop.index = some value
  item : ∀ loop ∈ loops, ∀ item, loop.item = some item →
    item ∈ t.declared ∧ ∃ value, scope.get? item.name = some value

namespace Covers

variable {loops : List Loop} {o : Origins} {scope : Scope}

theorem plain (h : Covers t ctx loops o scope) : scope.Plain := by
  refine fun name value hl => (h.inert name value hl).mono (fun _ hu => hu) fun e he => ⟨he.inner, fun node hn => ?_⟩
  exact Template.plain_of_inert (he.actions node hn) (Template.forall_textsIn.mp he.texts node hn)

/-- What the name of a declaration is bound to can be followed along the paths that the declaration promises. -/
theorem lookup?_of_leads (h : Covers t ctx loops o scope) {param : Param} (hp : param ∈ t.declared) {value : Value}
    (hv : scope.get? param.name = some value) {fields : List String} (hl : param.Leads fields) :
    ∃ inner, scope.lookup? (param.name :: fields) = some inner := by
  have hfits := h.origins.fits param.name value hv
  rw [h.known param hp value hv] at hfits
  obtain ⟨e, hvalid⟩ := hfits
  obtain ⟨inner, hinner⟩ := hl.descend? hvalid
  exact ⟨inner, Option.bind_eq_some_iff.mpr ⟨value, hv, hinner⟩⟩

theorem lookup?_of_visible (h : Covers t ctx loops o scope) {path : List String} (hp : Visible t loops path) :
    ∃ value, scope.lookup? path = some value := by
  cases hp with
  | @required name param fields hp hr hl =>
    obtain ⟨value, hv⟩ := h.required name param hp hr
    obtain rfl := Template.name_of_param? hp
    exact h.lookup?_of_leads (Template.declared_of_param? hp) hv hl
  | @index loop mem =>
    obtain ⟨value, hv⟩ := h.index loop mem
    exact ⟨value, by rw [Scope.lookup?_singleton, hv]⟩
  | item mem hi hl =>
    obtain ⟨hmem, value, hv⟩ := h.item _ mem _ hi
    exact h.lookup?_of_leads hmem hv hl

theorem iteration (h : Covers t ctx loops o scope) (hd : t.Distinct) {head : Head} {children : List Node}
    (fresh : ∀ param ∈ t.declared, param.name ≠ (Loop.ofHead t head).index) {list item : String} {items : List Value}
    (hl : loopList ⟨head, children⟩ = .ok list) (hi : scope.lookup? (Text.split (· == '.') list) = some (.list items))
    (hn : itemName t ⟨head, children⟩ list (Text.split (· == '.') list) = .ok item) {number : Nat} {value : Value}
    (hv : value ∈ items) :
    Covers t ctx (Loop.ofHead t head :: loops)
      (o.iteration (Text.split (· == '.') list) (loopIndex ⟨head, children⟩) item)
      (iterationScope scope (loopIndex ⟨head, children⟩) item number value) := by
  have hindex : (Loop.ofHead t head).index = loopIndex ⟨head, children⟩ := rfl
  obtain ⟨spec, hspec, hname, horigin, hdecl, -⟩ := h.origins.item hd hi hn
  have hitem : (Loop.ofHead t head).item = some spec := (Loop.item_ofHead hl).trans hdecl
  refine ⟨h.origins.iteration hd hi hn hv, fun param hp found hf => ?_, ?_, fun name param hp hr => ?_, ?_, ?_⟩
  · -- No declaration has the name of the number, so a declared name other than the item's is not bound anew.
    rw [get?_iterationScope] at hf
    unfold Origins.iteration
    split at hf
    · rename_i heq
      rw [if_pos heq, horigin, hd.eq_of_name hspec hp (hname.trans heq.symm)]
    · rename_i hne
      rw [if_neg hne]
      rw [if_neg (hindex ▸ fresh param hp)] at hf ⊢
      exact h.known param hp found hf
  · exact every_iterationScope h.inert (Text.unbraced_toString number) (every_of_items? h.inert (items?_eq_some.mpr hi) value hv)
  · obtain ⟨found, hf⟩ := h.required name param hp hr
    exact bound_iterationScope hf ..
  · refine List.forall_mem_cons.mpr ⟨?_, fun loop hm => ?_⟩
    · rw [hindex, get?_iterationScope]
      split
      · exact ⟨_, rfl⟩
      · exact ⟨_, if_pos rfl⟩
    · obtain ⟨found, hf⟩ := h.index loop hm
      exact bound_iterationScope hf ..
  · refine List.forall_mem_cons.mpr ⟨fun found hf => ?_, fun loop hm found hf => ?_⟩
    · cases hitem.symm.trans hf
      exact ⟨hspec, value, by rw [get?_iterationScope, if_pos hname]⟩
    · obtain ⟨hmem, result, hresult⟩ := h.item loop hm found hf
      exact ⟨hmem, bound_iterationScope hresult ..⟩

end Covers

theorem covers_ofParams {e : Element} {bound : Layer} (hd : t.Distinct) (hb : t.bind ctx e = .ok bound)
    (hi : ∀ name value, (name, value) ∈ bound → value.Inert) :
    Covers t ctx [] t.param? (Scope.ofParams bound) where
  origins := origins_ofParams hb
  known param hp value hv := by
    obtain ⟨found, hf, -⟩ := t.fits_of_bind hb hv
    rw [hf, hd.eq_of_name (Template.declared_of_param? hf) hp (Template.name_of_param? hf)]
  inert name value hv := by
    rw [Scope.get?_ofParams] at hv
    exact hi name value (mem_of_lookup hv)
  required _ _ hp hr := t.bound_of_required hb hp hr
  index := nofun
  item := nofun

/-! ### Texts -/

theorem eval_ne_deferred {scope : Scope} {formula : Formula}
    (h : ∀ path ∈ formula.paths, ∃ value, scope.lookup? path = some value) : formula.eval scope ≠ .ok .deferred := by
  -- Operators pass on what their operands defer, so that all depends on the variables.
  induction formula with
  | var path =>
    obtain ⟨value, hv⟩ := h path List.mem_cons_self
    rw [Formula.eval, hv]
    dsimp only
    split
    · rintro ⟨⟩
    · rintro ⟨⟩
  | constant text => rintro ⟨⟩
  | binary op left right ihl ihr =>
    rw [Formula.paths] at h
    intro hd
    obtain ⟨a, ha, hd⟩ := bind_eq_ok.mp hd
    obtain ⟨b, hb, hd⟩ := bind_eq_ok.mp hd
    cases a with
    | deferred => exact ihl (fun path hp => h path (List.mem_append_left _ hp)) ha
    | resolved x =>
      cases b with
      | deferred => exact ihr (fun path hp => h path (List.mem_append_right _ hp)) hb
      | resolved y =>
        obtain ⟨m, -, hd⟩ := bind_eq_ok.mp hd
        obtain ⟨n, -, hd⟩ := bind_eq_ok.mp hd
        cases hd

/-- The formula is known, and inside these loops all its variables are visible. -/
def Sees (t : Template) (loops : List Loop) (formula : String) : Prop :=
  ∃ found, formula? t formula = some found ∧ ∀ path ∈ found.paths, Visible t loops path

/-- What a text is that a pass inside the loops `base` can leave: one that has no braces directly in them, and
    only visible markers further in. -/
structure After (t : Template) (base loops : List Loop) (text : String) : Prop where
  only : Segment.Only (Sees t loops) text
  unbraced : loops = base → Unbraced text

theorem after_of_unbraced {base loops : List Loop} {text : String} (h : Unbraced text) : After t base loops text :=
  ⟨Segment.only_of_unbraced h, fun _ => h⟩

theorem Covers.after {base loops : List Loop} {o : Origins} {scope : Scope} (hc : Covers t ctx base o scope) {text : String}
    (h : Segment.Only (fun formula => Sees t loops formula ∧ Deferred t scope formula) text) : After t base loops text := by
  refine ⟨h.mono fun formula hf => hf.1, ?_⟩
  rintro rfl
  refine Segment.unbraced_of_only (h.mono fun formula hf => ?_)
  obtain ⟨⟨found, hfound, hpaths⟩, hdeferred⟩ := hf
  exact eval_ne_deferred (fun path hp => hc.lookup?_of_visible (hpaths path hp)) ((evaluate_eq_ok hfound).mp hdeferred)

/-! ### One pass -/

section
variable {scope : Scope}

theorem mem_substituteAttributes {attributes out : List (String × String)}
    (h : substituteAttributes t scope attributes = .ok out) :
    ∀ a ∈ out, ∃ value, (a.1, value) ∈ attributes ∧ attributeValue t scope value = .ok a.2 := by
  induction attributes generalizing out with
  | nil =>
    cases h
    exact nofun
  | cons first attributes ih =>
    obtain ⟨name, value⟩ := first
    obtain ⟨value', rest, hv, hr, rfl⟩ := substituteAttributes_cons_eq_ok.mp h
    refine List.forall_mem_cons.mpr ⟨⟨value, List.mem_cons_self, hv⟩, fun a ha => ?_⟩
    obtain ⟨found, hmem, hfound⟩ := ih hr a ha
    exact ⟨found, List.mem_cons_of_mem _ hmem, hfound⟩

/-- A loop binds the same whatever is substituted in its other attributes. -/
theorem ofHead_substituteHead {head head' : Head} (h : substituteHead t scope head = .ok head')
    (fixed : ∀ name ∈ ["list", "i"], ∀ value, head.attributes.lookup name = some value → Segment.markers value = []) :
    Loop.ofHead t head' = Loop.ofHead t head ∧
      ∀ name ∈ ["list", "i"], ∀ value, head'.attributes.lookup name = some value → Segment.markers value = [] := by
  obtain ⟨attributes, hs, rfl⟩ := substituteHead_eq_ok.mp h
  have hsame : ∀ name ∈ ["list", "i"], attributes.lookup name = head.attributes.lookup name :=
    fun name hname => lookup_substituteAttributes hs (fixed name hname)
  refine ⟨?_, fun name hname value hv => fixed name hname value (hsame name hname ▸ hv)⟩
  have hlist := hsame "list" (by decide)
  have hindex := hsame "i" (by decide)
  simp only [Loop.ofHead, loopIndex, Element.attribute?, hlist, hindex]

end

section
variable {base : List Loop} {o : Origins} {scope : Scope} {P : List Loop → String → Prop}

theorem after_of_substituteHead (ht : t.Loaded) (hc : Covers t ctx base o scope)
    (hp : ∀ loops text, P loops text → Segment.Only (Sees t loops) text) {loops : List Loop} {head head' : Head}
    (ha : ∀ a ∈ head.attributes, P loops a.2) (h : substituteHead t scope head = .ok head') :
    ∀ a ∈ head'.attributes, After t base loops a.2 := by
  obtain ⟨attributes, hs, rfl⟩ := substituteHead_eq_ok.mp h
  intro a hmem
  obtain ⟨value, hvalue, ho⟩ := mem_substituteAttributes hs a hmem
  exact hc.after (only_of_attributeValue ht hc.plain (hp loops value (ha _ hvalue)) ho)

/-- A pass keeps the shape of the nodes, and makes no actions of what is none. -/
theorem shaped_of_substituteNode (ht : t.Loaded) (hc : Covers t ctx base o scope)
    (hp : ∀ loops text, P loops text → Segment.Only (Sees t loops) text) {loops : List Loop} {node : Node}
    (h : Shaped t P Unbraced loops node) {out : List Node} (ho : substituteNode t scope node = .ok out) :
    ∀ n ∈ out, Shaped t (After t base) Unbraced loops n ∧ (node.NotAction → n.NotAction) := by
  induction h generalizing out with
  | @plain loops head children tag attributes inside ih =>
    obtain ⟨head', children', hh, hchildren, rfl⟩ := substituteNode_element_eq_ok.mp ho
    have htag : Action.ofTag? head'.name = none := by rw [name_of_substituteHead hh, tag]
    refine List.forall_mem_singleton.mpr ⟨.plain htag (after_of_substituteHead ht hc hp attributes hh) ?_, fun _ e he => ?_⟩
    · exact forall_of_substitute hchildren fun node hn out ho n hmem => (ih node hn ho n hmem).1
    · cases he
      exact htag
  | @loop loops head children tag attributes fixed fresh inside ih =>
    obtain ⟨head', children', hh, hchildren, rfl⟩ := substituteNode_element_eq_ok.mp ho
    have htag : Action.ofTag? head'.name = some .forEach := by rw [name_of_substituteHead hh, tag]
    obtain ⟨hsame, hfixed⟩ := ofHead_substituteHead hh fixed
    refine List.forall_mem_singleton.mpr
      ⟨.loop htag (after_of_substituteHead ht hc hp attributes hh) hfixed (hsame ▸ fresh) ?_, fun hnot => ?_⟩
    · rw [hsame]
      exact forall_of_substitute hchildren fun node hn out ho n hmem => (ih node hn ho n hmem).1
    · exact absurd hnot (Node.not_notAction tag)
  | @choice loops head children tag attributes branches inside ih =>
    obtain ⟨head', children', hh, hchildren, rfl⟩ := substituteNode_element_eq_ok.mp ho
    have htag : Action.ofTag? head'.name = some .choose := by rw [name_of_substituteHead hh, tag]
    refine List.forall_mem_singleton.mpr
      ⟨.choice htag (after_of_substituteHead ht hc hp attributes hh) ?_ ?_, fun hnot => ?_⟩
    · exact forall_of_substitute hchildren fun node hn out ho n hmem => (ih node hn ho n hmem).2 (branches node hn)
    · exact forall_of_substitute hchildren fun node hn out ho n hmem => (ih node hn ho n hmem).1
    · exact absurd hnot (Node.not_notAction tag)
  | @text loops content h =>
    intro n hn
    rcases leftover_of_splice ht hc.plain (hp loops content h) ho n hn with ⟨left, rfl, hleft⟩ | ⟨path, e, hl, hmem⟩
    · exact ⟨.text (hc.after hleft), fun _ => nofun⟩
    · -- A node of bound markup fits in anywhere.
      cases hc.inert.lookup? hl with
      | markup he =>
        have hactions := he.actions n hmem
        have htexts := Template.forall_textsIn.mp he.texts n hmem
        have hplain : n.Plain := Template.plain_of_inert hactions htexts
        exact ⟨Template.shaped_of_plain (fun _ _ => after_of_unbraced) hplain htexts loops, fun _ => hactions.here⟩
  | cdata h =>
    cases ho
    exact List.forall_mem_singleton.mpr ⟨.cdata h, id⟩
  | comment content =>
    cases ho
    exact List.forall_mem_singleton.mpr ⟨.comment content, id⟩
  | instruction target data =>
    cases ho
    exact List.forall_mem_singleton.mpr ⟨.instruction target data, id⟩

end

/-! ### All passes -/

/-- No brace in the texts of the nodes. -/
def Bare (nodes : List Node) : Prop :=
  ∀ text ∈ textsIn nodes, Unbraced text

theorem bare_iff {nodes : List Node} : Bare nodes ↔ ∀ node ∈ nodes, ∀ text ∈ Template.textsOf node, Unbraced text :=
  Template.forall_textsIn

theorem bare_element {head : Head} {children : List Node} :
    Bare [.element head children] ↔ (∀ a ∈ head.attributes, Unbraced a.2) ∧ Bare children := by
  rw [bare_iff, bare_iff, List.forall_mem_singleton, Template.forall_textsOf_element]

section
variable {base : List Loop} {o : Origins} {scope : Scope} {run : Scope → List Node → Except Error (List Node)}

theorem bare_of_runNode (hd : t.Distinct) (hc : Covers t ctx base o scope)
    (hrun : ∀ loops o inner nodes out, Covers t ctx loops o inner →
      (∀ node ∈ nodes, Shaped t (After t base) Unbraced loops node) → run inner nodes = .ok out → Bare out)
    {loops : List Loop} {node : Node} (h : Shaped t (After t base) Unbraced loops node) (hl : loops = base)
    {out : List Node} (ho : runNode t ctx run scope node = .ok out) : Bare out := by
  induction h generalizing out with
  | plain tag attributes inside ih =>
    obtain ⟨children', hr, rfl⟩ := (runNode_plain_eq_ok tag).mp ho
    refine bare_element.mpr ⟨fun a ha => (attributes a ha).unbraced hl, ?_⟩
    exact bare_iff.mpr (forall_of_runActions hr fun node hn out ho => bare_iff.mp (ih node hn hl ho))
  | @loop loops head children tag attributes fixed fresh inside _ =>
    subst hl
    rw [runNode_loop tag] at ho
    rcases runLoop_eq_ok.mp ho with ⟨-, rfl⟩ | ⟨items, item, nodes, ⟨list, hlist, hi, hn⟩, hiter, rfl⟩
    · exact List.forall_mem_nil _
    · -- The markers that are left in the body are all visible in the scopes of the iterations.
      have hnodes : Bare nodes := bare_iff.mpr <| forall_of_iterate hiter fun number value hv nodes hbody =>
        bare_iff.mp (hrun _ _ _ _ _ (hc.iteration hd fresh hlist (items?_eq_some.mp hi) hn hv) inside hbody)
      unfold wrap
      split
      · rename_i value hvalue
        refine bare_element.mpr ⟨List.forall_mem_singleton.mpr ?_, hnodes⟩
        obtain ⟨before, after, hsplit, -⟩ := List.lookup_eq_some_iff.mp hvalue
        exact (attributes ("html-class", value) (hsplit ▸ by simp)).unbraced rfl
      · exact hnodes
  | choice tag attributes branches inside ih =>
    obtain ⟨key, -, ⟨-, rfl⟩ | ⟨body, honly, hbody⟩⟩ := runNode_choice_eq_ok tag ho
    · exact List.forall_mem_nil _
    · obtain ⟨branch, hmem, hbranch⟩ := List.mem_filterMap.mp (honly ▸ List.mem_singleton.mpr rfl)
      cases branch with
      | element label children =>
        simp only [branch?, Option.ite_none_right_eq_some, Option.some.injEq] at hbranch
        obtain ⟨-, rfl⟩ := hbranch
        -- The branch is no action, so what is made of its children is made of it as an element.
        have htag : Action.ofTag? label.name = none := branches _ hmem ⟨label, children⟩ rfl
        exact (bare_element.mp (ih _ hmem hl ((runNode_plain_eq_ok htag).mpr ⟨_, hbody, rfl⟩))).2
      | _ => cases hbranch
  | text h =>
    cases ho
    exact List.forall_mem_singleton.mpr (h.unbraced hl)
  | cdata h =>
    cases ho
    exact List.forall_mem_singleton.mpr h
  | comment =>
    cases ho
    exact List.forall_mem_nil _
  | instruction =>
    cases ho
    exact List.forall_mem_nil _

end

theorem bare_of_expand (ht : t.Loaded) (hd : t.Distinct) {limit : Nat} {P : List Loop → String → Prop}
    (hp : ∀ loops text, P loops text → Segment.Only (Sees t loops) text) {base : List Loop} {o : Origins} {scope : Scope}
    (hc : Covers t ctx base o scope) {nodes out : List Node} (hs : ∀ node ∈ nodes, Shaped t P Unbraced base node)
    (h : expand t ctx limit scope nodes = .ok out) : Bare out := by
  -- Inside the loops the texts have been through a pass before, so what is known of them changes on the way.
  induction limit generalizing P base o scope nodes out with
  | zero => cases h
  | succ limit ih =>
    obtain ⟨middle, hm, hr⟩ := bind_eq_ok.mp h
    have hmiddle := forall_of_substitute hm fun node hn out ho n hmem =>
      (shaped_of_substituteNode ht hc hp (hs node hn) ho n hmem).1
    refine bare_iff.mpr (forall_of_runActions hr fun node hn out ho => bare_iff.mp ?_)
    exact bare_of_runNode hd hc (fun _ _ _ _ _ hc' hs' h' => ih (fun _ _ h => h.only) hc' hs' h') (hmiddle node hn) rfl ho

/-! ### Loaded templates -/

theorem sees_of_scoped (ht : t.Loaded) {loops : List Loop} {text : String} (h : t.Scoped loops text)
    (hmem : text ∈ Template.textsOfElement t.content) : Segment.Only (Sees t loops) text := by
  refine ⟨h.1, fun raw formula hm => ?_⟩
  obtain ⟨found, hfound⟩ := ht.formula?_of_marker hmem hm
  exact ⟨found, hfound, h.2 raw formula hm found (ht.parse_of_formula? hfound)⟩

theorem sees_of_shaped (ht : t.Loaded) {Q : String → Prop} {loops : List Loop} {node : Node}
    (h : Shaped t t.Scoped Q loops node) (hmem : ∀ text ∈ textsOf node, text ∈ Template.textsOfElement t.content)
    (hn : node.All Node.NotCdata) : Shaped t (fun loops => Segment.Only (Sees t loops)) Unbraced loops node := by
  induction h with
  | plain tag attributes _ ih =>
    obtain ⟨ha, hc⟩ := Template.forall_textsOf_element.mp hmem
    exact .plain tag (fun a hm => sees_of_scoped ht (attributes a hm) (ha a hm))
      fun node hm => ih node hm (hc node hm) (hn.inside node hm)
  | loop tag attributes fixed fresh _ ih =>
    obtain ⟨ha, hc⟩ := Template.forall_textsOf_element.mp hmem
    exact .loop tag (fun a hm => sees_of_scoped ht (attributes a hm) (ha a hm)) fixed fresh
      fun node hm => ih node hm (hc node hm) (hn.inside node hm)
  | choice tag attributes branches _ ih =>
    obtain ⟨ha, hc⟩ := Template.forall_textsOf_element.mp hmem
    exact .choice tag (fun a hm => sees_of_scoped ht (attributes a hm) (ha a hm)) branches
      fun node hm => ih node hm (hc node hm) (hn.inside node hm)
  | text h => exact .text (sees_of_scoped ht h (hmem _ List.mem_cons_self))
  | cdata => exact absurd rfl (hn.here _)
  | comment content => exact .comment content
  | instruction target data => exact .instruction target data

/-- If a well-scoped template is applied with success to an instance with inert values, no marker is left. -/
theorem unresolved_eq_nil {t : Template} (hf : t.OfFile) (hw : t.WellScoped) {ctx : Context} {e out : Element}
    (hi : ∀ bound name value, t.bind ctx e = .ok bound → (name, value) ∈ bound → value.Inert)
    (h : t.apply ctx e = .ok out) : Template.unresolved out = [] := by
  have ht := hf.loaded
  obtain ⟨bound, hb, h⟩ := bind_eq_ok.mp h
  obtain ⟨head, hh, h⟩ := bind_eq_ok.mp h
  obtain ⟨children, hchildren, h⟩ := bind_eq_ok.mp h
  cases h
  have hc : Covers t ctx [] t.param? (Scope.ofParams bound) :=
    covers_ofParams hw.distinct hb fun name value hmem => hi bound name value hb hmem
  have hcontent : ∀ node ∈ t.content.children,
      Shaped t (fun loops => Segment.Only (Sees t loops)) Unbraced [] node := fun node hn => by
    have htexts : ∀ text ∈ textsIn t.content.children, text ∈ Template.textsOfElement t.content :=
      fun text htext => List.mem_append_right _ htext
    exact sees_of_shaped ht (hw.content node hn) (Template.forall_textsIn.mp htexts node hn) (hf.notCdata node hn)
  have hhead : ∀ a ∈ head.attributes, After t [] [] a.2 := by
    refine after_of_substituteHead ht hc (P := fun loops => Segment.Only (Sees t loops)) (fun _ _ h => h) (fun a ha => ?_) hh
    exact sees_of_scoped ht (hw.attributes a ha) (List.mem_append_left _ (List.mem_map.mpr ⟨a, ha, rfl⟩))
  have hbare : Bare [.element head children] := bare_element.mpr
    ⟨fun a ha => (hhead a ha).unbraced rfl, bare_of_expand ht hw.distinct (fun _ _ h => h) hc hcontent hchildren⟩
  refine List.flatMap_eq_nil_iff.mpr fun text htext => Segment.markers_of_unbraced (hbare text ?_)
  rw [textsIn, textsIn, List.append_nil]
  exact htext

/-! ### An agenda

A loop over dates with a choice in it. A text of the body takes a number, markup and a part of a date. -/

def agendaFile : String :=
  "<template name='agenda'><param name='note' type='xml'/><param name='days' type='list'>" ++
    "<param name='day' type='text,date'/></param><content><ForEach list='days' i='n'>" ++
    "<Match value='{{day.month-name}}'><May>{{n}}: {{note}} {{day.day}}</May></Match></ForEach></content></template>"

def agenda : Template where
  name := "agenda"
  params := [.markup "note" true, .list "days" true (.text "day" true .date)]
  content := ⟨{ name := "content" },
    [.element { name := "ForEach", attributes := [("list", "days"), ("i", "n")] }
      [.element { name := "Match", attributes := [("value", "{{day.month-name}}")] }
        [.element { name := "May" } [.text "{{n}}: {{note}} {{day.day}}"]]]]⟩
  formulas := [("day.month-name", .var ["day", "month-name"]), ("n", .var ["n"]), ("note", .var ["note"]),
    ("day.day", .var ["day", "day"])]

theorem agenda_ofFile : agenda.OfFile :=
  ⟨"agenda.xml", agendaFile, [agenda], eq_ok_of_toOption (by decide +kernel), List.mem_singleton.mpr rfl⟩

/-- What the loop binds in its body. -/
def agendaLoop : Loop where
  index := "n"
  item := some (.text "day" true .date)

theorem agenda_wellScoped : agenda.WellScoped where
  distinct := by decide
  attributes := nofun
  content := by
    have hday : ∀ {field : String}, field ∈ Param.dateFields → Visible agenda [agendaLoop] ["day", field] := fun hf =>
      @Visible.item _ _ agendaLoop _ _ (List.mem_singleton.mpr rfl) rfl (.date hf)
    have hkey : agenda.Scoped [agendaLoop] "{{day.month-name}}" := by
      have hformulas : Template.formulaTexts "{{day.month-name}}" = ["day.month-name"] := by decide +kernel
      refine Template.scoped_of_variables (by decide +kernel) (hformulas ▸ List.forall_mem_singleton.mpr ?_)
      exact ⟨["day", "month-name"], eq_ok_of_toOption (by decide +kernel), hday (by decide)⟩
    have hbranch : agenda.Scoped [agendaLoop] "{{n}}: {{note}} {{day.day}}" := by
      have hformulas : Template.formulaTexts "{{n}}: {{note}} {{day.day}}" = ["n", "note", "day.day"] := by decide +kernel
      refine Template.scoped_of_variables (by decide +kernel) (hformulas ▸ ?_)
      intro formula hm
      rcases List.mem_cons.mp hm with rfl | hm
      · exact ⟨["n"], eq_ok_of_toOption (by decide +kernel), @Visible.index _ _ agendaLoop (List.mem_singleton.mpr rfl)⟩
      rcases List.mem_cons.mp hm with rfl | hm
      · exact ⟨["note"], eq_ok_of_toOption (by decide +kernel), .required rfl rfl (.here _)⟩
      · cases List.mem_singleton.mp hm
        exact ⟨["day", "day"], eq_ok_of_toOption (by decide +kernel), hday (by decide)⟩
    refine List.forall_mem_singleton.mpr (.loop rfl ?_ (by decide +kernel) (by decide) ?_)
    · intro a ha
      refine Segment.only_of_unbraced ?_
      revert a
      decide
    · refine List.forall_mem_singleton.mpr (.choice rfl (List.forall_mem_singleton.mpr hkey) ?_ ?_)
      · exact List.forall_mem_singleton.mpr fun e he => by cases he; rfl
      · exact List.forall_mem_singleton.mpr (.plain rfl nofun (List.forall_mem_singleton.mpr (.text hbranch)))

def agendaInstance : Element :=
  ⟨{ name := "agenda" }, [.element { name := "note" } [.element { name := "b" } [.text "day"]],
    .element { name := "days" } [.element { name := "day" } [.text "2024-05-01"],
      .element { name := "day" } [.text "2024-02-29"]]]⟩

theorem agenda_inert (ctx : Context) : ∀ bound name value, agenda.bind ctx agendaInstance = .ok bound →
    (name, value) ∈ bound → value.Inert := by
  intro bound name value hb hm
  have hbind : agenda.bind ctx agendaInstance = .ok
      [("note", .markup ⟨{ name := "note" }, [.element { name := "b" } [.text "day"]]⟩),
        ("days", .list [Param.dateValue "2024-05-01" ⟨2024, 5, 1, by decide, by decide, by decide⟩,
          Param.dateValue "2024-02-29" ⟨2024, 2, 29, by decide, by decide, by decide⟩])] := rfl
  cases hbind.symm.trans hb
  rcases List.mem_cons.mp hm with h | hm
  · cases h
    refine .markup ⟨by decide +kernel, by decide +kernel, List.forall_mem_singleton.mpr ?_⟩
    exact .element (fun e he => by cases he; rfl) (List.forall_mem_singleton.mpr (.leaf nofun rfl))
  · cases List.mem_singleton.mp hm
    refine .list fun value hv => ?_
    rcases List.mem_cons.mp hv with rfl | hv
    · exact Value.inert_dateValue (by decide) _
    · exact List.mem_singleton.mp hv ▸ Value.inert_dateValue (by decide) _

/-- Only the first date is in May. -/
def agendaResult : Element :=
  ⟨{ name := "content" }, [.text "1: ", .element { name := "b" } [.text "day"], .text " 1"]⟩

theorem agenda_leaves_no_marker :
    agenda.apply emptySite agendaInstance = .ok agendaResult ∧ Template.unresolved agendaResult = [] := by
  have hresult : agenda.apply emptySite agendaInstance = .ok agendaResult := eq_ok_of_toOption (by decide +kernel)
  exact ⟨hresult, unresolved_eq_nil agenda_ofFile agenda_wellScoped (agenda_inert emptySite) hresult⟩

end Expansion
end Letterpress
