import Letterpress.Proofs.Param.Alike
import Letterpress.Proofs.Template.Shape

/-! Which instances a loaded template accepts: those whose elements have declared names, each name at most
    once, fit their parameters and leave out none that is required. Layout does not count. -/

namespace Letterpress
open Markup (Node Element)

/-! ### Records -/

namespace Param

variable {ctx : Context} {e : Element}

theorem validate_record_succeeds_iff {name : String} {required : Bool} {fields : List Param}
    (hd : (fields.map Param.name).Nodup) :
    (∃ value, (record name required fields).validate ctx e = .ok value) ↔
      ∃ children : List Element, e.significant = children.map Element.toNode ∧
        (children.map Element.name).Perm (fields.map Param.name) ∧
        ∀ child ∈ children, ∃ field ∈ fields, field.name = child.name ∧ ∃ value, field.validate ctx child = .ok value := by
  constructor
  · rintro ⟨value, h⟩
    obtain ⟨children, values, rfl, hnodes, hnames, hv⟩ := (validate_record_iff hd).mp h
    refine ⟨children, hnodes, hnames, fun child hchild => ?_⟩
    obtain ⟨field, hf, hname⟩ := List.mem_map.mp (hnames.mem_iff.mp (List.mem_map_of_mem hchild))
    obtain ⟨entry, -, -, other, hother, hothername, hvalue⟩ := exists_of_forall₂ hv hf
    have hsame : other = child :=
      List.inj_on_of_nodup_map (hnames.nodup_iff.mpr hd) hother hchild (hothername.trans hname)
    exact ⟨field, hf, hname, entry.2, hsame ▸ hvalue⟩
  · rintro ⟨children, hnodes, hnames, hchildren⟩
    have hfields : ∀ field ∈ fields, ∃ entry : String × Value, entry.1 = field.name ∧
        ∃ child ∈ children, child.name = field.name ∧ field.validate ctx child = .ok entry.2 := by
      intro field hf
      obtain ⟨child, hchild, hname⟩ := List.mem_map.mp (hnames.mem_iff.mpr (List.mem_map_of_mem hf))
      obtain ⟨found, hfound, hfoundname, value, hvalue⟩ := hchildren child hchild
      have hsame : found = field := List.inj_on_of_nodup_map hd hfound hf (hfoundname.trans hname)
      exact ⟨(field.name, value), rfl, child, hchild, hname, hsame ▸ hvalue⟩
    obtain ⟨values, hv⟩ := exists_forall₂ hfields
    exact ⟨.record values, (validate_record_iff hd).mpr ⟨children, values, rfl, hnodes, hnames, hv⟩⟩

end Param

namespace Template

variable {t : Template} {ctx : Context} {e e' : Element} {bound : Layer}

theorem firstMissing?_eq_none : t.firstMissing? bound = none ↔
    ∀ param ∈ t.params, param.required = true → param.name ∈ bound.map Prod.fst := by
  rw [firstMissing?, List.find?_eq_none]
  refine forall_congr' fun param => imp_congr_right fun _ => ?_
  rw [Bool.and_eq_true, not_and, Option.isNone_iff_eq_none, lookup_eq_none, not_not]

theorem bind_eq_ok_iff_supplied : t.bind ctx e = .ok bound ↔
    Param.Supplied (t.read? ctx) e.significant bound ∧ (bound.map Prod.fst).Nodup ∧
      ∀ param ∈ t.params, param.required = true → param.name ∈ bound.map Prod.fst := by
  rw [bind_eq_ok_iff, bindNodes_eq_ok, firstMissing?_eq_none, and_assoc]

/-! ### Instances -/

theorem bind_succeeds_iff (ht : t.Loaded) : (∃ bound, t.bind ctx e = .ok bound) ↔
    ∃ children : List Element, e.significant = children.map Element.toNode ∧ (children.map Element.name).Nodup ∧
      (∀ child ∈ children, ∃ param ∈ t.params, param.name = child.name ∧
        ∃ value, param.validate ctx child = .ok value) ∧
      ∀ param ∈ t.params, param.required = true → param.name ∈ children.map Element.name := by
  constructor
  · rintro ⟨bound, h⟩
    obtain ⟨hs, hd, hrequired⟩ := bind_eq_ok_iff_supplied.mp h
    obtain ⟨children, hnodes, hchildren⟩ := hs.children
    have hnames := Param.names_of_forall₂ hchildren fun _ _ h => h.1
    refine ⟨children, hnodes, hnames ▸ hd, fun child hchild => ?_, hnames ▸ hrequired⟩
    obtain ⟨entry, -, -, hread⟩ := exists_of_forall₂ hchildren hchild
    obtain ⟨param, hparam, hvalue⟩ := Option.map_eq_some_iff.mp hread
    obtain ⟨hm, hname⟩ := ht.param?_eq_some.mp hparam
    exact ⟨param, hm, hname, entry.2, hvalue⟩
  · rintro ⟨children, hnodes, hd, hchildren, hrequired⟩
    have hread : ∀ child ∈ children, ∃ value, t.read? ctx child = some (.ok value) := by
      intro child hchild
      obtain ⟨param, hm, hname, value, hvalue⟩ := hchildren child hchild
      exact ⟨value, by rw [read?, ht.param?_eq_some.mpr ⟨hm, hname⟩, Option.map_some, hvalue]⟩
    obtain ⟨bound, hs, hnames⟩ := Param.Supplied.of_children hread
    exact ⟨bound, bind_eq_ok_iff_supplied.mpr ⟨hnodes ▸ hs, hnames ▸ hd, hnames ▸ hrequired⟩⟩

/-! ### Layout -/

/-- As instances of the template, the elements differ in their layout only. -/
def Alike (t : Template) (e e' : Element) : Prop :=
  ∃ nodes, e.significant.Perm nodes ∧ List.Forall₂ (Node.Alike (Param.AlikeIn t.params)) nodes e'.significant

theorem supplyAlike_of_alike (ht : t.Loaded) (h : t.Alike e e') :
    Param.SupplyAlike (t.read? ctx) e.significant e'.significant ∧
      Param.SupplyAlike (t.read? ctx) e'.significant e.significant := by
  obtain ⟨nodes, hp, hnodes⟩ := h
  refine Param.supplyAlike_of_perm hp (hnodes.imp fun _ _ hnode => ?_)
  cases hnode with
  | leaf hleaf => exact .leaf hleaf
  | @element head children children' halike =>
    refine .element fun value => ?_
    show (t.param? head.name).map _ = _ ↔ (t.param? head.name).map _ = _
    cases hparam : t.param? head.name with
    | none => rfl
    | some param =>
      obtain ⟨hm, hchild⟩ := ht.param?_eq_some.mp hparam
      simp only [Option.map_some, Option.some.injEq]
      exact Param.validate_of_alike (ht.params.2 param hm) (Param.alikeIn_iff.mp halike param hm hchild.symm) value

theorem bind_of_supplyAlike (hs : Param.SupplyAlike (t.read? ctx) e.significant e'.significant)
    (h : t.bind ctx e = .ok bound) : ∃ bound', t.bind ctx e' = .ok bound' ∧ bound.Perm bound' := by
  obtain ⟨hsupplied, hd, hrequired⟩ := bind_eq_ok_iff_supplied.mp h
  obtain ⟨bound', hperm, hsupplied'⟩ := hs bound hsupplied
  have hnames := hperm.map Prod.fst
  exact ⟨bound', bind_eq_ok_iff_supplied.mpr ⟨hsupplied', hnames.nodup_iff.mp hd,
    fun param hm hr => hnames.mem_iff.mp (hrequired param hm hr)⟩, hperm⟩

/-- An instance is accepted by its declarations alone, a record as well, and whatever its layout is. -/
theorem accepts_by_declaration (ctx : Context) (t : Template) (ht : t.Loaded) :
    (∀ e : Element, (∃ bound, t.bind ctx e = .ok bound) ↔
      ∃ children : List Element, e.significant = children.map Element.toNode ∧ (children.map Element.name).Nodup ∧
        (∀ child ∈ children, ∃ param ∈ t.params, param.name = child.name ∧
          ∃ value, param.validate ctx child = .ok value) ∧
        ∀ param ∈ t.params, param.required = true → param.name ∈ children.map Element.name) ∧
    (∀ name required fields, .record name required fields ∈ t.declared → ∀ e : Element,
      (∃ value, (Param.record name required fields).validate ctx e = .ok value) ↔
        ∃ children : List Element, e.significant = children.map Element.toNode ∧
          (children.map Element.name).Perm (fields.map Param.name) ∧
          ∀ child ∈ children, ∃ field ∈ fields, field.name = child.name ∧
            ∃ value, field.validate ctx child = .ok value) ∧
    ∀ e e' : Element, t.Alike e e' →
      (∀ bound, t.bind ctx e = .ok bound → ∃ bound', t.bind ctx e' = .ok bound' ∧ bound.Perm bound') ∧
      ∀ bound', t.bind ctx e' = .ok bound' → ∃ bound, t.bind ctx e = .ok bound ∧ bound.Perm bound' := by
  refine ⟨fun e => bind_succeeds_iff ht, fun name required fields hm e => ?_, fun e e' h => ?_⟩
  · cases Param.wellFormed_of_mem_declaredIn ht.params.2 hm with
    | record _ _ _ distinct _ => exact Param.validate_record_succeeds_iff distinct
  · obtain ⟨hforth, hback⟩ := @supplyAlike_of_alike t ctx e e' ht h
    refine ⟨fun bound => bind_of_supplyAlike hforth, fun bound' hb => ?_⟩
    obtain ⟨bound, hbound, hperm⟩ := bind_of_supplyAlike hback hb
    exact ⟨bound, hbound, hperm.symm⟩

/-- The order in another layout: its parts are rearranged, and so are the fields of the line, and there are
    comments and blank text around them. -/
def rearrangedLines : Element :=
  ⟨{ name := "lines" }, [.text "\n    ", .element { name := "line" }
    [.element { name := "amount" } [.comment "pieces", .text " 3 "], .comment "each", .text " ",
      .element { name := "price" } [.text "9.5"]], .comment "no more"]⟩

def rearrangedOrder : Element :=
  ⟨{ name := "order" }, [.comment "May", .element { name := "due" } [.text "2024-05-01", .comment "a Wednesday"],
    .text "\n  ", rearrangedLines.toNode, .element { name := "logo" } [.text "logo.png"], .text "\n"]⟩

theorem lines_alike : orderLines.Alike suppliedLines rearrangedLines := by
  have hfields : ([Param.text "amount" true .integer, .text "price" false .float].map Param.name).Nodup := by decide
  refine .cons (.element fun _ => ?_) .nil
  refine ⟨[.element { name := "amount" } [.text " 3 "], .element { name := "price" } [.text "9.5"]],
    .swap _ _ _, .cons ?_ (.cons ?_ .nil)⟩
  · exact .element (Param.alikeIn_of_find? hfields rfl rfl)
  · exact .element (Param.alikeIn_of_find? hfields rfl rfl)

theorem order_alike : order.Alike orderInstance rearrangedOrder := by
  have hparams : (order.params.map Param.name).Nodup := by decide
  refine ⟨[.element { name := "due" } [.text "2024-05-01"], suppliedLines.toNode,
    .element { name := "logo" } [.text "logo.png"]], .swap _ _ _, .cons ?_ (.cons ?_ (.cons ?_ .nil))⟩
  · exact .element (Param.alikeIn_of_find? hparams rfl rfl)
  · exact .element (Param.alikeIn_of_find? hparams rfl lines_alike)
  · exact .element (Param.alikeIn_of_find? hparams rfl rfl)

theorem rearranged_order_accepted : order.Loaded ∧ order.Alike orderInstance rearrangedOrder ∧
    order.bind logoSite orderInstance = .ok orderBound ∧
    ∃ bound, order.bind logoSite rearrangedOrder = .ok bound ∧ orderBound.Perm bound := by
  have hbind : order.bind logoSite orderInstance = .ok orderBound := rfl
  obtain ⟨-, -, halike⟩ := accepts_by_declaration logoSite order order_loaded
  exact ⟨order_loaded, order_alike, hbind, (halike _ _ order_alike).1 _ hbind⟩

end Template
end Letterpress
