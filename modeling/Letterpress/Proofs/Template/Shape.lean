import Letterpress.Proofs.Param.Shape
import Letterpress.Proofs.Template.Binding
import Letterpress.Proofs.Template.Loaded

/-! The shape of what a loaded template binds: values for declared parameters only, for every required one
    among them, and each as its parameter declares it. -/

namespace Letterpress
open Markup (Node Element)

namespace Template

/-- A value that is validated against a declaration has its shape, and so has every value that is bound. -/
theorem shape_of_declaration (ctx : Context) :
    (∀ (declaration : Element) (param : Param), Param.ofElement declaration = .ok param →
      ∀ (e : Element) (value : Value), param.validate ctx e = .ok value → param.Shape e value) ∧
    ∀ t : Template, t.Loaded → ∀ (e : Element) (bound : Layer), t.bind ctx e = .ok bound →
      (bound.map Prod.fst).Nodup ∧ (∀ name value, (name, value) ∈ bound → ∃ param ∈ t.params, param.name = name) ∧
        ∀ param ∈ t.params, (param.required = true → ∃ value, (param.name, value) ∈ bound) ∧
          ∀ value, (param.name, value) ∈ bound →
            ∃ child : Element, child.toNode ∈ e.significant ∧ child.name = param.name ∧ param.Shape child value := by
  refine ⟨fun declaration param hd e value h => Param.shape_of_validate (Param.wellFormed_of_ofElement hd) h,
    fun t ht e bound h => ⟨(bindNodes_eq_ok.mp (bind_eq_ok_iff.mp h).1).2, ?_, ?_⟩⟩
  · intro name value hm
    obtain ⟨param, -, hparam, -⟩ := supplied_of_bind h hm
    exact ⟨param, ht.param?_eq_some.mp hparam⟩
  · intro param hp
    have hparam : t.param? param.name = some param := ht.param?_eq_some.mpr ⟨hp, rfl⟩
    refine ⟨fun hr => ?_, fun value hm => ?_⟩
    · obtain ⟨value, hl⟩ := bound_of_required h hparam hr
      rw [Scope.get?_ofParams] at hl
      exact ⟨value, mem_of_lookup hl⟩
    · obtain ⟨found, child, hfound, hchild, hname, hvalue⟩ := supplied_of_bind h hm
      cases hfound.symm.trans hparam
      exact ⟨child, hchild, hname, Param.shape_of_validate (ht.params.2 param hp) hvalue⟩

/-! ### An order

Lines with an amount and a price each, and a parameter for each other kind of value. -/

def orderLines : Param :=
  .list "lines" true (.record "line" true [.text "amount" true .integer, .text "price" false .float])

def orderLinesDeclaration : Element :=
  ⟨{ name := "param", attributes := [("name", "lines"), ("type", "list")] },
    [.element { name := "param", attributes := [("name", "line"), ("type", "struct")] }
      [.element { name := "param", attributes := [("name", "amount"), ("type", "text,integer")] } [],
        .element { name := "param", attributes := [("name", "price"), ("type", "text,float"), ("required", "false")] } []]]⟩

def orderDeclaration : Element :=
  ⟨{ name := "template", attributes := [("name", "order")] },
    [.element { name := "param", attributes := [("name", "due"), ("type", "text,date")] } [],
      orderLinesDeclaration.toNode,
      .element { name := "param", attributes := [("name", "logo"), ("type", "text,file"), ("required", "false")] } [],
      .element { name := "param", attributes := [("name", "note"), ("type", "xml"), ("required", "false")] } [],
      .element { name := "content" } [.text "{{due}}"]]⟩

def order : Template where
  name := "order"
  params := [.text "due" true .date, orderLines, .text "logo" false .file, .markup "note" false]
  content := ⟨{ name := "content" }, [.text "{{due}}"]⟩
  formulas := [("due", .var ["due"])]

theorem order_loaded : order.Loaded :=
  ⟨"order.xml", orderDeclaration, eq_ok_of_toOption (by decide +kernel)⟩

def suppliedLines : Element :=
  ⟨{ name := "lines" }, [.element { name := "line" } [.element { name := "price" } [.text "9.5"],
    .element { name := "amount" } [.text " 3 "]]]⟩

def orderInstance : Element :=
  ⟨{ name := "order" }, [suppliedLines.toNode, .element { name := "due" } [.text "2024-05-01"],
    .element { name := "logo" } [.text "logo.png"]]⟩

/-- A site with one file. -/
def logoSite : Context :=
  { probe := ⟨(· == "www/logo.png"), fun _ => false⟩ }

def boundLines : Value :=
  .list [.record [("amount", .text "3"), ("price", .text "9.5")]]

theorem orderYear_range : -262143 ≤ (2024 : Int) ∧ (2024 : Int) ≤ 262142 := by decide

def orderBound : Layer :=
  [("lines", boundLines), ("due", Param.dateValue "2024-05-01" ⟨2024, 5, 1, orderYear_range, by decide, by decide⟩),
    ("logo", .text "/logo.png")]

theorem order_shapes :
    (Param.ofElement orderLinesDeclaration = .ok orderLines ∧
      orderLines.validate logoSite suppliedLines = .ok boundLines ∧ orderLines.Shape suppliedLines boundLines) ∧
    order.Loaded ∧ order.bind logoSite orderInstance = .ok orderBound ∧
      (∃ value, ("due", value) ∈ orderBound) ∧ ∃ child : Element, child.toNode ∈ orderInstance.significant ∧
        child.name = "logo" ∧ Param.Shape (.text "logo" false .file) child (.text "/logo.png") := by
  have hlines : Param.ofElement orderLinesDeclaration = .ok orderLines := eq_ok_of_toOption (by decide +kernel)
  have hvalue : orderLines.validate logoSite suppliedLines = .ok boundLines := rfl
  have hbind : order.bind logoSite orderInstance = .ok orderBound := rfl
  obtain ⟨-, -, hshapes⟩ := (shape_of_declaration logoSite).2 order order_loaded orderInstance orderBound hbind
  refine ⟨⟨hlines, hvalue, (shape_of_declaration logoSite).1 _ _ hlines _ _ hvalue⟩, order_loaded, hbind, ?_, ?_⟩
  · exact (hshapes _ List.mem_cons_self).1 rfl
  · have hlogo : Param.text "logo" false .file ∈ order.params :=
      List.mem_cons_of_mem _ (List.mem_cons_of_mem _ List.mem_cons_self)
    exact (hshapes _ hlogo).2 _ (List.mem_cons_of_mem _ (List.mem_cons_of_mem _ List.mem_cons_self))

end Template
end Letterpress
