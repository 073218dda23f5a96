import Letterpress.Proofs.Expansion.Relation
import Letterpress.Proofs.Path.Relative

/-! What a template sees of its surroundings: which files and directories exist, and how deep loops may nest.
    Surroundings that agree on that make no difference to an application. -/

namespace Letterpress
open Markup (Node Element Head)

/-- In both surroundings the same files and directories exist. -/
structure Context.SeesAlike (ctx ctx' : Context) : Prop where
  file : ctx'.hasFile = ctx.hasFile
  sourceFile : ctx'.hasSourceFile = ctx.hasSourceFile
  sourceDirectory : ctx'.hasSourceDirectory = ctx.hasSourceDirectory

/-- All that is asked of the files lies under one of the two roots. -/
theorem Context.seesAlike_of_probes {ctx : Context} {probe probe' : Probe}
    (hfile : ∀ path, Path.StaysUnder ctx.fileRoot path → probe'.isFile path = probe.isFile path)
    (hsource : ∀ path, Path.StaysUnder ctx.sourceRoot path →
      probe'.isFile path = probe.isFile path ∧ probe'.isDirectory path = probe.isDirectory path) :
    Context.SeesAlike { ctx with probe := probe } { ctx with probe := probe' } where
  file := funext fun _ => Path.any_joinUnder_congr hfile
  sourceFile := funext fun _ => Path.any_joinUnder_congr fun full hfull => (hsource full hfull).1
  sourceDirectory := funext fun _ => Path.any_joinUnder_congr fun full hfull => (hsource full hfull).2

variable {ctx ctx' : Context}

/-! ### Parameters -/

namespace Param

theorem readText_congr (h : ctx.SeesAlike ctx') (form : TextForm) (content : String) :
    readText ctx' form content = readText ctx form content := by
  cases form with
  | file =>
    unfold readText
    rw [h.file]
  | _ => rfl

mutual

theorem validate_congr (h : ctx.SeesAlike ctx') : ∀ (param : Param) (e : Element),
    param.validate ctx' e = param.validate ctx e
  | .text _ _ form, e => by
    have : readText ctx' form = readText ctx form := funext (readText_congr h form)
    simp only [validate, this]
  | .markup .., _ => by simp only [validate]
  | .list name required item, e => by
    have : item.validate ctx' = item.validate ctx := funext (validate_congr h item)
    simp only [validate, this]
  | .record name required fields, e => by
    have : (fun field : Element => validateField ctx' field.name fields field) =
        fun field => validateField ctx field.name fields field :=
      funext fun field => validateField_congr h field.name fields field
    simp only [validate, this]

theorem validateField_congr (h : ctx.SeesAlike ctx') (name : String) : ∀ (fields : List Param) (e : Element),
    validateField ctx' name fields e = validateField ctx name fields e
  | [], _ => by simp only [validateField]
  | field :: fields, e => by
    simp only [validateField, validate_congr h field e, validateField_congr h name fields e]

end

end Param

theorem Template.bind_congr (h : ctx.SeesAlike ctx') (t : Template) (e : Element) : t.bind ctx' e = t.bind ctx e := by
  have hnodes : ∀ bound nodes, t.bindNodes ctx' e bound nodes = t.bindNodes ctx e bound nodes := by
    intro bound nodes
    induction nodes generalizing bound with
    | nil => rfl
    | cons node nodes ih => simp only [Template.bindNodes, Param.validate_congr h, ih]
  simp only [Template.bind, hnodes]

/-! ### Bodies -/

namespace Expansion

variable {t : Template} {run : Scope → List Node → Except Error (List Node)} {scope : Scope}

theorem choiceKey_congr (h : ctx.SeesAlike ctx') (e : Element) : choiceKey ctx' e = choiceKey ctx e := by
  have hkey : ∀ argument, Predicate.key ctx' argument = Predicate.key ctx argument := fun argument => by
    funext predicate
    cases predicate with
    | sourceFile => simp only [Predicate.key, h.sourceFile]
    | sourceDirectory => simp only [Predicate.key, h.sourceDirectory]
    | file => simp only [Predicate.key, h.file]
    | identity => rfl
  simp only [choiceKey, hkey]

theorem runActions_congr (h : ctx.SeesAlike ctx') (nodes : List Node) :
    runActions t ctx' run scope nodes = runActions t ctx run scope nodes := by
  have hr : RelatesActions (fun x x' => x' = x) t t ctx ctx' run run scope :=
    { Stepwise.equal with
      loop := fun _ => rfl
      key := choiceKey_congr h
      ambiguous := fun _ _ => rfl }
  exact hr.runActions nodes

theorem expand_congr (h : ctx.SeesAlike ctx') (limit : Nat) : expand t ctx' limit = expand t ctx limit := by
  induction limit with
  | zero => rfl
  | succ limit ih =>
    funext scope nodes
    simp only [expand, ih, runActions_congr h]

end Expansion

theorem Template.apply_congr (h : ctx.SeesAlike ctx') (hl : ctx'.loopLimit = ctx.loopLimit) (t : Template) (e : Element) :
    t.apply ctx' e = t.apply ctx e := by
  simp only [Template.apply, Template.bind_congr h, Expansion.expandElement, Expansion.expand_congr h, hl]

end Letterpress
