import Letterpress.Proofs.Expansion.Plain
import Letterpress.Proofs.Page.Instances

/-! When processing a page comes to an end. Templates nest no deeper than the context allows, but that says
    nothing about the loops in one of them: a page is processed to an end if and only if the body of every
    template that is applied on the way is expanded to an end. -/

namespace Letterpress
open Markup (Node Element Head)

namespace Page

variable {registry : Registry} {ctx : Context}

/-! ### Bodies on the way -/

/-- To replace the instances in the nodes is to expand the body of the template in this scope: all that
    comes before it has succeeded. -/
inductive Opens (registry : Registry) (ctx : Context) : Nat → List Node → Template → Scope → Prop
  | later {depth : Nat} {node : Node} {nodes : List Node} {t : Template} {scope : Scope}
      (done : ∃ limit out, replacedNode registry ctx depth limit node = .ok out)
      (h : Opens registry ctx depth nodes t scope) : Opens registry ctx depth (node :: nodes) t scope
  | inside {depth : Nat} {head : Head} {children nodes : List Node} {t : Template} {scope : Scope}
      (other : registry.get? head.name = none) (h : Opens registry ctx depth children t scope) :
      Opens registry ctx depth (.element head children :: nodes) t scope
  | here {depth : Nat} {head head' : Head} {children nodes : List Node} {t : Template} {bound : Layer}
      (ht : registry.get? head.name = some t) (hb : t.bind ctx ⟨head, children⟩ = .ok bound)
      (hh : Expansion.substituteHead t (Scope.ofParams bound) t.content.head = .ok head') :
      Opens registry ctx (depth + 1) (.element head children :: nodes) t (Scope.ofParams bound)
  | within {depth : Nat} {head : Head} {children nodes : List Node} {t t' : Template} {content : Element} {scope : Scope}
      (ht : registry.get? head.name = some t)
      (done : ∃ limit, t.apply (ctx.withLimit limit) ⟨head, children⟩ = .ok content)
      (h : Opens registry ctx depth content.children t' scope) :
      Opens registry ctx (depth + 1) (.element head children :: nodes) t' scope

/-- The bodies that are expanded are those of the templates whose instances are met, once the parameters are
    bound and the markers of its own head replaced. -/
theorem opens_iff {depth : Nat} {nodes : List Node} {t : Template} {scope : Scope} :
    Opens registry ctx depth nodes t scope ↔ ∃ level e bound head', Meets registry ctx depth nodes level t e ∧
      level < depth ∧ t.bind ctx e = .ok bound ∧ scope = Scope.ofParams bound ∧
      Expansion.substituteHead t (Scope.ofParams bound) t.content.head = .ok head' := by
  constructor
  · intro h
    induction h with
    | later done _ ih =>
      obtain ⟨level, e, bound, head', hm, h⟩ := ih
      exact ⟨level, e, bound, head', .later done hm, h⟩
    | inside other _ ih =>
      obtain ⟨level, e, bound, head', hm, h⟩ := ih
      exact ⟨level, e, bound, head', .inside other hm, h⟩
    | here ht hb hh => exact ⟨0, _, _, _, .here ht, Nat.succ_pos _, hb, rfl, hh⟩
    | within ht done _ ih =>
      obtain ⟨level, e, bound, head', hm, hl, h⟩ := ih
      exact ⟨level + 1, e, bound, head', .within ht done hm, Nat.succ_lt_succ hl, h⟩
  · rintro ⟨level, e, bound, head', hm, hl, hb, rfl, hh⟩
    induction hm with
    | later done _ ih => exact .later done (ih hl hb hh)
    | inside other _ ih => exact .inside other (ih hl hb hh)
    | @here depth =>
      obtain ⟨depth, rfl⟩ : ∃ n, depth = n + 1 := ⟨depth - 1, by omega⟩
      exact .here ‹_› hb hh
    | within ht done _ ih => exact .within ht done (ih (Nat.lt_of_succ_lt_succ hl) hb hh)

theorem Ends.expansion {text : String} (h : Ends registry ctx text) {page : Element} {t : Template} {scope : Scope}
    (hpage : read text = .ok page) (hopens : Opens registry ctx ctx.maxDepth page.children t scope) :
    Expansion.Ends t ctx scope t.content.children := by
  obtain ⟨limit, hs⟩ := h.settled hpage
  obtain ⟨level, e, bound, head', hm, hl, hb, rfl, hh⟩ := opens_iff.mp hopens
  have happly := settled_of_meets hm hl hs
  rw [Template.apply_withLimit] at happly
  exact ⟨limit + 1, ((happly.next hb).next hh).of_bind⟩

theorem ends_of_opens {text : String} (h : ∀ page t scope, read text = .ok page →
    Opens registry ctx ctx.maxDepth page.children t scope → Expansion.Ends t ctx scope t.content.children) :
    Ends registry ctx text :=
  ends_of_applications fun page hpage level t e hm hl => Template.apply_ends fun bound head' hb hh =>
    h page t _ hpage (opens_iff.mpr ⟨level, e, bound, head', hm, hl, hb, rfl, hh⟩)

/-- Processing a page comes to an end if and only if no template that is applied on the way has a body whose
    expansion begins an endless chain of expansions inside one another. There is no such chain where no
    loop in bound markup stands around a text with a marker. -/
theorem process_ends_iff (registry : Registry) (ctx : Context) (text : String) :
    (Ends registry ctx text ↔ ∀ page t scope, read text = .ok page →
      Opens registry ctx ctx.maxDepth page.children t scope →
      Acc (Expansion.Nested t ctx) (scope, t.content.children)) ∧
    ((∀ page t scope, read text = .ok page → Opens registry ctx ctx.maxDepth page.children t scope →
      ∃ d, Expansion.Contained d scope) → Ends registry ctx text) := by
  refine ⟨⟨fun h page t scope hpage hopens => ?_, fun h => ?_⟩, fun h => ?_⟩
  · exact Expansion.ends_iff_acc.mp (h.expansion hpage hopens)
  · exact ends_of_opens fun page t scope hpage hopens => Expansion.ends_iff_acc.mpr (h page t scope hpage hopens)
  · refine ends_of_opens fun page t scope hpage hopens => ?_
    obtain ⟨d, hd⟩ := h page t scope hpage hopens
    exact ⟨_, Expansion.settled_expand_of_contained hd (Nat.lt_succ_self _)⟩

/-! ### A page without an end

A loop around a marker stands both in a template and in the markup that this marker stands for. -/

def echoLoop : Node :=
  .element { name := "ForEach", attributes := [("list", "items")] } [.text "\x7b\x7bbody\x7d\x7d"]

def echo : Template where
  name := "t"
  params := [.list "items" true (.text "item" true .generic), .markup "body" true]
  content := ⟨{ name := "content" }, [echoLoop]⟩
  formulas := [("body", .var ["body"])]

def echoInstance : Element :=
  ⟨{ name := "t" },
    [.element { name := "items" } [.element { name := "item" } [.text "a"]], .element { name := "body" } [echoLoop]]⟩

def echoPage : String :=
  "<page><t><items><item>a</item></items>" ++
    "<body><ForEach list='items'>\x7b\x7bbody\x7d\x7d</ForEach></body></t></page>"

theorem substitute_echo {scope : Scope} (hbody : scope.get? "body" = some (.markup ⟨{ name := "body" }, [echoLoop]⟩)) :
    Expansion.substitute echo scope [echoLoop] =
      .ok [.element { name := "ForEach", attributes := [("list", "items")] } [echoLoop]] := by
  have hmarker : Expansion.fragment? echo scope "body" = some [echoLoop] :=
    Expansion.fragment?_eq_some.mpr ⟨["body"], _, rfl, by rw [Scope.lookup?_singleton, hbody], rfl⟩
  have htext : Expansion.splice echo scope "\x7b\x7bbody\x7d\x7d" = .ok [echoLoop] := by
    have hsplit : Segment.split "\x7b\x7bbody\x7d\x7d" = [.marker "\x7b\x7bbody\x7d\x7d" "body"] := by
      decide +kernel
    rw [Expansion.splice_of_ne_empty (by decide), hsplit]
    exact (Expansion.spliceSegments_fragment_eq_ok hmarker).mpr ⟨[], rfl, rfl⟩
  refine Expansion.substitute_cons_eq_ok.mpr ⟨_, [], Expansion.substituteNode_element_eq_ok.mpr
    ⟨_, [echoLoop], Expansion.substituteHead_unbraced (by decide), ?_, rfl⟩, rfl, rfl⟩
  exact Expansion.substitute_cons_eq_ok.mpr ⟨[echoLoop], [], htext, rfl, rfl⟩

/-- Each iteration expands the loop that it is an iteration of. -/
theorem expand_echo {scope : Scope} (hitems : scope.get? "items" = some (.list [.text "a"]))
    (hbody : scope.get? "body" = some (.markup ⟨{ name := "body" }, [echoLoop]⟩)) (limit : Nat) :
    Expansion.expand echo ctx limit scope [echoLoop] = .error .loopLimit := by
  induction limit generalizing scope with
  | zero => rfl
  | succ limit ih =>
    have hlist : Expansion.items? scope ["items"] = some [.text "a"] := by
      simp only [Expansion.items?, Scope.lookup?_singleton, hitems]
    have hover : Expansion.RunsOver echo scope
        ⟨{ name := "ForEach", attributes := [("list", "items")] }, [echoLoop]⟩ [.text "a"] "item" :=
      ⟨"items", rfl, hlist, rfl⟩
    have hagain : Expansion.expand echo ctx limit
        (Expansion.iterationScope scope "__iter" "item" 1 (.text "a")) [echoLoop] = .error .loopLimit := by
      refine ih ?_ ?_
      · rw [Expansion.get?_iterationScope, if_neg (by decide), if_neg (by decide), hitems]
      · rw [Expansion.get?_iterationScope, if_neg (by decide), if_neg (by decide), hbody]
    rw [Expansion.expand, substitute_echo hbody]
    show Expansion.runActions echo ctx (Expansion.expand echo ctx limit) scope
      [.element { name := "ForEach", attributes := [("list", "items")] } [echoLoop]] = _
    rw [Expansion.runActions, Expansion.runNode_loop rfl, Expansion.runLoop_of_runsOver hover, Expansion.iterate]
    dsimp only
    rw [show Expansion.loopIndex _ = "__iter" from rfl, hagain]
    rfl

/-- What the instance on the page binds. -/
def echoScope : Scope :=
  Scope.ofParams [("items", .list [.text "a"]), ("body", .markup ⟨{ name := "body" }, [echoLoop]⟩)]

theorem not_acc_echo (ctx : Context) : ¬ Acc (Expansion.Nested echo ctx) (echoScope, echo.content.children) := by
  intro hacc
  obtain ⟨limit, hl⟩ := Expansion.ends_iff_acc.mpr hacc
  exact hl (expand_echo rfl rfl limit)

theorem opens_echo (h : 0 < ctx.maxDepth) :
    Opens ⟨[echo]⟩ ctx ctx.maxDepth [echoInstance.toNode] echo echoScope := by
  obtain ⟨depth, hd⟩ : ∃ depth, ctx.maxDepth = depth + 1 := ⟨ctx.maxDepth - 1, by omega⟩
  rw [hd]
  exact .here rfl rfl rfl

/-- The page is read, and the body of its template is expanded: that is the beginning of an endless chain, so
    processing the page does not end, although no template is inside another. -/
theorem not_ends_echo :
    read echoPage = .ok ⟨{ name := "page" }, [echoInstance.toNode]⟩ ∧
      Opens ⟨[echo]⟩ emptySite emptySite.maxDepth [echoInstance.toNode] echo echoScope ∧
      ¬ Acc (Expansion.Nested echo emptySite) (echoScope, echo.content.children) ∧
      ¬ Ends ⟨[echo]⟩ emptySite echoPage := by
  have hread : read echoPage = .ok ⟨{ name := "page" }, [echoInstance.toNode]⟩ := eq_ok_of_toOption (by decide +kernel)
  have hopens := @opens_echo emptySite (by decide)
  refine ⟨hread, hopens, not_acc_echo emptySite, fun hends => ?_⟩
  exact not_acc_echo emptySite (Expansion.ends_iff_acc.mp (hends.expansion hread hopens))

end Page
end Letterpress
