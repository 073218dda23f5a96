import Letterpress.Proofs.Page.Limit

/-! The instances that a page meets on the way: those in it, and those in the bodies that take the place of
    others, each inside so many others. What goes wrong at one of them is what the page comes to, and the
    page comes to an end if all of them do. -/

namespace Letterpress
open Markup (Node Element Head)

namespace Page

variable {registry : Registry} {ctx : Context}

/-- Replacing the instances in the nodes, where instances may still nest so deep, comes to an instance of the
    template inside so many others: all that comes before it has succeeded. Its template is applied if the
    depth left allows it. -/
inductive Meets (registry : Registry) (ctx : Context) : Nat → List Node → Nat → Template → Element → Prop
  | later {depth level : Nat} {node : Node} {nodes : List Node} {t : Template} {e : Element}
      (done : ∃ limit out, replacedNode registry ctx depth limit node = .ok out)
      (h : Meets registry ctx depth nodes level t e) : Meets registry ctx depth (node :: nodes) level t e
  | inside {depth level : Nat} {head : Head} {children nodes : List Node} {t : Template} {e : Element}
      (other : registry.get? head.name = none) (h : Meets registry ctx depth children level t e) :
      Meets registry ctx depth (.element head children :: nodes) level t e
  | here {depth : Nat} {head : Head} {children nodes : List Node} {t : Template}
      (ht : registry.get? head.name = some t) :
      Meets registry ctx depth (.element head children :: nodes) 0 t ⟨head, children⟩
  | within {depth level : Nat} {head : Head} {children nodes : List Node} {t t' : Template} {content e : Element}
      (ht : registry.get? head.name = some t)
      (done : ∃ limit, t.apply (ctx.withLimit limit) ⟨head, children⟩ = .ok content)
      (h : Meets registry ctx depth content.children level t' e) :
      Meets registry ctx (depth + 1) (.element head children :: nodes) (level + 1) t' e

theorem Meets.cons_of_singleton {depth level : Nat} {node : Node} {nodes : List Node} {t : Template} {e : Element}
    (h : Meets registry ctx depth [node] level t e) : Meets registry ctx depth (node :: nodes) level t e := by
  cases h with
  | later _ h => cases h
  | inside other h => exact .inside other h
  | here ht => exact .here ht
  | within ht done h => exact .within ht done h

theorem Meets.level_le {depth level : Nat} {nodes : List Node} {t : Template} {e : Element}
    (h : Meets registry ctx depth nodes level t e) : level ≤ depth := by
  induction h with
  | later _ _ ih => exact ih
  | inside _ _ ih => exact ih
  | here => exact Nat.zero_le _
  | within _ _ _ ih => exact Nat.succ_le_succ ih

/-! ### What goes wrong at an instance -/

/-- Where a page does not run into the loop limit, an error at an instance that it meets is its error. -/
theorem error_of_meets {depth level limit : Nat} {nodes : List Node} {t : Template} {e : Element}
    (h : Meets registry ctx depth nodes level t e) (hs : Settled (replaced registry ctx depth limit nodes)) {fault : Error}
    (hf : instantiated registry ctx (depth - level) limit t e = .error fault) :
    replaced registry ctx depth limit nodes = .error fault := by
  induction h with
  | @later depth level node nodes t e done _ ih =>
    -- What stands before has ended at some limit, so at this one, where it ends too, it comes to the same.
    obtain ⟨limit', out, hout⟩ := done
    rw [replaced_cons] at hs ⊢
    have hnode := @eq_ok_of_settled _ (fun limit => replacedNode registry ctx depth limit node)
      (fun h hs => replacedNode_mono h hs) limit limit' out hs.of_bind hout
    rw [hnode]
    show (replaced registry ctx depth limit nodes >>= _) = _
    rw [ih (hs.next hnode).of_bind hf]
    rfl
  | inside other _ ih =>
    rw [replaced_cons, replacedNode_other other] at hs ⊢
    rw [ih hs.of_bind.of_bind hf]
    rfl
  | here ht =>
    rw [Nat.sub_zero] at hf
    rw [replaced_cons, replacedNode_instance ht, hf]
    rfl
  | @within depth level head children nodes t t' content e ht done _ ih =>
    obtain ⟨limit', hout⟩ := done
    rw [replaced_cons, replacedNode_instance ht, instantiated_succ] at hs ⊢
    have happly := @eq_ok_of_settled _ (fun limit => t.apply (ctx.withLimit limit) ⟨head, children⟩)
      (fun h hs => Template.apply_mono h hs) limit limit' content hs.of_bind.of_bind hout
    rw [happly] at hs ⊢
    rw [Nat.succ_sub_succ] at hf
    show (replaced registry ctx depth limit content.children >>= _) = _
    rw [ih hs.of_bind hf]
    rfl

/-- Where a page does not run into the loop limit, no application on the way does. -/
theorem settled_of_meets {depth level limit : Nat} {nodes : List Node} {t : Template} {e : Element}
    (h : Meets registry ctx depth nodes level t e) (hl : level < depth)
    (hs : Settled (replaced registry ctx depth limit nodes)) : Settled (t.apply (ctx.withLimit limit) e) := by
  intro hbad
  refine hs (error_of_meets h hs ?_)
  obtain ⟨left, hleft⟩ : ∃ left, depth - level = left + 1 := ⟨depth - level - 1, by omega⟩
  rw [hleft, instantiated_succ, hbad]
  rfl

/-! ### Pages that come to an end -/

/-- Every application on the way comes to an end. -/
def ApplicationsEnd (registry : Registry) (ctx : Context) (depth : Nat) (nodes : List Node) : Prop :=
  ∀ level t e, Meets registry ctx depth nodes level t e → level < depth →
    ∃ limit, Settled (t.apply (ctx.withLimit limit) e)

/-- Every instance comes to an end if every application on the way does. -/
def InstancesEnd (registry : Registry) (ctx : Context) (depth : Nat) : Prop :=
  ∀ head children t, registry.get? head.name = some t →
    ApplicationsEnd registry ctx depth [.element head children] →
    ∃ limit, Settled (instantiated registry ctx depth limit t ⟨head, children⟩)

mutual

theorem replacedNode_ends {depth : Nat} (hi : InstancesEnd registry ctx depth) : ∀ {node : Node},
    ApplicationsEnd registry ctx depth [node] → ∃ limit, Settled (replacedNode registry ctx depth limit node)
  | .element head children, h => by
    cases ht : registry.get? head.name with
    | some t =>
      obtain ⟨limit, hl⟩ := hi head children t ht h
      exact ⟨limit, by rw [replacedNode_instance ht]; exact hl⟩
    | none =>
      obtain ⟨limit, hl⟩ := @replaced_ends_of depth hi children fun level t e hm => h level t e (.inside ht hm)
      exact ⟨limit, by rw [replacedNode_other ht]; exact hl.bind fun _ _ => Settled.ok _⟩
  | .text _, _ | .cdata _, _ | .comment _, _ | .instruction .., _ =>
    ⟨0, by rw [replacedNode_of_no_element rfl]; exact Settled.ok _⟩

theorem replaced_ends_of {depth : Nat} (hi : InstancesEnd registry ctx depth) : ∀ {nodes : List Node},
    ApplicationsEnd registry ctx depth nodes → ∃ limit, Settled (replaced registry ctx depth limit nodes)
  | [], _ => ⟨0, by rw [replaced_nil]; exact Settled.ok _⟩
  | node :: nodes, h => by
    obtain ⟨m, hm⟩ := @replacedNode_ends depth hi node fun level t e hm => h level t e hm.cons_of_singleton
    cases hfirst : replacedNode registry ctx depth m node with
    | error fault =>
      -- The other nodes are not come to, so nothing is known of them.
      refine ⟨m, ?_⟩
      rw [replaced_cons]
      refine hm.bind fun front hfront => ?_
      rw [hfirst] at hfront
      cases hfront
    | ok front =>
      obtain ⟨n, hn⟩ := @replaced_ends_of depth hi nodes fun level t e hm => h level t e (.later ⟨m, front, hfirst⟩ hm)
      refine ⟨max m n, ?_⟩
      rw [replaced_cons, replacedNode_mono (Nat.le_max_left m n) hm, replaced_mono (Nat.le_max_right m n) hn]
      exact hm.bind fun _ _ => hn.bind fun _ _ => Settled.ok _

end

theorem instancesEnd_succ {depth : Nat} (hnodes : ∀ nodes, ApplicationsEnd registry ctx depth nodes →
    ∃ limit, Settled (replaced registry ctx depth limit nodes)) : InstancesEnd registry ctx (depth + 1) := by
  intro head children t ht h
  obtain ⟨m, hm⟩ := h 0 t ⟨head, children⟩ (.here ht) (Nat.succ_pos depth)
  cases hfirst : t.apply (ctx.withLimit m) ⟨head, children⟩ with
  | error fault =>
    refine ⟨m, ?_⟩
    rw [instantiated_succ]
    refine hm.bind fun content hcontent => ?_
    rw [hfirst] at hcontent
    cases hcontent
  | ok content =>
    obtain ⟨n, hn⟩ := hnodes content.children fun level t' e hmeets hl =>
      h (level + 1) t' e (.within ht ⟨m, hfirst⟩ hmeets) (Nat.succ_lt_succ hl)
    -- The greater limit is enough both for the application and for what it has brought in.
    refine ⟨max m n, ?_⟩
    rw [instantiated_succ, Template.apply_mono (Nat.le_max_left m n) hm, hfirst]
    show Settled (replaced registry ctx depth (max m n) content.children)
    rw [replaced_mono (Nat.le_max_right m n) hn]
    exact hn

theorem replaced_ends {depth : Nat} {nodes : List Node} (h : ApplicationsEnd registry ctx depth nodes) :
    ∃ limit, Settled (replaced registry ctx depth limit nodes) := by
  induction depth generalizing nodes with
  | zero =>
    refine replaced_ends_of (fun head children t _ _ => ⟨0, ?_⟩) h
    exact fun hbad => Error.noConfusion (Except.error.inj hbad)
  | succ depth ih => exact replaced_ends_of (instancesEnd_succ fun _ h => ih h) h

theorem settled_read (text : String) : Settled (read text) := by
  unfold read
  split
  · exact nofun
  · split
    · exact Settled.ok _
    · exact nofun

theorem result_process (registry : Registry) (ctx : Context) (limit : Nat) (text : String) :
    (process registry (ctx.withLimit limit) text).result = read text >>= fun page =>
      replaced registry ctx ctx.maxDepth limit page.children >>= fun children => .ok { page with children } := by
  simp only [process, expandElement, result_bind]
  rfl

/-- Processing the page comes to an end, and to the same one under all limits on the nesting of loops from
    some point on. -/
def Ends (registry : Registry) (ctx : Context) (text : String) : Prop :=
  ∃ result, result ≠ .error .loopLimit ∧ ∃ bound, ∀ limit, bound ≤ limit →
    (process registry { ctx with loopLimit := limit } text).result = result

theorem Ends.settled {text : String} (h : Ends registry ctx text) {page : Element} (hpage : read text = .ok page) :
    ∃ limit, Settled (replaced registry ctx ctx.maxDepth limit page.children) := by
  obtain ⟨result, hr, bound, h⟩ := h
  have hs : Settled (process registry (ctx.withLimit bound) text).result := (h bound (Nat.le_refl bound)).symm ▸ hr
  rw [result_process] at hs
  exact ⟨bound, (hs.next hpage).of_bind⟩

theorem ends_of_applications {text : String}
    (h : ∀ page, read text = .ok page → ApplicationsEnd registry ctx ctx.maxDepth page.children) :
    Ends registry ctx text := by
  cases hpage : read text with
  | error fault =>
    refine ⟨.error fault, hpage ▸ settled_read text, 0, fun limit _ => ?_⟩
    show (process registry (ctx.withLimit limit) text).result = _
    rw [result_process, hpage]
    rfl
  | ok page =>
    obtain ⟨bound, hb⟩ := replaced_ends (h page hpage)
    refine ⟨replaced registry ctx ctx.maxDepth bound page.children >>= fun children => .ok { page with children },
      hb.bind fun _ _ => Settled.ok _, bound, fun limit hl => ?_⟩
    show (process registry (ctx.withLimit limit) text).result = _
    rw [result_process, hpage, ← replaced_mono hl hb]
    rfl

end Page
end Letterpress
