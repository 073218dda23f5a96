import Letterpress.Markup.Document
import Mathlib.Data.List.Basic

/-! Nodes at the top of a fragment and nodes inside an element. There is a writer for each. They agree on elements,
    texts and sections of character data, but a comment is set off from its delimiters inside an element only, and an
    instruction is left out at the top. So what an element holds is written as it stands between its tags
    exactly where it holds no instruction and only comments that begin and end with a blank. -/

namespace Letterpress

/-! ### Texts one after the other -/

section
variable {α : Type} {f g : α → String} {members : List α}

theorem length_join_le (h : ∀ a ∈ members, (f a).length ≤ (g a).length) :
    (String.join (members.map f)).length ≤ (String.join (members.map g)).length := by
  induction members with
  | nil => exact Nat.le_refl _
  | cons a members ih =>
    obtain ⟨hfirst, hrest⟩ := List.forall_mem_cons.mp h
    simp only [List.map_cons, String.join_cons, String.length_append]
    exact Nat.add_le_add hfirst (ih hrest)

/-- Where each text is at most as long as its counterpart, the whole is the same only if each of them is. -/
theorem join_eq_iff (h : ∀ a ∈ members, (f a).length ≤ (g a).length) :
    String.join (members.map f) = String.join (members.map g) ↔ ∀ a ∈ members, f a = g a := by
  constructor
  · intro heq
    induction members with
    | nil => exact List.forall_mem_nil _
    | cons a members ih =>
      obtain ⟨hfirst, hrest⟩ := List.forall_mem_cons.mp h
      have hle := length_join_le hrest
      rw [List.map_cons, List.map_cons, String.join_cons, String.join_cons] at heq
      -- No text is longer than its counterpart, so the wholes are equally long only if the first ones are.
      have hlength : (f a).length = (g a).length := by
        have := congrArg String.length heq
        simp only [String.length_append] at this
        omega
      have hsame : f a = g a := by
        have hlist := congrArg String.toList heq
        rw [String.toList_append, String.toList_append] at hlist
        exact String.toList_inj.mp (List.append_inj_left hlist hlength)
      rw [hsame, String.append_right_inj] at heq
      exact List.forall_mem_cons.mpr ⟨hsame, ih hrest heq⟩
  · intro hsame
    rw [List.map_congr_left hsame]

end

namespace Markup

/-! ### Inside an element -/

/-- The node as it is written inside an element, on one line. -/
def Node.inline (node : Node) : String :=
  node.write .compact 0 [("", "")]

mutual

/-- On one line the level makes no difference. -/
theorem write_compact (level level' : Nat) (known : List (String × String)) : ∀ node : Node,
    node.write .compact level known = node.write .compact level' known
  | .element head children => by
    simp only [Node.write, Layout.lineBreak]
    rw [writeNodes_compact (level + 1) (level' + 1) _ false false children]
  | .text _ | .cdata _ | .comment _ | .instruction .. => rfl

theorem writeNodes_compact (level level' : Nat) (known : List (String × String)) (afterText afterText' : Bool) :
    ∀ nodes : List Node,
      writeNodes .compact level known afterText nodes = writeNodes .compact level' known afterText' nodes
  | [] => rfl
  | node :: nodes => by
    simp only [writeNodes, Layout.lineBreak, ite_self]
    rw [write_compact level level' known node, writeNodes_compact level level' known _ _ nodes]

end

theorem writeNodes_eq_join (level : Nat) (afterText : Bool) (nodes : List Node) :
    writeNodes .compact level [("", "")] afterText nodes = String.join (nodes.map Node.inline) := by
  induction nodes generalizing afterText with
  | nil => rfl
  | cons node nodes ih =>
    simp only [writeNodes, Layout.lineBreak, ite_self, String.empty_append]
    rw [ih, write_compact level 0, List.map_cons, String.join_cons, Node.inline]

/-- The opening tag of an element without namespaces. -/
def openingTag (head : Head) : String :=
  "<" ++ head.name ++ String.join (head.attributes.map writeAttribute) ++ ">"

/-- The closing tag of an element without namespaces. -/
def closingTag (head : Head) : String :=
  "</" ++ head.name ++ ">"

/-! ### At the top -/

/-- A blank stands at both ends of the text. -/
def Padded (content : String) : Prop :=
  content.toList.head?.any Text.isBlank = true ∧ content.toList.getLast?.any Text.isBlank = true

instance (content : String) : Decidable (Padded content) :=
  inferInstanceAs (Decidable (_ ∧ _))

/-- The node is written at the top as it is inside an element. -/
inductive Node.WrittenAlike : Node → Prop
  | element (head : Head) (children : List Node) : WrittenAlike (.element head children)
  | text (content : String) : WrittenAlike (.text content)
  | cdata (content : String) : WrittenAlike (.cdata content)
  | comment {content : String} (h : Padded content) : WrittenAlike (.comment content)

/-- A comment is set off by a blank on every side on which it has none. -/
theorem writeComment_eq (content : String) : ∃ before after : String,
    writeComment content = "<!--" ++ before ++ content ++ after ++ "-->" ∧
      (before = "" ∧ after = "" ↔ Padded content) := by
  refine ⟨_, _, rfl, ?_⟩
  unfold Padded
  cases content.toList.head? <;> cases content.toList.getLast? <;> simp

theorem length_writeTop_le (node : Node) : (node.writeTop .compact).length ≤ node.inline.length := by
  cases node with
  | comment content =>
    obtain ⟨before, after, hwritten, -⟩ := writeComment_eq content
    rw [Node.inline, Node.write, hwritten, Node.writeTop]
    simp only [String.length_append]
    omega
  | instruction target data => exact Nat.zero_le _
  | _ => exact Nat.le_refl _

theorem writeTop_eq_inline_iff (node : Node) : node.writeTop .compact = node.inline ↔ node.WrittenAlike := by
  cases node with
  | element head children => exact iff_of_true rfl (.element head children)
  | text content => exact iff_of_true rfl (.text content)
  | cdata content => exact iff_of_true rfl (.cdata content)
  | comment content =>
    obtain ⟨before, after, hwritten, hpadded⟩ := writeComment_eq content
    have halike : (Node.comment content).WrittenAlike ↔ Padded content :=
      ⟨fun h => by cases h with | comment h => exact h, .comment⟩
    rw [halike, ← hpadded, Node.inline, Node.write, hwritten, Node.writeTop]
    constructor
    · intro h
      have hlength := congrArg String.length h
      simp only [String.length_append] at hlength
      rw [← String.length_eq_zero_iff, ← String.length_eq_zero_iff]
      omega
    · rintro ⟨rfl, rfl⟩
      simp only [String.append_empty]
  | instruction target data =>
    refine iff_of_false (fun h => ?_) nofun
    have hlength := congrArg String.length h
    have hopen : "<?".length = 2 := by decide
    cases data <;> simp only [Node.writeTop, Node.inline, Node.write, writeInstruction, String.length_append, hopen,
      String.length_empty] at hlength <;> omega

/-- Nothing of the node is written at the top: it is an instruction, unless there is nothing to write of it. -/
inductive Node.LeftOut : Node → Prop
  | instruction (target : String) (data : Option String) : LeftOut (.instruction target data)
  | nothing : LeftOut (.text "")

theorem escapeText_eq_empty {content : String} : escapeText content = "" ↔ content = "" := by
  have hchar : ∀ c : Char, textChar c ≠ [] := fun c => by unfold textChar; split <;> simp
  simp only [escapeText, String.ofList_eq_empty_iff, List.flatMap_eq_nil_iff, hchar, imp_false]
  rw [← List.eq_nil_iff_forall_not_mem, String.toList_eq_nil_iff]

theorem writeTop_eq_empty (layout : Layout) (node : Node) : node.writeTop layout = "" ↔ node.LeftOut := by
  cases node with
  | element head children =>
    refine iff_of_false (fun h => ?_) nofun
    simp only [Node.writeTop, Node.write, writeHead] at h
    split at h <;> simp at h
  | text content =>
    rw [Node.writeTop, Node.write, escapeText_eq_empty]
    · exact ⟨fun h => h ▸ .nothing, fun h => by cases h; rfl⟩
    · exact nofun
    · exact nofun
  | cdata content => exact iff_of_false (fun h => by simp [Node.writeTop, Node.write] at h) nofun
  | comment content => exact iff_of_false (fun h => by simp [Node.writeTop] at h) nofun
  | instruction target data => exact iff_of_true rfl (.instruction target data)

/-- Elements stay elements, and everything else stays. -/
theorem leftOut_keepClosingTags (node : Node) : node.keepClosingTags.LeftOut ↔ node.LeftOut := by
  cases node with
  | element head children =>
    cases children <;> exact iff_of_false nofun nofun
  | _ => rfl

theorem join_map_eq_iff {α : Type} (f : α → String) (before after : List α) (a b : α) :
    String.join ((before ++ a :: after).map f) = String.join ((before ++ b :: after).map f) ↔ f a = f b := by
  simp only [List.map_append, List.map_cons, String.join_append, String.join_cons, String.append_right_inj,
    String.append_left_inj]

theorem inner_eq_without_iff (head : Head) (before after : List Node) (node : Node) :
    Element.inner ⟨head, before ++ node :: after⟩ = Element.inner ⟨head, before ++ .text "" :: after⟩ ↔ node.LeftOut := by
  rw [Element.inner, Element.inner, join_map_eq_iff, ← writeTop_eq_empty .compact]
  rfl

theorem writeDocument_eq_without_iff (layout : Layout) (head : Head) (before after : List Node) (node : Node) :
    writeDocument layout ⟨head, before ++ node :: after⟩ = writeDocument layout ⟨head, before ++ .text "" :: after⟩ ↔
      node.LeftOut := by
  rw [writeDocument, writeDocument, String.append_right_inj, join_map_eq_iff]
  unfold writeTopNode
  rw [String.append_left_inj, ← leftOut_keepClosingTags, ← writeTop_eq_empty layout]
  rfl

/-! ### Between the tags -/

/-- An element without namespaces that holds something is written as its opening tag, its children one by one and its
    closing tag. -/
theorem outer_eq {e : Element} (hq : e.head.qualifier = none) (hs : e.head.scope = []) (hc : e.children ≠ []) :
    e.outer = openingTag e.head ++ String.join (e.children.map Node.inline) ++ closingTag e.head := by
  obtain ⟨⟨name, qualifier, scope, attributes⟩, children⟩ := e
  cases hq
  cases hs
  have hempty : children.isEmpty = false := List.isEmpty_eq_false_iff.mpr hc
  simp only [Element.outer, Element.toNode, Node.writeTop, Node.write, hempty, Layout.lineBreak, ite_self]
  rw [List.append_nil, writeNodes_eq_join]
  simp [writeHead, Head.tag, openingTag, closingTag, String.append_assoc]

/-- What an element without namespaces holds is written between its tags as it is inside an element. Written on its
    own it is the same exactly where it holds no instruction and only padded comments, as nothing but an
    instruction is left out of it, or out of the document made of it. -/
theorem outer_eq_inner_iff (e : Element) (hq : e.head.qualifier = none) (hs : e.head.scope = []) (hc : e.children ≠ []) :
    e.outer = openingTag e.head ++ String.join (e.children.map Node.inline) ++ closingTag e.head ∧
    (e.outer = openingTag e.head ++ e.inner ++ closingTag e.head ↔ ∀ node ∈ e.children, node.WrittenAlike) ∧
    ∀ before node after, e.children = before ++ node :: after →
      (e.inner = Element.inner ⟨e.head, before ++ .text "" :: after⟩ ↔ node.LeftOut) ∧
      ∀ layout, (writeDocument layout e = writeDocument layout ⟨e.head, before ++ .text "" :: after⟩ ↔ node.LeftOut) := by
  have houter := outer_eq hq hs hc
  refine ⟨houter, ?_, fun before node after hsplit => ?_⟩
  · have hle : ∀ node ∈ e.children, (node.writeTop .compact).length ≤ node.inline.length :=
      fun node _ => length_writeTop_le node
    rw [houter, String.append_left_inj, String.append_right_inj, Element.inner, eq_comm, join_eq_iff hle]
    simp only [writeTop_eq_inline_iff]
  · obtain ⟨head, children⟩ := e
    obtain rfl : children = before ++ node :: after := hsplit
    exact ⟨inner_eq_without_iff .., fun layout => writeDocument_eq_without_iff layout ..⟩

/-- An element whose comment is not padded. -/
def mark : Node :=
  .element { name := "b" } [.comment "x", .instruction "p" none]

def noteHead : Head where
  name := "note"
  attributes := [("title", "R&D")]

/-- A note that ends in these nodes. -/
def note (nodes : List Node) : Element :=
  ⟨noteHead, .text "1 < 2 " :: .cdata "<&>" :: nodes⟩

/-- Comments and instructions inside an element are written alike, while one between the tags makes a difference. -/
theorem note_between_its_tags :
    (note [.comment " y ", mark]).outer = "<note title=\"R&amp;D\">" ++ (note [.comment " y ", mark]).inner ++ "</note>" ∧
    (note [.comment "y", mark]).outer ≠ "<note title=\"R&amp;D\">" ++ (note [.comment "y", mark]).inner ++ "</note>" ∧
    (note [.instruction "p" (some "d"), mark]).inner = (note [.text "", mark]).inner := by
  have hne : ∀ nodes, (note nodes).children ≠ [] := fun nodes => List.cons_ne_nil _ _
  have hopening : openingTag noteHead = "<note title=\"R&amp;D\">" := by decide +kernel
  have hclosing : closingTag noteHead = "</note>" := rfl
  have halike : ∀ nodes, (note nodes).outer = "<note title=\"R&amp;D\">" ++ (note nodes).inner ++ "</note>" ↔
      ∀ node ∈ (note nodes).children, node.WrittenAlike := fun nodes => by
    rw [← hopening, ← hclosing]
    exact (outer_eq_inner_iff (note nodes) rfl rfl (hne nodes)).2.1
  refine ⟨(halike _).mpr ?_, fun h => ?_, ?_⟩
  · simp only [note, List.forall_mem_cons]
    exact ⟨.text _, .cdata _, .comment (by decide), .element _ _, nofun⟩
  · cases (halike _).mp h (.comment "y") (by simp [note]) with
    | comment hpadded => exact absurd hpadded (by decide)
  · obtain ⟨-, -, hleft⟩ := outer_eq_inner_iff (note [.instruction "p" (some "d"), mark]) rfl rfl (hne _)
    exact (hleft [.text "1 < 2 ", .cdata "<&>"] (.instruction "p" (some "d")) [mark] rfl).1.mpr (.instruction "p" (some "d"))

end Markup
end Letterpress
