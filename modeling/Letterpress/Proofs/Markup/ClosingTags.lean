import Letterpress.Markup.Document
import Letterpress.Proofs.Markup.Tree
import Mathlib.Data.List.Basic

/-! Closing tags. A document is written of a page whose childless elements have been given an empty text, all but the
    void ones. Nothing else is put into the page, so what was put in can be taken out again. What is written of
    an element does not change what stands around it, and it closes itself only if it is void and has no children. -/

namespace Letterpress
namespace Markup

/-! ### Places -/

namespace Node

/-- The nodes inside a node. -/
def children : Node → List Node
  | element _ children => children
  | _ => []

/-- What stands at a place, which is given by the positions that lead to it from parent to child. -/
def at? (node : Node) : List Nat → Option Node
  | [] => some node
  | index :: place => node.children[index]?.bind (·.at? place)

/-- The node with another one at a place that it has. -/
def putAt : Node → List Nat → Node → Node
  | _, [], other => other
  | element head children, index :: place, other => element head (children.modify index (·.putAt place other))
  | node, _ :: _, _ => node

theorem at?_append (node : Node) (place rest : List Nat) :
    node.at? (place ++ rest) = (node.at? place).bind (·.at? rest) := by
  induction place generalizing node with
  | nil => rfl
  | cons index place ih =>
    rw [List.cons_append, at?, at?]
    cases node.children[index]? with
    | none => rfl
    | some child => exact ih child

theorem at?_cons_eq_some {node found : Node} {index : Nat} {place : List Nat} :
    node.at? (index :: place) = some found ↔ ∃ head children child, node = element head children ∧
      children[index]? = some child ∧ child.at? place = some found := by
  rw [at?, Option.bind_eq_some_iff]
  constructor
  · rintro ⟨child, hchild, h⟩
    cases node with
    | element head children => exact ⟨head, children, child, rfl, hchild, h⟩
    | _ => cases hchild
  · rintro ⟨head, children, child, rfl, hchild, h⟩
    exact ⟨child, hchild, h⟩

end Node

mutual

/-- The node without what stands at the places given. -/
def Node.without (gone : List Nat → Bool) : Node → Node
  | .element head children => .element head (withoutFrom gone 0 children)
  | node => node

/-- The nodes without what stands at the places given, where the first of them has this position. -/
def withoutFrom (gone : List Nat → Bool) (index : Nat) : List Node → List Node
  | [] => []
  | node :: nodes =>
    if gone [index] then withoutFrom gone (index + 1) nodes
    else node.without (fun place => gone (index :: place)) :: withoutFrom gone (index + 1) nodes

end

/-! ### Texts put in -/

theorem keepAllClosingTags_eq_map (nodes : List Node) : keepAllClosingTags nodes = nodes.map Node.keepClosingTags := by
  induction nodes with
  | nil => rfl
  | cons node nodes ih => rw [keepAllClosingTags, ih, List.map_cons]

theorem keepClosingTags_of_children {children : List Node} (head : Head) (h : children ≠ []) :
    (Node.element head children).keepClosingTags = .element head (children.map Node.keepClosingTags) := by
  obtain ⟨child, children, rfl⟩ := List.exists_cons_of_ne_nil h
  rw [Node.keepClosingTags, keepAllClosingTags_eq_map, List.map_cons]

mutual

theorem keepClosingTags_keepClosingTags : ∀ node : Node, node.keepClosingTags.keepClosingTags = node.keepClosingTags
  | .element head [] => by
    rw [Node.keepClosingTags]
    cases hvoid : isVoid head.name <;> simp [Node.keepClosingTags, keepAllClosingTags, hvoid]
  | .element head (child :: children) => by
    rw [Node.keepClosingTags, Node.keepClosingTags, keepClosingTags_keepClosingTags child,
      keepAllClosingTags_keepAllClosingTags children]
  | .text _ | .cdata _ | .comment _ | .instruction .. => rfl

theorem keepAllClosingTags_keepAllClosingTags : ∀ nodes : List Node,
    keepAllClosingTags (keepAllClosingTags nodes) = keepAllClosingTags nodes
  | [] => rfl
  | node :: nodes => by
    rw [keepAllClosingTags, keepAllClosingTags, keepClosingTags_keepClosingTags node,
      keepAllClosingTags_keepAllClosingTags nodes]

end

theorem at?_keepClosingTags {node found : Node} {place : List Nat} (h : node.at? place = some found) :
    node.keepClosingTags.at? place = some found.keepClosingTags := by
  induction place generalizing node with
  | nil =>
    cases h
    rfl
  | cons index place ih =>
    obtain ⟨head, children, child, rfl, hchild, hfound⟩ := Node.at?_cons_eq_some.mp h
    have hne : children ≠ [] := List.ne_nil_of_mem (List.mem_of_getElem? hchild)
    rw [keepClosingTags_of_children head hne]
    exact Node.at?_cons_eq_some.mpr ⟨head, _, _, rfl, by rw [List.getElem?_map, hchild, Option.map_some], ih hfound⟩

/-- The only thing in a childless element, if anything is, is the text it has been given. -/
theorem at?_keepClosingTags_childless {head : Head} {found : Node} {index : Nat} {place : List Nat}
    (h : (Node.element head []).keepClosingTags.at? (index :: place) = some found) :
    index :: place = [0] ∧ isVoid head.name = false ∧ found = .text "" := by
  rw [Node.keepClosingTags] at h
  cases hvoid : isVoid head.name with
  | true =>
    rw [hvoid] at h
    cases h
  | false =>
    rw [hvoid] at h
    cases index with
    | succ index => cases h
    | zero =>
      cases place with
      | cons => cases h
      | nil =>
        cases h
        exact ⟨rfl, rfl, rfl⟩

/-- The places that are new are those of an empty text in each element that has no children and is not void. -/
theorem new_at?_keepClosingTags {node found : Node} {place : List Nat} :
    node.at? place = none ∧ node.keepClosingTags.at? place = some found ↔
      ∃ parent head, place = parent ++ [0] ∧ node.at? parent = some (.element head []) ∧ isVoid head.name = false ∧
        found = .text "" := by
  constructor
  · rintro ⟨hnone, hfound⟩
    induction place generalizing node with
    | nil => cases hnone
    | cons index place ih =>
      cases node with
      | element head children =>
        by_cases hne : children = []
        · subst hne
          obtain ⟨hplace, hvoid, rfl⟩ := at?_keepClosingTags_childless hfound
          exact ⟨[], head, hplace, rfl, hvoid, rfl⟩
        · rw [keepClosingTags_of_children head hne, Node.at?, Node.children, List.getElem?_map] at hfound
          obtain ⟨kept, hkept, hfound⟩ := Option.bind_eq_some_iff.mp hfound
          obtain ⟨child, hchild, rfl⟩ := Option.map_eq_some_iff.mp hkept
          rw [Node.at?, Node.children, hchild] at hnone
          obtain ⟨parent, head', rfl, hparent, hvoid, rfl⟩ := ih hnone hfound
          exact ⟨index :: parent, head', rfl, Node.at?_cons_eq_some.mpr ⟨head, children, child, rfl, hchild, hparent⟩,
            hvoid, rfl⟩
      | _ => cases hfound
  · rintro ⟨parent, head, rfl, hparent, hvoid, rfl⟩
    rw [Node.at?_append, Node.at?_append, hparent, at?_keepClosingTags hparent, Node.keepClosingTags, hvoid]
    exact ⟨rfl, rfl⟩

mutual

/-- Without what stands at the new places the node is as it was. -/
theorem without_keepClosingTags : ∀ (node : Node) (gone : List Nat → Bool),
    (∀ place, gone place = (node.at? place).isNone) → node.keepClosingTags.without gone = node
  | .element head [], gone, h => by
    have hfirst : gone [0] = true := h [0]
    rw [Node.keepClosingTags]
    cases isVoid head.name
    · simp [Node.without, withoutFrom, hfirst]
    · simp [Node.without, withoutFrom]
  | .element head (child :: children), gone, h => by
    -- seen from a child, a place lies behind the position of the child
    rw [Node.keepClosingTags, Node.without,
      ← keepAllClosingTags, withoutFrom_keepAllClosingTags (child :: children) gone 0 fun index place => ?_]
    rw [Nat.zero_add]
    exact h (index :: place)
  | .text _, _, _ | .cdata _, _, _ | .comment _, _, _ | .instruction .., _, _ => rfl

theorem withoutFrom_keepAllClosingTags : ∀ (nodes : List Node) (gone : List Nat → Bool) (start : Nat),
    (∀ index place, gone ((start + index) :: place) = (nodes[index]?.bind (·.at? place)).isNone) →
    withoutFrom gone start (keepAllClosingTags nodes) = nodes
  | [], _, _, _ => rfl
  | node :: nodes, gone, start, h => by
    have hfirst : ∀ place, gone (start :: place) = (node.at? place).isNone := h 0
    have hkept : gone [start] = false := hfirst []
    have hrest : ∀ index place, gone ((start + 1 + index) :: place) = (nodes[index]?.bind (·.at? place)).isNone := by
      intro index place
      rw [Nat.add_assoc, Nat.add_comm 1 index]
      exact h (index + 1) place
    rw [keepAllClosingTags, withoutFrom, hkept, withoutFrom_keepAllClosingTags nodes gone (start + 1) hrest,
      without_keepClosingTags node (fun place => gone (start :: place)) hfirst]
    rfl

end

/-! ### Around a place -/

theorem isText_keepClosingTags (e : Element) : e.toNode.keepClosingTags.isText = false := by
  obtain ⟨head, children⟩ := e
  cases children <;> rfl

theorem endsInText_append_cons {node : Node} (h : node.isText = false) (front back : List Node) :
    endsInText (front ++ node :: back) = endsInText back := by
  cases back with
  | nil => simp [endsInText, h]
  | cons next back =>
    have hlast : (front ++ node :: next :: back).getLast? = (next :: back).getLast? := by
      rw [List.getLast?_append_cons, List.getLast?_cons_cons]
    rw [endsInText, endsInText, hlast]

/-- What is written before and behind a node depends on whether it is text, and on nothing else about it. -/
theorem writeNodes_around (layout : Layout) (level : Nat) (known : List (String × String)) (afterText : Bool)
    (front back : List Node) : ∃ before after, ∀ node : Node, node.isText = false →
      writeNodes layout level known afterText (front ++ node :: back) = before ++ node.write layout level known ++ after := by
  induction front generalizing afterText with
  | nil =>
    refine ⟨if afterText then "" else layout.lineBreak level, writeNodes layout level known false back, fun node h => ?_⟩
    rw [List.nil_append, writeNodes, h, Bool.or_false]
  | cons first front ih =>
    obtain ⟨before, after, h⟩ := ih first.isText
    refine ⟨(if afterText || first.isText then "" else layout.lineBreak level) ++ first.write layout level known ++ before,
      after, fun node hnode => ?_⟩
    rw [List.cons_append, writeNodes, h node hnode]
    simp only [String.append_assoc]

theorem exists_putAt {node : Node} {e : Element} {place : List Nat} (h : node.at? place = some e.toNode) (other : Element) :
    ∃ whole : Element, node.putAt place other.toNode = whole.toNode := by
  cases place with
  | nil => exact ⟨other, rfl⟩
  | cons index place =>
    obtain ⟨head, children, child, rfl, -, -⟩ := Node.at?_cons_eq_some.mp h
    exact ⟨⟨head, children.modify index (·.putAt place other.toNode)⟩, rfl⟩

theorem exists_modify {nodes : List Node} {index : Nat} {node : Node} (h : nodes[index]? = some node) :
    ∃ front back, nodes = front ++ node :: back ∧ ∀ f, nodes.modify index f = front ++ f node :: back := by
  obtain ⟨hindex, rfl⟩ := List.getElem?_eq_some_iff.mp h
  refine ⟨nodes.take index, nodes.drop (index + 1), ?_, fun f => List.modify_eq_take_cons_drop hindex⟩
  rw [← List.drop_eq_getElem_cons hindex, List.take_append_drop]

theorem putAt_self {node found : Node} {place : List Nat} (h : node.at? place = some found) :
    node.putAt place found = node := by
  induction place generalizing node with
  | nil =>
    cases h
    rfl
  | cons index place ih =>
    obtain ⟨head, children, child, rfl, hchild, hinside⟩ := Node.at?_cons_eq_some.mp h
    obtain ⟨front, back, hsplit, hmodify⟩ := exists_modify hchild
    rw [Node.putAt, hmodify, ih hinside, ← hsplit]

/-- A child that is no text is written between its siblings, and they stand between the tags of their parent. -/
theorem write_element_around (layout : Layout) (level : Nat) (known : List (String × String)) (head : Head)
    (front back : List Node) : ∃ before after, ∀ child : Node, child.keepClosingTags.isText = false →
      (Node.element head (front ++ child :: back)).keepClosingTags.write layout level known =
        before ++ child.keepClosingTags.write layout (level + 1) (known ++ head.scope) ++ after := by
  obtain ⟨left, right, haround⟩ := writeNodes_around layout (level + 1) (known ++ head.scope) false
    (front.map Node.keepClosingTags) (back.map Node.keepClosingTags)
  refine ⟨writeHead known head ++ ">" ++ left, right ++
    (if endsInText (back.map Node.keepClosingTags) then "" else layout.lineBreak level) ++ "</" ++ head.tag ++ ">",
    fun child htext => ?_⟩
  have hne : front ++ child :: back ≠ [] := List.append_ne_nil_of_right_ne_nil _ (List.cons_ne_nil _ _)
  have hempty : (front.map Node.keepClosingTags ++ child.keepClosingTags :: back.map Node.keepClosingTags).isEmpty = false :=
    List.isEmpty_eq_false_iff.mpr (List.append_ne_nil_of_right_ne_nil _ (List.cons_ne_nil _ _))
  rw [keepClosingTags_of_children head hne, List.map_append, List.map_cons, Node.write, hempty,
    if_neg Bool.false_ne_true, haround _ htext, endsInText_append_cons htext]
  simp only [String.append_assoc]

/-- Where an element stands in a node another one can be put, and nothing around it is written otherwise. -/
theorem write_around {node : Node} {e : Element} {place : List Nat} (h : node.at? place = some e.toNode)
    (layout : Layout) (level : Nat) (known : List (String × String)) :
    ∃ before after level' known', ∀ other : Element,
      (node.putAt place other.toNode).keepClosingTags.write layout level known =
        before ++ other.toNode.keepClosingTags.write layout level' known' ++ after := by
  induction place generalizing node level known with
  | nil => exact ⟨"", "", level, known, fun other => by rw [Node.putAt, String.empty_append, String.append_empty]⟩
  | cons index place ih =>
    obtain ⟨head, children, child, rfl, hchild, hinside⟩ := Node.at?_cons_eq_some.mp h
    obtain ⟨front, back, -, hmodify⟩ := exists_modify hchild
    obtain ⟨before, after, level', known', hwrite⟩ := ih hinside (level + 1) (known ++ head.scope)
    obtain ⟨left, right, haround⟩ := write_element_around layout level known head front back
    refine ⟨left ++ before, after ++ right, level', known', fun other => ?_⟩
    obtain ⟨whole, hwhole⟩ := exists_putAt hinside other
    have htext : (child.putAt place other.toNode).keepClosingTags.isText = false := hwhole ▸ isText_keepClosingTags whole
    rw [Node.putAt, hmodify, haround _ htext, hwrite other]
    simp only [String.append_assoc]

/-! ### Documents -/

/-- How the text of an element ends behind its head: the element closes itself, or what it holds and a closing tag
    follow. -/
structure Element.Closes (e : Element) (ending : String) : Prop where
  itself : ending = " />" ↔ e.children = [] ∧ isVoid e.name = true
  byTag : ending ≠ " />" → ∃ content, ending = ">" ++ content ++ "</" ++ e.head.tag ++ ">" ∧ (e.children = [] → content = "")

/-- The document of a page has the element between these texts. -/
def Element.StandsIn (e : Element) (layout : Layout) (page : Element) (before : String) (known : List (String × String))
    (after : String) : Prop :=
  ∃ ending, e.Closes ending ∧ writeDocument layout page = before ++ writeHead known e.head ++ ending ++ after

/-- The page with an element in the place of one that it has. -/
def Element.putAt (page : Element) (index : Nat) (place : List Nat) (e : Element) : Element :=
  ⟨page.head, page.children.modify index (·.putAt place e.toNode)⟩

theorem open_ne_self_closed (rest : String) : ">" ++ rest ≠ " />" := by
  intro h
  have hlist := congrArg String.toList h
  simp at hlist

/-- A prepared element closes itself exactly if it is void and has no children. -/
theorem exists_closes (layout : Layout) (level : Nat) (known : List (String × String)) (e : Element) :
    ∃ ending, e.Closes ending ∧ e.toNode.keepClosingTags.write layout level known = writeHead known e.head ++ ending := by
  obtain ⟨head, children⟩ := e
  have hopen : ∀ rest, ">" ++ rest ≠ " />" := open_ne_self_closed
  by_cases hne : children = []
  · subst hne
    rw [Element.toNode, Node.keepClosingTags]
    cases hvoid : isVoid head.name with
    | true => exact ⟨" />", ⟨iff_of_true rfl ⟨rfl, hvoid⟩, fun h => absurd rfl h⟩, rfl⟩
    | false =>
      refine ⟨">" ++ "" ++ "</" ++ head.tag ++ ">", ⟨?_, fun _ => ⟨"", rfl, fun _ => rfl⟩⟩, ?_⟩
      · refine iff_of_false ?_ fun h => Bool.false_ne_true (hvoid.symm.trans h.2)
        simpa only [String.append_assoc] using hopen _
      · simp [Node.write, writeNodes, endsInText, Node.isText, escapeText, String.append_assoc]
  · have hempty : (children.map Node.keepClosingTags).isEmpty = false := by simp [hne]
    rw [Element.toNode, keepClosingTags_of_children head hne, Node.write, hempty, if_neg Bool.false_ne_true]
    refine ⟨">" ++ (writeNodes layout (level + 1) (known ++ head.scope) false (children.map Node.keepClosingTags) ++
      (if endsInText (children.map Node.keepClosingTags) then "" else layout.lineBreak level)) ++ "</" ++ head.tag ++ ">",
      ⟨?_, fun _ => ⟨_, rfl, fun h => absurd h hne⟩⟩, ?_⟩
    · refine iff_of_false ?_ fun h => hne h.1
      simpa only [String.append_assoc] using hopen _
    · simp only [String.append_assoc]

theorem writeTop_keepClosingTags (layout : Layout) (e : Element) :
    e.toNode.keepClosingTags.writeTop layout = e.toNode.keepClosingTags.write layout 0 [("", "")] := by
  obtain ⟨head, children⟩ := e
  cases children <;> rfl

/-- Whatever element is put at a place of the page, the document is the same before and behind it. -/
theorem standsIn_putAt {page e : Element} {index : Nat} {place : List Nat}
    (h : page.toNode.at? (index :: place) = some e.toNode) (layout : Layout) :
    ∃ before known after, ∀ other : Element, other.StandsIn layout (page.putAt index place other) before known after := by
  obtain ⟨child, hchild, hinside⟩ := Option.bind_eq_some_iff.mp h
  have hchild' : page.children[index]? = some child := hchild
  obtain ⟨front, back, -, hmodify⟩ := exists_modify hchild'
  obtain ⟨before, after, level, known, hwrite⟩ := write_around hinside layout 0 [("", "")]
  obtain ⟨tail, htail⟩ : ∃ tail, ∀ node, writeTopNode layout node = node.keepClosingTags.writeTop layout ++ tail :=
    ⟨_, fun _ => rfl⟩
  refine ⟨doctype ++ String.join (front.map (writeTopNode layout)) ++ before, known,
    after ++ tail ++ String.join (back.map (writeTopNode layout)), fun other => ?_⟩
  obtain ⟨whole, hwhole⟩ := exists_putAt hinside other
  obtain ⟨ending, hcloses, hending⟩ := exists_closes layout level known other
  refine ⟨ending, hcloses, ?_⟩
  have hother := hwrite other
  rw [hwhole, ← writeTop_keepClosingTags, hending] at hother
  rw [writeDocument, Element.putAt, hmodify, List.map_append, List.map_cons, String.join_append, String.join_cons, hwhole,
    htail, hother]
  simp only [String.append_assoc]

/-- Between what is written around it, every element of a page closes itself if and only if it is void and has no
    children, and a childless one that does not is closed right behind its opening tag; another element in its
    place is written between the same texts. For this the childless elements that are not void are given
    an empty text each. Nothing more is put into a node: without these texts it is as it was, and it is
    given no others the next time. -/
theorem only_void_elements_close_themselves (layout : Layout) (page : Element) :
    (∀ index place (e : Element), page.toNode.at? (index :: place) = some e.toNode →
      ∃ before known after, e.StandsIn layout page before known after ∧
        ∀ other : Element, other.StandsIn layout (page.putAt index place other) before known after) ∧
    ∀ node : Node,
      (∀ place found, node.at? place = none ∧ node.keepClosingTags.at? place = some found ↔
        ∃ parent head, place = parent ++ [0] ∧ node.at? parent = some (.element head []) ∧ isVoid head.name = false ∧
          found = .text "") ∧
      node.keepClosingTags.without (fun place => (node.at? place).isNone) = node ∧
      node.keepClosingTags.keepClosingTags = node.keepClosingTags := by
  refine ⟨fun index place e h => ?_, fun node => ⟨fun place found => new_at?_keepClosingTags,
    without_keepClosingTags node _ fun _ => rfl, keepClosingTags_keepClosingTags node⟩⟩
  obtain ⟨before, known, after, hstands⟩ := standsIn_putAt h layout
  refine ⟨before, known, after, ?_, hstands⟩
  have hself : page.putAt index place e = page := Element.toNode_injective (putAt_self h)
  exact hself ▸ hstands e

def rule : Element :=
  ⟨{ name := "HR", attributes := [("id", "r")] }, []⟩

def script : Element :=
  ⟨{ name := "script", attributes := [("src", "a.js")] }, []⟩

/-- Elements without children between texts and comments, one of them void and in capitals. -/
def board : Element :=
  ⟨{ name := "page" },
    [.element { name := "div" } [.text "a", rule.toNode, .comment "b", .element { name := "br" } [.text ""], script.toNode]]⟩

theorem rule_and_script_in_board :
    writeDocument .compact board =
      "<!DOCTYPE html>\n<div>a<HR id=\"r\" /><!-- b --><br></br><script src=\"a.js\"></script></div>" ∧
    (board.toNode.at? [0, 1] = some rule.toNode ∧ ∃ before known after,
      writeDocument .indented board = before ++ writeHead known rule.head ++ " />" ++ after) ∧
    board.toNode.at? [0, 4] = some script.toNode ∧ ∃ before known after,
      writeDocument .indented board = before ++ writeHead known script.head ++ "></script>" ++ after := by
  have hrule : board.toNode.at? [0, 1] = some rule.toNode := rfl
  have hscript : board.toNode.at? [0, 4] = some script.toNode := rfl
  obtain ⟨hplaces, -⟩ := only_void_elements_close_themselves .indented board
  refine ⟨by decide +kernel, ⟨hrule, ?_⟩, hscript, ?_⟩
  · obtain ⟨before, known, after, ⟨ending, hcloses, hwritten⟩, -⟩ := hplaces 0 [1] rule hrule
    have hitself : ending = " />" := hcloses.itself.mpr ⟨rfl, by decide⟩
    exact ⟨before, known, after, hitself ▸ hwritten⟩
  · obtain ⟨before, known, after, ⟨ending, hcloses, hwritten⟩, -⟩ := hplaces 0 [4] script hscript
    have hvoid : ¬(script.children = [] ∧ isVoid script.name = true) := by decide
    obtain ⟨content, hending, hempty⟩ := hcloses.byTag (mt hcloses.itself.mp hvoid)
    have hscriptEnd : ending = "></script>" := by
      rw [hending, hempty rfl]
      rfl
    exact ⟨before, known, after, hscriptEnd ▸ hwritten⟩

end Markup
end Letterpress
