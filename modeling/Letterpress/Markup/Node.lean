import Letterpress.Text.Blank

/-! Markup trees. An element has a head (name, namespace bindings, attributes) and children; the other
    nodes hold text only. Comments and blank text are insignificant: layout, not content. -/

namespace Letterpress
namespace Markup

/-- What the opening tag of an element says. The scope lists the namespace bindings in force, as pairs
    of prefix and name in ascending order of the prefix; the default namespace has the empty prefix. -/
structure Head where
  name : String
  qualifier : Option String := none
  scope : List (String × String) := []
  attributes : List (String × String) := []
  deriving Repr, DecidableEq

/-- A node of a markup tree. -/
inductive Node where
  | element (head : Head) (children : List Node)
  | text (content : String)
  | cdata (content : String)
  | comment (content : String)
  | instruction (target : String) (data : Option String)
  deriving Repr

mutual

/-- Decides whether two nodes are the same. -/
def Node.decEq : (a b : Node) → Decidable (a = b)
  | .element head children, .element head' children' =>
    have := Node.decEqList children children'
    decidable_of_iff (head = head' ∧ children = children') (by simp)
  | .text content, .text content' => decidable_of_iff (content = content') (by simp)
  | .cdata content, .cdata content' => decidable_of_iff (content = content') (by simp)
  | .comment content, .comment content' => decidable_of_iff (content = content') (by simp)
  | .instruction target data, .instruction target' data' =>
    decidable_of_iff (target = target' ∧ data = data') (by simp)
  | .element .., .text _ | .element .., .cdata _ | .element .., .comment _ | .element .., .instruction .. => isFalse nofun
  | .text _, .element .. | .text _, .cdata _ | .text _, .comment _ | .text _, .instruction .. => isFalse nofun
  | .cdata _, .element .. | .cdata _, .text _ | .cdata _, .comment _ | .cdata _, .instruction .. => isFalse nofun
  | .comment _, .element .. | .comment _, .text _ | .comment _, .cdata _ | .comment _, .instruction .. => isFalse nofun
  | .instruction .., .element .. | .instruction .., .text _ | .instruction .., .cdata _
  | .instruction .., .comment _ => isFalse nofun

/-- Decides whether two lists of nodes are the same. -/
def Node.decEqList : (a b : List Node) → Decidable (a = b)
  | [], [] => isTrue rfl
  | node :: nodes, node' :: nodes' =>
    have := Node.decEq node node'
    have := Node.decEqList nodes nodes'
    decidable_of_iff (node = node' ∧ nodes = nodes') (by simp)
  | [], _ :: _ | _ :: _, [] => isFalse nofun

end

instance : DecidableEq Node :=
  Node.decEq

/-- An element on its own, as opposed to any node. -/
structure Element where
  head : Head
  children : List Node
  deriving Repr, DecidableEq

namespace Element

/-- The local name of the element. -/
def name (e : Element) : String :=
  e.head.name

/-- The value of the attribute of this name. -/
def attribute? (e : Element) (name : String) : Option String :=
  e.head.attributes.lookup name

/-- The element as a node. -/
def toNode (e : Element) : Node :=
  .element e.head e.children

/-- An element of this name with neither attributes nor children. -/
def empty (name : String) : Element :=
  ⟨{ name }, []⟩

end Element

namespace Node

/-- The node carries no content: it is a comment, or blank text. -/
def isInsignificant : Node → Bool
  | comment _ => true
  | text content => Text.allBlank content
  | _ => false

/-- The node is a comment. -/
def isComment : Node → Bool
  | comment _ => true
  | _ => false

/-- The node as an element, if it is one. -/
def element? : Node → Option Element
  | element head children => some ⟨head, children⟩
  | _ => none

end Node

namespace Element

/-- The children that carry content. -/
def significant (e : Element) : List Node :=
  e.children.filter (!·.isInsignificant)

end Element
end Markup
end Letterpress
