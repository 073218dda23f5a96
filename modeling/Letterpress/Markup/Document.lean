import Letterpress.Markup.Writer

/-! HTML documents. Only the void elements of HTML may close themselves, so every other element without
    children is given an empty text, which keeps its closing tag and prints nothing. -/

namespace Letterpress
namespace Markup

/-- The elements of HTML that never have content. -/
def voidElements : List String :=
  ["area", "base", "br", "col", "embed", "hr", "img", "input", "link", "meta", "param", "source",
    "track", "wbr"]

/-- The name is that of a void element, in any case of its letters. -/
def isVoid (name : String) : Bool :=
  voidElements.contains (Text.asciiLower name)

mutual

/-- Gives every element without children that is not void an empty text. -/
def Node.keepClosingTags : Node → Node
  | .element head [] => .element head (if isVoid head.name then [] else [.text ""])
  | .element head (child :: children) =>
    .element head (child.keepClosingTags :: keepAllClosingTags children)
  | node => node

/-- Gives every element among the nodes that has no children and is not void an empty text. -/
def keepAllClosingTags : List Node → List Node
  | [] => []
  | node :: nodes => node.keepClosingTags :: keepAllClosingTags nodes

end

/-- The first line of every document. -/
def doctype : String :=
  "<!DOCTYPE html>\n"

/-- A node of the document at its top level; with indentation it ends its line. -/
def writeTopNode (layout : Layout) (node : Node) : String :=
  node.keepClosingTags.writeTop layout ++
    match layout with
    | .compact => ""
    | .indented => "\n"

/-- Writes the children of a page as an HTML document. -/
def writeDocument (layout : Layout) (page : Element) : String :=
  doctype ++ String.join (page.children.map (writeTopNode layout))

end Markup
end Letterpress
