import Letterpress.Markup.Node

/-! Writing markup. An element without children closes itself; a namespace binding is written on the
    outermost element that needs it. With indentation every tag, comment and instruction starts a line
    of its own unless text stands right before it, and a closing tag stays behind text. -/

namespace Letterpress
namespace Markup

/-- How a character is written in text. -/
def textChar : Char → List Char
  | '&' => "&amp;".toList
  | '<' => "&lt;".toList
  | '>' => "&gt;".toList
  | c => [c]

/-- How a character is written in an attribute value. -/
def attributeChar : Char → List Char
  | '&' => "&amp;".toList
  | '<' => "&lt;".toList
  | '>' => "&gt;".toList
  | '"' => "&quot;".toList
  | '\'' => "&apos;".toList
  | '\n' => "&#xA;".toList
  | '\r' => "&#xD;".toList
  | c => [c]

/-- Text with its markup characters written as references. -/
def escapeText (s : String) : String :=
  String.ofList (s.toList.flatMap textChar)

/-- An attribute value with its markup characters and line ends written as references. -/
def escapeAttribute (s : String) : String :=
  String.ofList (s.toList.flatMap attributeChar)

namespace Head

/-- The name of the element as its tags have it. -/
def tag (head : Head) : String :=
  match head.qualifier with
  | some q => q ++ ":" ++ head.name
  | none => head.name

end Head

/-- The declaration of a namespace binding. -/
def writeBinding : String × String → String
  | ("", uri) => " xmlns=\"" ++ uri ++ "\""
  | (pre, uri) => " xmlns:" ++ pre ++ "=\"" ++ uri ++ "\""

/-- An attribute behind the name of its element. -/
def writeAttribute : String × String → String
  | (name, value) => " " ++ name ++ "=\"" ++ escapeAttribute value ++ "\""

/-- The opening tag of an element up to its closing bracket, inside elements that have declared the
    known bindings. -/
def writeHead (known : List (String × String)) (head : Head) : String :=
  "<" ++ head.tag ++ String.join ((head.scope.filter (!known.contains ·)).map writeBinding) ++
    String.join (head.attributes.map writeAttribute)

/-- A comment inside an element; a blank keeps its text off the delimiters. -/
def writeComment (content : String) : String :=
  let cs := content.toList
  let before := if (cs.head?.map Text.isBlank).getD false then "" else " "
  let after := if (cs.getLast?.map Text.isBlank).getD false then "" else " "
  "<!--" ++ before ++ content ++ after ++ "-->"

/-- A processing instruction. -/
def writeInstruction (target : String) : Option String → String
  | some data => "<?" ++ target ++ " " ++ data ++ "?>"
  | none => "<?" ++ target ++ "?>"

/-- Whether the tree is laid out over lines, two blanks for each level. -/
inductive Layout where
  | compact
  | indented
  deriving Repr, DecidableEq

/-- What separates a tag from what stands before it. -/
def Layout.lineBreak : Layout → Nat → String
  | compact, _ => ""
  | indented, level => "\n" ++ String.ofList (List.replicate (2 * level) ' ')

/-- The node is written as text. -/
def Node.isText : Node → Bool
  | .text _ | .cdata _ => true
  | _ => false

/-- Text ends the nodes. -/
def endsInText (nodes : List Node) : Bool :=
  (nodes.getLast?.map Node.isText).getD false

mutual

/-- Writes a node that stands at a level inside elements that have declared the known bindings. -/
def Node.write (layout : Layout) (level : Nat) (known : List (String × String)) : Node → String
  | .element head children =>
    if children.isEmpty then writeHead known head ++ " />"
    else
      writeHead known head ++ ">" ++
        writeNodes layout (level + 1) (known ++ head.scope) false children ++
        (if endsInText children then "" else layout.lineBreak level) ++ "</" ++ head.tag ++ ">"
  | .text content => escapeText content
  | .cdata content => "<![CDATA[" ++ content ++ "]]>"
  | .comment content => writeComment content
  | .instruction target data => writeInstruction target data

/-- Writes the children of an element; `afterText` says whether text has just been written. -/
def writeNodes (layout : Layout) (level : Nat) (known : List (String × String)) (afterText : Bool) :
    List Node → String
  | [] => ""
  | node :: nodes =>
    (if afterText || node.isText then "" else layout.lineBreak level) ++
      node.write layout level known ++ writeNodes layout level known node.isText nodes

end

/-- Writes a node that stands at the top, under no element. A comment is kept as it is there, and an
    instruction is left out. -/
def Node.writeTop (layout : Layout) : Node → String
  | .comment content => "<!--" ++ content ++ "-->"
  | .instruction _ _ => ""
  | node => node.write layout 0 [("", "")]

namespace Element

/-- The element as markup. -/
def outer (e : Element) : String :=
  e.toNode.writeTop .compact

/-- What the element holds as markup. -/
def inner (e : Element) : String :=
  String.join (e.children.map (·.writeTop .compact))

end Element
end Markup
end Letterpress
