import Letterpress.Markdown.Line

/-! HTML in a Markdown text: tags, comments and other markup between words, and the lines that begin a block
    of HTML. Every reader gets the characters behind an opening bracket and gives those behind what it
    read. -/

namespace Letterpress
namespace Markdown
namespace Tag

/-- The character can stand in the name of a tag. -/
def isNameChar (c : Char) : Bool :=
  c.isAlphanum || c == '-'

/-- Passes space, and line breaks if they may stand here. -/
def skipGap (breaks : Bool) (cs : List Char) : List Char :=
  cs.dropWhile fun c => Line.isSpace c || breaks && c == '\n'

/-- Passes the name of an attribute. -/
def attributeName? : List Char → Option (List Char)
  | c :: cs =>
    if c.isAlpha || c == '_' || c == ':' then
      some (cs.dropWhile fun c => c.isAlphanum || c == '_' || c == '.' || c == ':' || c == '-')
    else none
  | [] => none

/-- Passes a quoted value up to its closing quote. -/
def quotedValue? (breaks : Bool) (quote : Char) (cs : List Char) : Option (List Char) :=
  match cs.dropWhile fun c => c != quote && (breaks || c != '\n') with
  | c :: rest => if c = quote then some rest else none
  | [] => none

/-- The character can stand in a value without quotes. -/
def isBareChar (c : Char) : Bool :=
  !(c == '\'' || c == '"' || c == ' ' || c == '=' || c == '>' || c == '<' || c == '\x60' || c == '\n')

/-- Passes the value of an attribute. -/
def attributeValue? (breaks : Bool) : List Char → Option (List Char)
  | '"' :: cs => quotedValue? breaks '"' cs
  | '\'' :: cs => quotedValue? breaks '\'' cs
  | c :: cs => if isBareChar c then some (cs.dropWhile isBareChar) else none
  | [] => none

/-- Passes an attribute. -/
def attribute? (breaks : Bool) (cs : List Char) : Option (List Char) := do
  let named ← attributeName? cs
  match skipGap breaks named with
  | '=' :: rest => attributeValue? breaks (skipGap breaks rest)
  | _ => some named

/-- Passes the attributes of a tag and its closing bracket. Each attribute stands behind a gap. -/
def attributes? (breaks : Bool) : Nat → List Char → Option (List Char)
  | 0, _ => none
  | fuel + 1, cs =>
    match skipGap breaks cs with
    | '>' :: rest => some rest
    | '/' :: '>' :: rest => some rest
    | '/' :: _ => none
    | rest => if rest.length = cs.length then none else (attribute? breaks rest).bind (attributes? breaks fuel)

/-- Passes a closing tag behind its slash. -/
def closing? (cs : List Char) : Option (List Char) :=
  match cs with
  | c :: rest =>
    if c.isAlpha then
      match (rest.dropWhile isNameChar).dropWhile Line.isSpace with
      | '>' :: rest => some rest
      | _ => none
    else none
  | [] => none

/-- Passes a tag. -/
def tag? (breaks : Bool) : List Char → Option (List Char)
  | '/' :: cs => closing? cs
  | c :: cs =>
    if c.isAlpha then
      let rest := cs.dropWhile isNameChar
      attributes? breaks (rest.length + 1) rest
    else none
  | [] => none

/-- What follows the first place where the mark stands. -/
def behind? (mark : List Char) : List Char → Option (List Char)
  | [] => none
  | c :: cs => if mark.isPrefixOf (c :: cs) then some ((c :: cs).drop mark.length) else behind? mark cs

/-- Passes a comment behind its first dashes. It may not begin with a bracket, and two dashes end it. -/
def comment? (cs : List Char) : Option (List Char) :=
  match cs.dropWhile (· == '-') with
  | '>' :: _ => none
  | rest =>
    match behind? ['-', '-'] rest with
    | some ('>' :: rest) => some rest
    | _ => none

/-- Passes markup between words: a tag, a comment, an instruction, a declaration or character data. -/
def inline? : List Char → Option (List Char)
  | '!' :: '-' :: '-' :: cs => comment? cs
  | '!' :: cs =>
    if "[CDATA[".toList.isPrefixOf cs then behind? "]]>".toList (cs.drop 7)
    else
      let name := cs.takeWhile Char.isUpper
      let rest := cs.drop name.length
      if name.isEmpty || (rest.head?.map Text.isBlank) != some true then none else behind? ['>'] rest
  | '?' :: cs => behind? "?>".toList cs
  | cs => tag? true cs

/-! ### Blocks -/

/-- The elements whose content is not Markdown up to their closing tag. -/
def verbatimElements : List String :=
  ["pre", "style", "script", "textarea"]

/-- The elements that begin a block wherever they stand at the start of a line. -/
def blockElements : List String :=
  ["address", "article", "aside", "base", "basefont", "blockquote", "body", "caption", "center", "col",
    "colgroup", "dd", "details", "dialog", "dir", "div", "dl", "dt", "fieldset", "figcaption", "figure",
    "footer", "form", "frame", "frameset", "h1", "h2", "h3", "h4", "h5", "h6", "head", "header", "hr", "html",
    "iframe", "legend", "li", "link", "main", "menu", "menuitem", "nav", "noframes", "ol", "optgroup",
    "option", "p", "param", "section", "source", "summary", "table", "tbody", "td", "tfoot", "th", "thead",
    "title", "tr", "track", "ul"]

/-- What follows the name of a verbatim element on its line: nothing, space or a bracket. -/
def endsVerbatimName : List Char → Bool
  | [] => true
  | c :: _ => Line.isSpace c || c == '>'

/-- The text whose line ends a block, for a block that begins with these characters. -/
def blockEnd? (cs : List Char) : Option String :=
  match verbatimElements.find? fun name =>
      (cs.take name.length).map Char.toLower == name.toList && endsVerbatimName (cs.drop name.length) with
  | some name => some ("</" ++ name ++ ">")
  | none =>
    if "!--".toList.isPrefixOf cs then some "-->"
    else if "?".toList.isPrefixOf cs then some "?>"
    else if "![CDATA[".toList.isPrefixOf cs then some "]]>"
    else
      match cs with
      | '!' :: c :: _ => if c.isUpper then some ">" else none
      | _ => none

/-- The name of a tag ends before these characters. -/
def endsName : List Char → Bool
  | [] => true
  | '/' :: '>' :: _ => true
  | c :: _ => c == ' ' || c == '\t' || c == '>'

/-- A tag of a block element stands at the start of the characters. -/
def beginsBlock (cs : List Char) : Bool :=
  let cs := if cs.head? = some '/' then cs.drop 1 else cs
  let name := cs.takeWhile Char.isAlphanum
  blockElements.contains (String.ofList (name.map Char.toLower)) && endsName (cs.drop name.length)

/-- The characters are a tag and nothing else. -/
def isAlone (cs : List Char) : Bool :=
  match tag? false cs with
  | some rest => rest.all Line.isSpace
  | none => false

end Tag
end Markdown
end Letterpress
