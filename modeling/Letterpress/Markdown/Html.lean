import Letterpress.Markdown.Block
import Letterpress.Markdown.Inline

/-! The HTML of a Markdown text. Most blocks begin on a line of their own; the content of a tight list is not
    set as paragraphs. -/

namespace Letterpress
namespace Markdown

/-- How a character is written in HTML. -/
def htmlChar : Char → List Char
  | '"' => "&quot;".toList
  | '&' => "&amp;".toList
  | '<' => "&lt;".toList
  | '>' => "&gt;".toList
  | c => [c]

/-- Text with its markup characters written as references. -/
def escapeHtml (s : String) : String :=
  String.ofList (s.toList.flatMap htmlChar)

/-- The byte stands for itself in an address. -/
def isAddressByte (b : UInt8) : Bool :=
  b < 0x80 &&
    let c := Char.ofNat b.toNat
    c.isAlphanum || "!#$%()*+,-./:;=?@_~".toList.contains c

/-- A hexadecimal digit. -/
def hexDigit (n : Nat) : Char :=
  if n < 10 then Char.ofNat ('0'.toNat + n) else Char.ofNat ('A'.toNat + (n - 10))

/-- How a byte is written in an address. -/
def addressByte (b : UInt8) : List Char :=
  if isAddressByte b then [Char.ofNat b.toNat]
  else if b == 0x26 then "&amp;".toList
  else if b == 0x27 then "&#x27;".toList
  else ['%', hexDigit (b.toNat / 16), hexDigit (b.toNat % 16)]

/-- An address as the value of an attribute. -/
def escapeAddress (s : String) : String :=
  String.ofList (s.toUTF8.toList.flatMap addressByte)

/-- The title of a link or an image, if it has one. -/
def titleAttribute (target : Target) : String :=
  if target.title = "" then "" else " title=\"" ++ escapeHtml target.title ++ "\""

/-- The name of the element that sets off emphasised content. -/
def Emphasis.element : Emphasis → String
  | emphasized => "em"
  | strong => "strong"
  | deleted => "del"

/-! ### Content -/

mutual

/-- Content as the text of an attribute. -/
def Inline.alt : Inline → String
  | .text content => escapeHtml content
  | .code content => escapeHtml content
  | .html markup => escapeHtml markup
  | .softBreak => " "
  | .hardBreak => " "
  | .emphasis _ content => altAll content
  | .link _ content => altAll content
  | .image _ content => altAll content

/-- Several parts of content as the text of an attribute. -/
def altAll : List Inline → String
  | [] => ""
  | i :: is => i.alt ++ altAll is

end

mutual

/-- Content as HTML. -/
def Inline.toHtml : Inline → String
  | .text content => escapeHtml content
  | .code content => "<code>" ++ escapeHtml content ++ "</code>"
  | .html markup => markup
  | .softBreak => "\n"
  | .hardBreak => "<br />\n"
  | .emphasis kind content =>
    "<" ++ kind.element ++ ">" ++ contentHtml content ++ "</" ++ kind.element ++ ">"
  | .link target content =>
    "<a href=\"" ++ escapeAddress target.address ++ "\"" ++ titleAttribute target ++ ">" ++ contentHtml content ++
      "</a>"
  | .image target content =>
    "<img src=\"" ++ escapeAddress target.address ++ "\" alt=\"" ++ altAll content ++ "\"" ++
      titleAttribute target ++ " />"

/-- Several parts of content as HTML. -/
def contentHtml : List Inline → String
  | [] => ""
  | i :: is => i.toHtml ++ contentHtml is

end

/-! ### Blocks -/

/-- The source of some content as HTML. -/
def sourceHtml (definitions : List Definition) (source : List Char) : String :=
  contentHtml (Inline.ofSource definitions source)

/-- A line break, unless a line begins here anyway. -/
def freshLine (fresh : Bool) : String :=
  if fresh then "" else "\n"

/-- The opening tag of a block of code. The first word behind a fence names a language. -/
def codeTag (info : Option String) : String :=
  match (info.map (Text.split (· == ' '))).bind List.head? with
  | none | some "" => "<pre><code>"
  | some language => "<pre><code class=\"language-" ++ escapeHtml language ++ "\">"

/-- The attribute that aligns a cell. -/
def Alignment.style : Alignment → String
  | none => ""
  | left => " style=\"text-align: left\""
  | center => " style=\"text-align: center\""
  | right => " style=\"text-align: right\""

/-- The source of a cell. An escaped bar in it is a bar, in code too. -/
def cellSource : List Char → List Char
  | '\\' :: '|' :: cs => '|' :: cellSource cs
  | c :: cs => c :: cellSource cs
  | [] => []

/-- The cells of a row. -/
def rowHtml (definitions : List Definition) (tag : String) : List Alignment → List (List Char) → String
  | column :: columns, cell :: cells =>
    "<" ++ tag ++ column.style ++ ">" ++ sourceHtml definitions (cellSource cell) ++ "</" ++ tag ++ ">" ++
      rowHtml definitions tag columns cells
  | _, _ => ""

/-- The opening tag of a list. -/
def listTag : Option Nat → String
  | none => "<ul>\n"
  | some 1 => "<ol>\n"
  | some number => "<ol start=\"" ++ toString number ++ "\">\n"

/-- The closing tag of a list. -/
def listEnd : Option Nat → String
  | none => "</ul>\n"
  | some _ => "</ol>\n"

/-- The text ends a line, or is empty where one begins. -/
def endsFresh (fresh : Bool) (s : String) : Bool :=
  match s.toList.getLast? with
  | none => fresh
  | some c => c == '\n'

mutual

/-- A block as HTML, behind a text that ends a line or not; in a tight list a paragraph is bare. -/
def Block.toHtml (definitions : List Definition) (tight fresh : Bool) : Block → String
  | .paragraph source =>
    if tight then sourceHtml definitions source
    else freshLine fresh ++ "<p>" ++ sourceHtml definitions source ++ "</p>\n"
  | .heading level source =>
    let tag := "h" ++ toString level
    freshLine fresh ++ "<" ++ tag ++ ">" ++ sourceHtml definitions source ++ "</" ++ tag ++ ">\n"
  | .code info lines =>
    freshLine fresh ++ codeTag info ++ escapeHtml (String.ofList lines) ++ "</code></pre>\n"
  | .html lines => String.ofList lines
  | .rule => freshLine fresh ++ "<hr />\n"
  | .table columns header rows =>
    "<table><thead><tr>" ++ rowHtml definitions "th" columns header ++ "</tr></thead><tbody>\n" ++
      String.join (rows.map fun row => "<tr>" ++ rowHtml definitions "td" columns row ++ "</tr>\n") ++
      "</tbody></table>\n"
  | .quote blocks =>
    freshLine fresh ++ "<blockquote>\n" ++ blocksHtml definitions false true blocks ++ "</blockquote>\n"
  | .list number tight items =>
    freshLine fresh ++ listTag number ++ itemsHtml definitions tight items ++ listEnd number

/-- Several blocks as HTML. -/
def blocksHtml (definitions : List Definition) (tight fresh : Bool) : List Block → String
  | [] => ""
  | block :: blocks =>
    let first := block.toHtml definitions tight fresh
    first ++ blocksHtml definitions tight (endsFresh fresh first) blocks

/-- The items of a list as HTML. -/
def itemsHtml (definitions : List Definition) (tight : Bool) : List (List Block) → String
  | [] => ""
  | blocks :: items =>
    "<li>" ++ blocksHtml definitions tight false blocks ++ "</li>\n" ++ itemsHtml definitions tight items

end

/-- A document as HTML. -/
def Document.toHtml (d : Document) : String :=
  blocksHtml d.definitions false true d.blocks

end Markdown
end Letterpress
