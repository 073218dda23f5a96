import Letterpress.Text.Blank

/-! Lines of a Markdown text. Indentation is measured in columns, and a tab reaches to the next column that
    is a multiple of four; a part of a tab may be taken and the rest left. -/

namespace Letterpress
namespace Markdown

/-- A line of a text without its line break, and whether it has one. -/
structure SourceLine where
  chars : List Char
  ended : Bool
  deriving Repr

/-- The lines of the characters, after the characters `seen` of the first one, which come last first. -/
def linesFrom (seen : List Char) : List Char → List SourceLine
  | [] => if seen.isEmpty then [] else [⟨seen.reverse, false⟩]
  | '\r' :: '\n' :: cs => ⟨seen.reverse, true⟩ :: linesFrom [] cs
  | '\n' :: cs => ⟨seen.reverse, true⟩ :: linesFrom [] cs
  | '\r' :: cs => ⟨seen.reverse, true⟩ :: linesFrom [] cs
  | c :: cs => linesFrom (c :: seen) cs

/-- The lines of a text. -/
def linesOf (text : String) : List SourceLine :=
  linesFrom [] text.toList

/-! ### Common indentation -/

/-- The characters that begin both texts. -/
def commonStart : List Char → List Char → List Char
  | a :: as, b :: bs => if a = b then a :: commonStart as bs else []
  | _, _ => []

/-- The blanks that begin every line which is not blank. -/
def commonIndent (lines : List (List Char)) : List Char :=
  match lines.filter fun line => !line.all Text.isBlank with
  | [] => []
  | first :: others => others.foldl commonStart (first.takeWhile Text.isBlank)

/-- A line without the common indentation. A blank line becomes empty. -/
def dedentLine (indent line : List Char) : List Char :=
  if line.all Text.isBlank then [] else line.drop indent.length

/-- The lines of a text for the purpose of its common indentation, where a carriage return ends none. -/
def textLines (text : String) : List (List Char) :=
  let parts := Text.splitChars (· == '\n') text.toList
  let parts := if parts.getLast? = some [] then parts.dropLast else parts
  parts.mapIdx fun i line =>
    if line.getLast? = some '\r' && (i + 1 < parts.length || text.endsWith "\n") then line.dropLast else line

/-- The text without the indentation that its lines have in common. -/
def dedent (text : String) : String :=
  let lines := textLines text
  let indent := commonIndent lines
  let body := (lines.map (dedentLine indent)).intersperse ['\n']
  String.ofList (body.flatten ++ if text.endsWith "\n" then ['\n'] else [])

/-! ### Indentation of a line -/

/-- A place in a line: what follows it, its column, and how many columns of a tab before it are left. -/
structure Line where
  rest : List Char
  column : Nat := 0
  pending : Nat := 0
  deriving Repr

namespace Line

/-- The start of a line. -/
def ofChars (cs : List Char) : Line :=
  { rest := cs }

/-- Takes columns of space, at most so many. -/
def takeSpace : Nat → Line → Nat × Line
  | 0, l => (0, l)
  | most + 1, l =>
    if 0 < l.pending then
      let (n, l) := takeSpace most { l with pending := l.pending - 1 }
      (n + 1, l)
    else
      match l.rest with
      | ' ' :: rest =>
        let (n, l) := takeSpace most { rest, column := l.column + 1 }
        (n + 1, l)
      | '\t' :: rest =>
        let width := 4 - l.column % 4
        let (n, l) := takeSpace most { rest, column := l.column + width, pending := width - 1 }
        (n + 1, l)
      | _ => (0, l)

/-- Takes exactly so many columns of space, if there are that many. -/
def takeAll? (count : Nat) (l : Line) : Option Line :=
  let (n, l) := l.takeSpace count
  if n = count then some l else none

/-- The line behind a character. -/
def next (l : Line) : Line :=
  { l with rest := l.rest.tail, column := l.column + 1 }

/-- The line is over. -/
def isOver (l : Line) : Bool :=
  l.rest.isEmpty

/-- The space that separates words of a line. -/
def isSpace (c : Char) : Bool :=
  c == ' ' || c == '\t' || c == '\x0b' || c == '\x0c'

/-- Only space is left of the line. -/
def isBlank (l : Line) : Bool :=
  l.rest.all isSpace

/-- The line without the space at the place. -/
def trimStart (l : Line) : List Char :=
  l.rest.dropWhile fun c => c == ' ' || c == '\t'

/-- The text of the line, with the columns of a tab that are left as spaces. -/
def text (l : Line) : List Char :=
  List.replicate l.pending ' ' ++ l.rest

end Line
end Markdown
end Letterpress
