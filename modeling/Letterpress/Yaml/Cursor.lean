/-! Positions in a YAML text. A cursor knows the line and the column it stands in, and whether only blanks
    precede it there. The end of the text shows as a null character. -/

namespace Letterpress
namespace Yaml

/-- A place in a text, with what follows it. -/
structure Cursor where
  rest : List Char
  index : Nat := 0
  line : Nat := 0
  column : Nat := 0
  margin : Bool := true

/-- The character ends the text. -/
def isEnd (c : Char) : Bool :=
  c == '\x00'

/-- The character ends a line. -/
def isBreak (c : Char) : Bool :=
  c == '\n' || c == '\r'

/-- The character is a space or a tab. -/
def isGap (c : Char) : Bool :=
  c == ' ' || c == '\t'

/-- The character ends a line or the text. -/
def endsLine (c : Char) : Bool :=
  isBreak c || isEnd c

/-- The character ends a word. -/
def endsWord (c : Char) : Bool :=
  isGap c || endsLine c

/-- The character belongs to the brackets and commas of a flow collection. -/
def isFlowMark (c : Char) : Bool :=
  c == ',' || c == '[' || c == ']' || c == '{' || c == '}'

namespace Cursor

/-- The character so many places ahead. -/
def peek (c : Cursor) (ahead : Nat) : Char :=
  (c.rest.drop ahead).headD '\x00'

/-- The character at the cursor. -/
def char (c : Cursor) : Char :=
  c.peek 0

/-- The cursor behind the next character, which ends no line. -/
def next (c : Cursor) : Cursor :=
  match c.rest with
  | [] => c
  | d :: rest =>
    { c with rest, index := c.index + 1, column := c.column + 1, margin := c.margin && isGap d }

/-- The cursor behind so many characters, none of which ends a line. -/
def skip : Nat → Cursor → Cursor
  | 0, c => c
  | count + 1, c => skip count c.next

/-- The cursor at the start of the next line, if it stands at the end of a line. -/
def nextLine (c : Cursor) : Cursor :=
  match c.rest with
  | '\r' :: '\n' :: rest => ⟨rest, c.index + 2, c.line + 1, 0, true⟩
  | '\n' :: rest => ⟨rest, c.index + 1, c.line + 1, 0, true⟩
  | '\r' :: rest => ⟨rest, c.index + 1, c.line + 1, 0, true⟩
  | _ => c

/-- How many characters at the cursor have the property. -/
def count (c : Cursor) (p : Char → Bool) : Nat :=
  (c.rest.takeWhile p).length

/-- The cursor behind the characters that have the property, none of which ends a line. -/
def skipWhile (c : Cursor) (p : Char → Bool) : Cursor :=
  c.skip (c.count p)

/-- The characters that have the property, and the cursor behind them. -/
def takeWhile (c : Cursor) (p : Char → Bool) : List Char × Cursor :=
  (c.rest.takeWhile p, c.skipWhile p)

/-- The cursor at the end of its line. -/
def skipLine (c : Cursor) : Cursor :=
  c.skipWhile (!endsLine ·)

/-- The cursor stands before three times the character and the end of a word, at the start of a line. -/
def isIndicator (c : Cursor) (mark : Char) : Bool :=
  c.column == 0 && c.char == mark && c.peek 1 == mark && c.peek 2 == mark && endsWord (c.peek 3)

/-- The cursor stands before a line that starts or ends a document. -/
def isDocumentMark (c : Cursor) : Bool :=
  c.isIndicator '-' || c.isIndicator '.'

/-- Passes spaces, tabs if they may stand here, and a comment behind them. The answers say whether there
    was a space and a tab; a comment without either is refused. -/
def skipGap? (c : Cursor) (tabs : Bool) : Option (Cursor × Bool × Bool) :=
  let (gap, c) := c.takeWhile fun d => d == ' ' || tabs && d == '\t'
  if c.char == '#' then
    if gap.isEmpty then none else some (c.skipLine, gap.contains ' ', gap.contains '\t')
  else some (c, gap.contains ' ', gap.contains '\t')

end Cursor
end Yaml
end Letterpress
