import Letterpress.Yaml.Cursor

/-! Scalars of a YAML text. A plain or quoted scalar may go on over several lines: a single line break is
    folded into a space, and of several the first is dropped. A block scalar keeps its lines, or folds
    them, below the line of its mark. -/

namespace Letterpress
namespace Yaml

/-- The blanks and line breaks between two words of a scalar. Spaces count up to the first break. -/
structure Gap where
  spaces : List Char := []
  breaks : Nat := 0

namespace Gap

/-- What a gap between two words says. -/
def fold (g : Gap) : List Char :=
  match g.breaks with
  | 0 => g.spaces
  | 1 => [' ']
  | more + 2 => List.replicate (more + 1) '\n'

/-- What a gap says behind an escaped line break. -/
def foldEscaped (g : Gap) : List Char :=
  List.replicate g.breaks '\n'

/-- The gap with one more blank. -/
def blank (g : Gap) (c : Char) : Gap :=
  if g.breaks = 0 then { g with spaces := g.spaces ++ [c] } else g

/-- The gap with one more line break. -/
def lineBreak (g : Gap) : Gap :=
  ⟨[], g.breaks + 1⟩

end Gap

/-! ### Plain scalars -/

/-- The character can belong to a plain scalar, given the one behind it. -/
def isPlain (inFlow : Bool) (c next : Char) : Bool :=
  !endsWord c && !(inFlow && isFlowMark c) && !(c == ':' && (endsWord next || inFlow && isFlowMark next))

/-- The characters of a plain word. -/
def plainWord (inFlow : Bool) : List Char → List Char
  | [] => []
  | c :: cs => if isPlain inFlow c (cs.headD '\x00') then c :: plainWord inFlow cs else []

/-- Passes the gap behind a plain word. A tab may not stand for indentation. -/
def plainGap (indent : Int) : Nat → Gap → Cursor → Option (Gap × Cursor)
  | 0, _, _ => none
  | fuel + 1, g, c =>
    if isBreak c.char then plainGap indent fuel g.lineBreak c.nextLine
    else if isGap c.char then
      if c.margin && c.char == '\t' && decide ((c.column : Int) < indent) then do
        let (c, _) ← c.skipGap? true
        if endsLine c.char then plainGap indent fuel g c else none
      else plainGap indent fuel (if c.margin then g else g.blank c.char) c.next
    else some (g, c)

/-- Reads the words of a plain scalar behind a gap. -/
def plainWords (inFlow : Bool) (indent : Int) : Nat → List Char → Gap → Cursor → Option (List Char × Cursor)
  | 0, _, _, _ => none
  | fuel + 1, seen, g, c =>
    if c.isDocumentMark || c.char == '#' then some (seen, c)
    else if inFlow && c.char == '-' && isFlowMark (c.peek 1) then none
    else
      let word := plainWord inFlow c.rest
      let seen := if word.isEmpty then seen else seen ++ g.fold ++ word
      let c := c.skip word.length
      if isGap c.char || isBreak c.char then do
        let (g, c) ← plainGap indent (c.rest.length + 1) {} c
        if !inFlow && decide ((c.column : Int) < indent) then some (seen, c)
        else plainWords inFlow indent fuel seen g c
      else some (seen, c)

/-- Reads a plain scalar. Its later lines stand deeper than the collection around it. -/
def plainScalar (inFlow : Bool) (indent : Int) (c : Cursor) : Option (List Char × Cursor) :=
  if inFlow && decide ((c.column : Int) < indent + 1) then none
  else plainWords inFlow (indent + 1) (c.rest.length + 1) [] {} c

/-! ### Quoted scalars -/

/-- The value of a hexadecimal digit. -/
def hexDigit? (c : Char) : Option Nat :=
  if c.isDigit then some (c.toNat - '0'.toNat)
  else if 'a' ≤ c ∧ c ≤ 'f' then some (c.toNat - 'a'.toNat + 10)
  else if 'A' ≤ c ∧ c ≤ 'F' then some (c.toNat - 'A'.toNat + 10)
  else none

/-- The character whose number so many hexadecimal digits write. -/
def hexChar? (count : Nat) (cs : List Char) : Option Char := do
  let digits := cs.take count
  if digits.length = count then
    let n ← digits.foldlM (fun n c => (hexDigit? c).map (16 * n + ·)) 0
    if n.isValidChar then some (Char.ofNat n) else none
  else none

/-- The character that an escape stands for, and the number of characters behind the backslash. -/
def escape? : List Char → Option (Char × Nat)
  | '0' :: _ => some ('\x00', 1)
  | 'a' :: _ => some ('\x07', 1)
  | 'b' :: _ => some ('\x08', 1)
  | 't' :: _ => some ('\t', 1)
  | '\t' :: _ => some ('\t', 1)
  | 'n' :: _ => some ('\n', 1)
  | 'v' :: _ => some ('\x0b', 1)
  | 'f' :: _ => some ('\x0c', 1)
  | 'r' :: _ => some ('\r', 1)
  | 'e' :: _ => some ('\x1b', 1)
  | ' ' :: _ => some (' ', 1)
  | '"' :: _ => some ('"', 1)
  | '/' :: _ => some ('/', 1)
  | '\\' :: _ => some ('\\', 1)
  | 'N' :: _ => some ('\u0085', 1)
  | '_' :: _ => some ('\u00a0', 1)
  | 'L' :: _ => some ('\u2028', 1)
  | 'P' :: _ => some ('\u2029', 1)
  | 'x' :: cs => (hexChar? 2 cs).map (·, 3)
  | 'u' :: cs => (hexChar? 4 cs).map (·, 5)
  | 'U' :: cs => (hexChar? 8 cs).map (·, 9)
  | _ => none

/-- Reads the characters of a quoted word. The last answer says whether an escaped line break ended it. -/
def quotedWord (quote : Char) : Nat → List Char → Cursor → Option (List Char × Cursor × Bool)
  | 0, _, _ => none
  | fuel + 1, seen, c =>
    if endsWord c.char then some (seen, c, false)
    else if c.char == quote then
      if quote == '\'' && c.peek 1 == '\'' then quotedWord quote fuel (seen ++ ['\'']) (c.skip 2)
      else some (seen, c, false)
    else if c.char == '\\' && quote == '"' then
      if isBreak (c.peek 1) then some (seen, c.next.nextLine, true)
      else do
        let (d, count) ← escape? (c.rest.drop 1)
        quotedWord quote fuel (seen ++ [d]) (c.skip (count + 1))
    else quotedWord quote fuel (seen ++ [c.char]) c.next

/-- Passes the gap behind a quoted word. -/
def quotedGap (indent : Int) (escaped : Bool) : Nat → Gap → Cursor → Option (Gap × Cursor)
  | 0, _, _ => none
  | fuel + 1, g, c =>
    if isBreak c.char then quotedGap indent escaped fuel g.lineBreak c.nextLine
    else if isGap c.char then
      if escaped || 0 < g.breaks then
        if c.char == '\t' && decide ((c.column : Int) < indent) then none
        else quotedGap indent escaped fuel g c.next
      else quotedGap indent escaped fuel (g.blank c.char) c.next
    else some (g, c)

/-- Reads the words of a quoted scalar and its closing quote. -/
def quotedWords (quote : Char) (indent : Int) : Nat → List Char → Cursor → Option (List Char × Cursor)
  | 0, _, _ => none
  | fuel + 1, seen, c =>
    if c.isDocumentMark || isEnd c.char || decide ((c.column : Int) < indent) then none
    else do
      let (seen, c, escaped) ← quotedWord quote (c.rest.length + 1) seen c
      if c.char == quote then some (seen, c.next)
      else
        let (g, c) ← quotedGap indent escaped (c.rest.length + 1) {} c
        quotedWords quote indent fuel (seen ++ if escaped then g.foldEscaped else g.fold) c

/-- Reads a quoted scalar. What follows it on its line may only end it or make it a key. -/
def quotedScalar (inFlow : Bool) (indent : Int) (start : Cursor) : Option (List Char × Cursor) := do
  let (text, c) ← quotedWords start.char indent (start.rest.length + 1) [] start.next
  let (c, _) ← c.skipGap? true
  let ended :=
    endsLine c.char || inFlow && (c.char == ',' || c.char == '}' || c.char == ']' || c.char == ':') ||
      !inFlow && c.char == ':' && start.line == c.line
  if ended then some (text, c) else none

/-! ### Block scalars -/

/-- What becomes of the line breaks at the end of a block scalar. -/
inductive Chomping where
  | strip
  | clip
  | keep
  deriving DecidableEq

/-- The chomping that a mark asks for. -/
def Chomping.ofMark? (c : Char) : Option Chomping :=
  if c = '+' then some .keep else if c = '-' then some .strip else none

/-- Reads an indentation indicator, a digit other than zero. -/
def indicator? (c : Cursor) : Option (Nat × Cursor) :=
  if c.char.isDigit then
    if c.char = '0' then none else some (c.char.toNat - '0'.toNat, c.next)
  else some (0, c)

/-- Reads the marks behind the one that begins a block scalar: chomping and indentation, in any order. -/
def blockMarks? (c : Cursor) : Option (Chomping × Nat × Cursor) :=
  match Chomping.ofMark? c.char with
  | some chomping => (indicator? c.next).map fun (n, c) => (chomping, n, c)
  | none => do
    let (n, c) ← indicator? c
    match if n = 0 then none else Chomping.ofMark? c.char with
    | some chomping => some (chomping, n, c.next)
    | none => some (.clip, n, c)

/-- Passes the spaces of an indentation, at most up to the limit if there is one. -/
def skipIndent (limit : Option Nat) (c : Cursor) : Cursor :=
  let spaces := c.count (· == ' ')
  c.skip (match limit with
    | some limit => min spaces (limit - c.column)
    | none => spaces)

/-- Passes empty lines and the indentation of the line behind them. The answers are the number of line
    breaks and the widest indentation met. -/
def blockBreaks (limit : Option Nat) : Nat → Nat → Nat → Cursor → Nat × Nat × Cursor
  | 0, breaks, widest, c => (breaks, widest, c)
  | fuel + 1, breaks, widest, c =>
    let c := skipIndent limit c
    let widest := max widest c.column
    if isBreak c.char then blockBreaks limit fuel (breaks + 1) widest c.nextLine
    else (breaks, widest, c)

/-- The text of a block scalar on its way: what has been read, the line break that ended the last line,
    the empty lines behind it, and whether the last line began with a blank. -/
structure BlockText where
  seen : List Char := []
  ended : Bool := false
  breaks : Nat := 0
  blank : Bool := false

/-- The text with one more line. Two lines of a folded scalar are joined if neither begins with a blank. -/
def BlockText.line (b : BlockText) (folded : Bool) (line : List Char) : BlockText :=
  let blank := isGap (line.headD '\x00')
  let between :=
    if folded && b.ended && !b.blank && !blank then
      if b.breaks = 0 then [' '] else List.replicate b.breaks '\n'
    else List.replicate ((if b.ended then 1 else 0) + b.breaks) '\n'
  { seen := b.seen ++ between ++ line, blank }

/-- Reads the lines of a block scalar that have its indentation. -/
def blockLines (folded : Bool) (indent : Nat) : Nat → BlockText → Cursor → BlockText × Cursor
  | 0, b, c => (b, c)
  | fuel + 1, b, c =>
    if c.column = indent && !isEnd c.char && !(indent == 0 && c.isIndicator '.') then
      let (line, c) := c.takeWhile (!endsLine ·)
      let b := b.line folded line
      if isEnd c.char then (b, c)
      else
        let (breaks, _, c) := blockBreaks (some indent) (c.rest.length + 1) 0 0 c.nextLine
        blockLines folded indent fuel { b with ended := true, breaks } c
    else (b, c)

/-- The text with its last line breaks chomped, in front of the cursor that ended it. -/
def BlockText.chomp (b : BlockText) (chomping : Chomping) (indent : Nat) (c : Cursor) : List Char :=
  -- The end of the text ends the last line like a line break.
  let unended := isEnd c.char && decide (max indent 1 ≤ c.column)
  b.seen ++
    (if chomping = .strip then []
      else List.replicate ((if b.ended then 1 else 0) + if unended then 1 else 0) '\n') ++
    if chomping = .keep then List.replicate b.breaks '\n' else []

/-- What a block scalar without any line says. -/
def emptyBlock (chomping : Chomping) (lineEnded : Bool) (breaks : Nat) : List Char :=
  if chomping = .strip || !lineEnded then []
  else if chomping = .keep && breaks ≠ 0 then List.replicate breaks '\n'
  else ['\n']

/-- Reads a block scalar, inside a collection with this indentation. -/
def blockScalar (outer : Int) (start : Cursor) : Option (List Char × Cursor) := do
  let (chomping, increment, c) ← blockMarks? start.next
  let (c, _) ← c.skipGap? true
  if !endsLine c.char then none
  else
    let c := c.nextLine
    if c.char == '\t' then none
    else
      let limit := if increment = 0 then none else some ((max outer 0).toNat + increment)
      let (breaks, widest, c) := blockBreaks limit (c.rest.length + 1) 0 0 c
      -- Without an indicator the widest line so far decides, even if it is an empty one.
      let indent := limit.getD (max widest (max (outer + 1) (if 0 < outer then 1 else 0)).toNat)
      if isEnd c.char then some (emptyBlock chomping (start.line < c.line) breaks, c)
      else if c.column < indent && decide (outer < (c.column : Int)) then none
      else
        let (b, c) := blockLines (start.char == '>') indent (c.rest.length + 1) { breaks } c
        some (b.chomp chomping indent c, c)

end Yaml
end Letterpress
