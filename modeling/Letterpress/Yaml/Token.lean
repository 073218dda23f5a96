import Letterpress.Yaml.Scalar

/-! Tokens of a YAML text. Indentation becomes tokens that start and end block collections. What may turn
    out to be a key is remembered, and a key token is put before it once its colon is met; outside flow
    collections that has to be on the same line. -/

namespace Letterpress
namespace Yaml

/-- A token. Anchors and tags know whether they stand in the first column. -/
inductive Token where
  | documentStart
  | documentEnd
  | version
  | tagDirective (handle name : String)
  | blockSequence
  | blockMapping
  | blockEnd
  | flowSequence
  | flowSequenceEnd
  | flowMapping
  | flowMappingEnd
  | item
  | comma
  | key
  | value
  | alias (name : String)
  | anchor (name : String) (first : Bool)
  | tag (handle suffix : String) (first : Bool)
  | scalar (plain : Bool) (text : String)
  deriving Repr, DecidableEq

/-- A token that may turn out to be a key: its number, its place, and whether it has to be one. -/
structure Candidate where
  number : Nat
  index : Nat
  line : Nat
  column : Nat
  required : Bool

/-- The indentation around a level of indentation. A level that is no block only asks for deeper lines. -/
structure Level where
  outer : Int
  isBlock : Bool

/-- The tokens so far, and what decides about the next one. The innermost level and flow collection come
    first; there is one candidate place for each flow collection and one for what is around them. -/
structure Scanner where
  cursor : Cursor
  tokens : Array Token := #[]
  indent : Int := -1
  levels : List Level := []
  candidate : Option Candidate := none
  outerCandidates : List (Option Candidate) := []
  keyAllowed : Bool := true
  pairs : List Bool := []
  inMapping : Bool := false
  adjacent : Nat := 0

namespace Scanner

/-- The scanner stands inside a flow collection. -/
def inFlow (s : Scanner) : Bool :=
  !s.outerCandidates.isEmpty

/-- The scanner with one more token. -/
def push (s : Scanner) (t : Token) : Scanner :=
  { s with tokens := s.tokens.push t }

/-- The scanner with a token put before the token of this number. -/
def insert (s : Scanner) (number : Nat) (t : Token) : Scanner :=
  { s with tokens := s.tokens.insertIdxIfInBounds number t }

/-- The scanner with the cursor behind so many more characters. -/
def skip (s : Scanner) (count : Nat) : Scanner :=
  { s with cursor := s.cursor.skip count }

/-- Passes spaces, tabs and a comment on the line of the cursor. -/
def skipGap? (s : Scanner) : Option Scanner :=
  (s.cursor.skipGap? true).map fun (cursor, _) => { s with cursor }

/-! ### Indentation -/

/-- Leaves the levels that are deeper than the column. -/
def leaveLevels (column : Int) : List Level → Scanner → Scanner
  | [], s => s
  | level :: levels, s =>
    if column < s.indent then
      let s := { s with indent := level.outer, levels }
      leaveLevels column levels (if level.isBlock then s.push .blockEnd else s)
    else s

/-- Ends the blocks that are deeper than the column. -/
def unroll (s : Scanner) (column : Int) : Scanner :=
  if s.inFlow then s else leaveLevels column s.levels s

/-- Leaves the innermost levels that are no blocks. -/
def leaveLoose : List Level → Scanner → Scanner
  | [], s => s
  | level :: levels, s =>
    if level.isBlock then s else leaveLoose levels { s with indent := level.outer, levels }

/-- The scanner without an innermost level that is no block, unless that is deeper than the column. -/
def dropLoose (s : Scanner) (column : Int) : Scanner :=
  match s.levels with
  | level :: levels =>
    if s.indent ≤ column && !level.isBlock then { s with indent := level.outer, levels } else s
  | [] => s

/-- Starts a block at the column, unless one is there, with a token before the one of this number. -/
def roll (s : Scanner) (column : Nat) (number : Option Nat) (t : Token) : Scanner :=
  if s.inFlow then s
  else
    let s := s.dropLoose column
    if s.indent < column then
      let s := { s with indent := column, levels := ⟨s.indent, true⟩ :: s.levels }
      -- A candidate that turns out to be a key began the block before its colon was met.
      match number with
      | some n => s.insert n t
      | none => s.push t
    else s

/-- Asks for lines one column deeper than the innermost block. -/
def rollLoose (s : Scanner) : Scanner :=
  match s.levels with
  | level :: _ =>
    if !s.inFlow && level.isBlock then
      { s with indent := s.indent + 1, levels := ⟨s.indent, false⟩ :: s.levels }
    else s
  | [] => s

/-! ### Candidates for keys -/

/-- Remembers that the next token may be a key. In the column of a block it has to be one. -/
def saveCandidate (s : Scanner) : Scanner :=
  if s.keyAllowed then
    let c := s.cursor
    let required := !s.inFlow && s.indent == (c.column : Int) && (s.levels.head?.map (·.isBlock)).getD false
    { s with candidate := some ⟨s.tokens.size, c.index, c.line, c.column, required⟩ }
  else s

/-- Forgets the candidate, which may not have to be a key. -/
def dropCandidate (s : Scanner) : Option Scanner :=
  if (s.candidate.map (·.required)).getD false then none else some { s with candidate := none }

/-- Forgets the candidate if its line is over or it is too long. -/
def dropStale (s : Scanner) : Option Scanner :=
  match s.candidate with
  | some k =>
    if !s.inFlow && (k.line < s.cursor.line || k.index + 1024 < s.cursor.index) then s.dropCandidate
    else some s
  | none => some s

/-! ### Between tokens -/

/-- Passes blanks, line breaks and comments up to the next token. -/
def skipToToken : Nat → Scanner → Option Scanner
  | 0, _ => none
  | fuel + 1, s =>
    let c := s.cursor
    -- Where indentation is due, a tab may only stand on a line without a token.
    if c.char == '\t' && !s.levels.isEmpty && c.margin && decide ((c.column : Int) < s.indent) then do
      let s ← s.skipGap?
      if endsLine s.cursor.char then skipToToken fuel s else none
    else if isGap c.char then skipToToken fuel (s.skip 1)
    else if isBreak c.char then
      skipToToken fuel { s with cursor := c.nextLine, keyAllowed := s.keyAllowed || !s.inFlow }
    else if c.char == '#' then skipToToken fuel { s with cursor := c.skipLine }
    else some s

/-- Passes spaces, line breaks and comments behind the mark of a key; there has to be one of the first
    two. -/
def skipBehindKey : Nat → Bool → Scanner → Option Scanner
  | 0, _, _ => none
  | fuel + 1, found, s =>
    let c := s.cursor
    if c.char == ' ' then skipBehindKey fuel true (s.skip 1)
    else if isBreak c.char then
      skipBehindKey fuel true { s with cursor := c.nextLine, keyAllowed := s.keyAllowed || !s.inFlow }
    else if c.char == '#' then skipBehindKey fuel found { s with cursor := c.skipLine }
    else if found then some s
    else none

/-- The fuel that is enough to pass every character left. -/
def fuel (s : Scanner) : Nat :=
  s.cursor.rest.length + 1

/-! ### Documents -/

/-- Ends all blocks and forgets the candidate. -/
def endBlocks (s : Scanner) : Option Scanner := do
  let s ← (s.unroll (-1)).dropCandidate
  some { s with keyAllowed := false }

/-- The character can stand in the name of a directive. -/
def isNameChar (c : Char) : Bool :=
  c.isAlphanum || c == '_' || c == '-'

/-- Reads digits, of which there are at most nine and at least one. -/
def versionNumber? (c : Cursor) : Option Cursor :=
  let n := c.count Char.isDigit
  if n = 0 ∨ 9 < n then none else some (c.skip n)

/-- Reads the two numbers of a version directive. -/
def version? (c : Cursor) : Option (Token × Cursor) := do
  let c ← versionNumber? (c.skipWhile isGap)
  if c.char = '.' then
    let c ← versionNumber? c.next
    some (.version, c)
  else none

/-- The character can stand in an address. -/
def isAddressChar (c : Char) : Bool :=
  isNameChar c || "#;/?:@&=+$,.!~*'()[]%".toList.contains c

/-- Reads characters of an address, of which bytes may be written with a percent sign. -/
def address (isChar : Char → Bool) : Nat → List Char → Cursor → Option (List Char × Cursor)
  | 0, _, _ => none
  | fuel + 1, seen, c =>
    if isChar c.char then
      if c.char == '%' then do
        let d ← hexChar? 2 (c.rest.drop 1)
        address isChar fuel (seen ++ [d]) (c.skip 3)
      else address isChar fuel (seen ++ [c.char]) c.next
    else some (seen, c)

/-- Reads the handle of a tag. In a directive it has to end with its mark. -/
def tagHandle? (directive : Bool) (c : Cursor) : Option (List Char × Cursor) :=
  if c.char = '!' then
    let (name, c) := c.next.takeWhile isNameChar
    if c.char = '!' then some ('!' :: name ++ ['!'], c.next)
    else if directive && !name.isEmpty then none
    else some ('!' :: name, c)
  else none

/-- Reads the handle and the address of a tag directive. -/
def tagDirective? (c : Cursor) : Option (Token × Cursor) := do
  let (handle, c) ← tagHandle? true (c.skipWhile isGap)
  let (name, c) ← address isAddressChar (c.rest.length + 1) [] (c.skipWhile isGap)
  if endsWord c.char then some (.tagDirective (String.ofList handle) (String.ofList name), c) else none

/-- Reads a directive. One of an unknown name says nothing. -/
def directive (s : Scanner) : Option Scanner := do
  let s ← s.endBlocks
  let (name, c) := s.cursor.next.takeWhile isNameChar
  if name.isEmpty || !endsWord c.char then none
  else
    let (t, c) ← match String.ofList name with
      | "YAML" => version? c
      | "TAG" => tagDirective? c
      | _ => some (.tagDirective "" "", c.skipLine)
    let (c, _) ← c.skipGap? true
    if endsLine c.char then some { s.push t with cursor := c.nextLine } else none

/-- Reads the line that starts a document. -/
def documentStart (s : Scanner) : Option Scanner := do
  let s ← s.endBlocks
  some ((s.skip 3).push .documentStart)

/-- Reads the line that ends a document. -/
def documentEnd (s : Scanner) : Option Scanner := do
  let s ← s.endBlocks
  let s ← ((s.skip 3).push .documentEnd).skipGap?
  if endsLine s.cursor.char then some s else none

/-! ### Flow collections -/

/-- Ends a mapping of one pair that stands in a flow sequence without brackets. -/
def endPair (s : Scanner) : Scanner :=
  match s.pairs with
  | true :: pairs => { s.push .flowMappingEnd with pairs := false :: pairs, inMapping := false }
  | _ => s

/-- Reads the mark that starts a flow collection. They nest at most 255 deep. -/
def flowStart (s : Scanner) (t : Token) : Option Scanner := do
  let s := s.saveCandidate.rollLoose
  if s.outerCandidates.length = 255 then none
  else
    -- The collection may be a key itself: its candidate waits for the end of it.
    let s := { s with outerCandidates := s.candidate :: s.outerCandidates, candidate := none, keyAllowed := true }
    let s :=
      if t = .flowMapping then { s with inMapping := true } else { s with pairs := false :: s.pairs }
    let s ← (s.skip 1).skipGap?
    some (s.push t)

/-- Reads the mark that ends a flow collection. -/
def flowEnd (s : Scanner) (t : Token) : Option Scanner := do
  let s ← s.dropCandidate
  let s := match s.outerCandidates with
    | candidate :: outerCandidates => { s with candidate, outerCandidates }
    | [] => s
  let s := { s with keyAllowed := false }
  let s := if t = .flowSequenceEnd then { s.endPair with pairs := s.pairs.tail } else s
  let s ← (s.skip 1).skipGap?
  -- A colon right behind it makes the collection a key.
  let s := if s.inFlow then { s with adjacent := s.cursor.index } else s
  some (s.push t)

/-- Reads the comma between two items of a flow collection. -/
def comma (s : Scanner) : Option Scanner := do
  let s ← s.dropCandidate
  let s ← ({ s with keyAllowed := true }.endPair.skip 1).skipGap?
  some (s.push .comma)

/-! ### Block collections -/

/-- An anchor or a tag in the first column is the last token. -/
def endsInProperty (s : Scanner) : Bool :=
  match s.tokens.back? with
  | some (.anchor _ first) => first
  | some (.tag _ _ first) => first
  | _ => false

/-- Reads the mark of an item of a block sequence. -/
def item (s : Scanner) : Option Scanner := do
  if s.inFlow || !s.keyAllowed then none
  else if s.cursor.column = 0 && s.endsInProperty && decide (-1 < s.indent) then none
  else
    let column := s.cursor.column
    let s := (s.skip 1).roll column none .blockSequence
    let (c, _, tab) ← s.cursor.skipGap? true
    if tab && c.char == '-' && endsWord (c.peek 1) then none
    else
      let s := { s with cursor := c }
      let s := if isBreak c.char || isFlowMark c.char then s.rollLoose else s
      let s ← s.dropCandidate
      some ({ s with keyAllowed := true }.push .item)

/-- Reads the mark of a key that need not be simple. -/
def key (s : Scanner) : Option Scanner := do
  if !s.inFlow && !s.keyAllowed then none
  else
    let s := if s.inFlow then { s with inMapping := true } else s.roll s.cursor.column none .blockMapping
    let s ← s.dropCandidate
    let s := { s.skip 1 with keyAllowed := !s.inFlow }
    let s ← skipBehindKey s.fuel false s
    if s.cursor.char == '\t' then none else some (s.push .key)

/-- Passes a tab behind the colon of a value, which may not stand before a word or an item. -/
def skipValueTab (s : Scanner) : Option Scanner :=
  if s.cursor.char == '\t' then do
    let (cursor, space, _) ← s.cursor.skipGap? true
    if !space && (cursor.char == '-' || isNameChar cursor.char) then none else some { s with cursor }
  else some s

/-- Reads the colon of a value, before which the candidate is the key. -/
def value (s : Scanner) : Option Scanner := do
  let colon := s.cursor
  let isPair := !s.pairs.isEmpty && !s.inMapping
  let s := if isPair then { s with pairs := true :: s.pairs.tail } else s
  let s ← (s.skip 1).skipValueTab
  match s.candidate with
  | some k =>
    if isPair && k.line < colon.line then none
    else
      -- The mapping takes the place of the key, which moves behind it.
      let s := s.insert k.number .key
      let s := if isPair then s.insert k.number .flowMapping else s
      let s := (s.roll k.column (some k.number) .blockMapping).rollLoose
      some ({ s with candidate := none, keyAllowed := false }.push .value)
  | none =>
    let s := if isPair then s.push .flowMapping else s
    if !s.inFlow && !s.keyAllowed then none
    else
      let s := (s.roll colon.column none .blockMapping).rollLoose
      some ({ s with keyAllowed := !s.inFlow }.push .value)

/-! ### Nodes -/

/-- The character can stand in the name of an anchor. -/
def isAnchorChar (c : Char) : Bool :=
  !endsWord c && !isFlowMark c && c ≠ '\ufeff'

/-- Reads an anchor or an alias. -/
def anchor (s : Scanner) (isAlias : Bool) : Option Scanner :=
  let s := { s.saveCandidate with keyAllowed := false }
  let (name, c) := s.cursor.next.takeWhile isAnchorChar
  if name.isEmpty then none
  else
    let name := String.ofList name
    let first := s.cursor.column == 0
    some ({ s with cursor := c }.push (if isAlias then .alias name else .anchor name first))

/-- The character can stand in the suffix of a tag. -/
def isTagChar (c : Char) : Bool :=
  isAddressChar c && !isFlowMark c && c != '!'

/-- The handle and the suffix of a tag, and the cursor behind it. -/
def tagParts? (c : Cursor) : Option (List Char × List Char × Cursor) := do
  if c.peek 1 = '<' then
    let (suffix, c) ← address isAddressChar (c.rest.length + 1) [] (c.skip 2)
    if c.char = '>' then some ([], suffix, c.next) else none
  else
    let (handle, c) ← tagHandle? false c
    let (suffix, c) ← address isTagChar (c.rest.length + 1) [] c
    if 2 ≤ handle.length && handle.getLast? == some '!' then
      if suffix.isEmpty then none else some (handle, suffix, c)
    else
      -- A mark alone is a tag.
      match handle.drop 1 ++ suffix with
      | [] => some ([], ['!'], c)
      | suffix => some (['!'], suffix, c)

/-- Reads a tag. -/
def tag (s : Scanner) : Option Scanner := do
  let s := { s.saveCandidate with keyAllowed := false }
  let (handle, suffix, c) ← tagParts? s.cursor
  if endsWord c.char || s.inFlow && isFlowMark c.char then
    let t := .tag (String.ofList handle) (String.ofList suffix) (s.cursor.column == 0)
    some ({ s with cursor := c }.push t)
  else none

/-- Reads a plain scalar. -/
def plain (s : Scanner) : Option Scanner := do
  let s := { s.saveCandidate with keyAllowed := false }
  let s := leaveLoose s.levels s
  let (text, c) ← plainScalar s.inFlow s.indent s.cursor
  some ({ s with cursor := c, keyAllowed := c.margin }.push (.scalar true (String.ofList text)))

/-- Reads a quoted scalar. Inside a flow mapping its value may follow without a blank. -/
def quoted (s : Scanner) : Option Scanner := do
  let s := { s.saveCandidate with keyAllowed := false }
  let (text, c) ← quotedScalar s.inFlow s.indent s.cursor
  let s := { s with cursor := c }
  let s ← skipToToken s.fuel s
  some ({ s with adjacent := s.cursor.index }.push (.scalar false (String.ofList text)))

/-- Reads a block scalar. -/
def block (s : Scanner) : Option Scanner := do
  let s := { s.saveCandidate with keyAllowed := true }
  let s := leaveLoose s.levels s
  let (text, c) ← blockScalar s.indent s.cursor
  some ({ s with cursor := c }.push (.scalar false (String.ofList text)))

/-- Reads the token that the cursor stands before. -/
def token (s : Scanner) : Option Scanner :=
  let c := s.cursor
  let next := c.peek 1
  match c.char with
  | '[' => s.flowStart .flowSequence
  | '{' => s.flowStart .flowMapping
  | ']' => s.flowEnd .flowSequenceEnd
  | '}' => s.flowEnd .flowMappingEnd
  | ',' => s.comma
  | '-' => if endsWord next then s.item else s.plain
  | '?' => if endsWord next then s.key else s.plain
  | ':' =>
    if endsWord next || s.inFlow && (isFlowMark next || c.index == s.adjacent) then s.value else s.plain
  | '*' => s.anchor true
  | '&' => s.anchor false
  | '!' => s.tag
  | '|' | '>' => if s.inFlow then s.plain else s.block
  | '\'' | '"' => s.quoted
  | '%' | '@' | '\x60' => none
  | _ => s.plain

/-- Reads all tokens up to the end of the text. -/
def run : Nat → Scanner → Option (Array Token)
  | 0, _ => none
  | fuel + 1, s => do
    let s ← skipToToken s.fuel s
    let s ← s.dropStale
    let s := s.unroll s.cursor.column
    let c := s.cursor
    if isEnd c.char then
      let s ← s.endBlocks
      some s.tokens
    else if c.column == 0 && c.char == '%' then s.directive.bind (run fuel)
    else if c.isIndicator '-' then s.documentStart.bind (run fuel)
    else if c.isIndicator '.' then s.documentEnd.bind (run fuel)
    else if (c.column : Int) < s.indent then none
    else s.token.bind (run fuel)

end Scanner

/-- The tokens of a text, unless some of it cannot be one. -/
def Token.scan? (text : String) : Option (List Token) :=
  let cursor : Cursor := { rest := text.toList }
  (Scanner.run (cursor.rest.length + 1) { cursor }).map Array.toList

end Yaml
end Letterpress
