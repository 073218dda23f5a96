import Letterpress.Markdown.Link
import Letterpress.Markdown.Tag

/-! Blocks of a Markdown text. Quotes, lists and their items contain other blocks; the lines of a block
    repeat the marks or the indentation of the blocks around it, except that a paragraph may go on without
    them. The content of paragraphs, headings and cells is kept as source. -/

namespace Letterpress
namespace Markdown

/-- Which side the cells of a table column lean to. -/
inductive Alignment where
  | none
  | left
  | center
  | right
  deriving Repr, DecidableEq

/-- A block. A list has a number if it is ordered, and is tight if no blank line separates what it holds. -/
inductive Block where
  | paragraph (source : List Char)
  | heading (level : Nat) (source : List Char)
  | code (info : Option String) (lines : List Char)
  | html (lines : List Char)
  | rule
  | table (columns : List Alignment) (header : List (List Char)) (rows : List (List (List Char)))
  | quote (blocks : List Block)
  | list (number : Option Nat) (tight : Bool) (items : List (List Block))
  deriving Repr

/-- A block that is open, with what it holds so far, the last part first. A list is marked by a bullet or by
    what stands behind its numbers; an item is indented so far. -/
inductive Container where
  | quote (blocks : List Block)
  | list (mark : Char) (number : Nat) (tight : Bool) (items : List (List Block))
  | item (indent : Nat) (blocks : List Block)
  deriving Repr

/-! ### Marks at the start of a line -/

/-- A line of three or more equal marks, with space between them. -/
def isRule (cs : List Char) : Bool :=
  match cs.filter fun c => c != ' ' && c != '\t' with
  | c :: rest => (c == '*' || c == '-' || c == '_') && 2 ≤ rest.length && rest.all (· == c)
  | [] => false

/-- The level of the heading that a line begins. -/
def headingLevel? (cs : List Char) : Option Nat :=
  let level := (cs.takeWhile (· == '#')).length
  let ends := match cs.drop level with
    | [] => true
    | c :: _ => Line.isSpace c
  if 1 ≤ level && level ≤ 6 && ends then some level else none

/-- The text of a heading behind its marks, without marks that close it. -/
def headingText (cs : List Char) : List Char :=
  let text := (cs.dropWhile Line.isSpace).reverse.dropWhile (· == ' ')
  -- The text is turned around: its marks close the heading only if a space stands before them.
  match text.dropWhile (· == '#') with
  | [] => []
  | ' ' :: rest => (rest.dropWhile (· == ' ')).reverse
  | _ => text.reverse

/-- The level of the heading that a line makes of the paragraph above it. -/
def underlineLevel? (cs : List Char) : Option Nat :=
  match cs with
  | c :: _ =>
    if (c == '=' || c == '-') && (cs.dropWhile (· == c)).all Line.isSpace then some (if c == '=' then 1 else 2)
    else none
  | [] => none

/-- The mark of the fence that a line begins, and its length. -/
def fence? (cs : List Char) : Option (Char × Nat) :=
  match cs with
  | c :: _ =>
    if c == '\x60' || c == '~' then
      let length := (cs.takeWhile (· == c)).length
      -- A line with further backquotes is code inside a paragraph.
      if length < 3 || c == '\x60' && (cs.drop length).contains '\x60' then none else some (c, length)
    else none
  | [] => none

/-- A line closes the fence of this mark and length. -/
def closesFence (mark : Char) (length : Nat) (cs : List Char) : Bool :=
  length ≤ (cs.takeWhile (· == mark)).length && (cs.dropWhile (· == mark)).all (· == ' ')

/-- The mark of a list item: a bullet, or what stands behind a number. -/
structure ItemMark where
  mark : Char
  number : Nat
  deriving Repr, DecidableEq

/-- The character is a bullet. -/
def isBullet (c : Char) : Bool :=
  c == '-' || c == '+' || c == '*'

/-- The mark of the item that begins at the place, and the place behind it. -/
def itemMark? (l : Line) : Option (ItemMark × Line) :=
  match l.rest with
  | [] => none
  | c :: rest =>
    if isBullet c then if isRule l.rest then none else some (⟨c, 0⟩, l.next)
    else
      let digits := (c :: rest).takeWhile Char.isDigit
      match (c :: rest).drop digits.length with
      | d :: after =>
        if (d == '.' || d == ')') && 1 ≤ digits.length && digits.length ≤ 9 then
          some (⟨d, (Markup.number? 10 digits).getD 0⟩,
            { l with rest := after, column := l.column + digits.length + 1 })
        else none
      | [] => none

/-- Reads the mark of an item and the space behind it. The answer is the mark, the indentation of the item,
    and the place where its first line begins. -/
def item? (l : Line) : Option (ItemMark × Nat × Line) := do
  let (indent, start) := l.takeSpace 4
  if 4 ≤ indent then none
  else
    let (mark, behind) ← itemMark? start
    let width := indent + (start.rest.length - behind.rest.length)
    if behind.isOver then some (mark, width + 1, behind)
    else
      let content ← behind.takeAll? 1
      if content.isBlank then some (mark, width + 1, content)
      else
        -- Four columns more belong to the content, which is code by indentation.
        let (more, inner) := content.takeSpace 4
        if more < 4 then some (mark, width + 1 + more, inner) else some (mark, width + 1, content)

/-- Reads the mark of a quote. -/
def quote? (l : Line) : Option Line :=
  let (indent, start) := l.takeSpace 4
  if 4 ≤ indent then none
  else
    match start.rest with
    | '>' :: _ => some (start.next.takeSpace 1).2
    | _ => none

/-- A line begins a block that ends the paragraph before it. An item does so in a list; elsewhere it has to
    have content, and a number has to be one. -/
def interrupts (inList : Bool) (l : Line) : Bool :=
  let cs := l.rest
  cs.all Line.isSpace || isRule cs || (headingLevel? cs).isSome || (fence? cs).isSome || cs.head? == some '>' ||
    (cs.head? == some '<' && ((Tag.blockEnd? cs.tail).isSome || Tag.beginsBlock cs.tail)) ||
    match item? l with
    | some (mark, _, content) => inList || !content.isBlank && (isBullet mark.mark || mark.number == 1)
    | none => false

/-! ### Tables -/

/-- The cells between the bars of a row that are not escaped. -/
def barParts : List Char → List (List Char)
  | [] => [[]]
  | '\\' :: c :: cs =>
    match barParts cs with
    | part :: parts => (if c == '|' then '\\' :: '|' :: part else '\\' :: c :: part) :: parts
    | [] => [['\\', c]]
  | '|' :: cs => [] :: barParts cs
  | c :: cs =>
    match barParts cs with
    | part :: parts => (c :: part) :: parts
    | [] => [[c]]

/-- The characters without space at either end. -/
def trimSpace (cs : List Char) : List Char :=
  ((cs.dropWhile Line.isSpace).reverse.dropWhile Line.isSpace).reverse

/-- The cells of a row. A bar at either end separates nothing. -/
def cells (cs : List Char) : List (List Char) :=
  let parts := (barParts cs).map trimSpace
  let parts := if parts.head? = some [] && 1 < parts.length then parts.drop 1 else parts
  if parts.getLast? = some [] then parts.dropLast else parts

/-- The cells of a row of so many columns. -/
def rowCells (columns : Nat) (cs : List Char) : List (List Char) :=
  let found := cells cs
  found.take columns ++ List.replicate (columns - found.length) []

/-- The alignment that the marks under a column ask for. -/
def alignment? (cs : List Char) : Option Alignment :=
  let marks := cs.filter (· != ' ')
  if !marks.contains '-' || !marks.all (fun c => c == '-' || c == ':') then Option.none
  else
    match marks.head? == some ':', marks.getLast? == some ':' with
    | true, true => some .center
    | true, false => some .left
    | false, true => some .right
    | false, false => some .none

/-- The columns that a line under the header of a table describes. -/
def columns? (l : Line) : Option (List Alignment) :=
  let (indent, start) := l.takeSpace 4
  if 4 ≤ indent || !start.rest.contains '|' then none else (cells start.rest).mapM alignment?

/-- The columns of the table whose header the line is, if the next line describes as many as it has. -/
def tableColumns? (header : List Char) (next : Line) : Option (List Alignment) :=
  if (barParts header).length < 2 then none
  else (columns? next).filter fun columns => columns.length == (cells header).length

/-! ### Open blocks -/

/-- The place behind the marks of the open blocks on a line, and how many of them it repeats. The outermost
    block comes first. -/
def matchContainers : List Container → Line → Nat × Line
  | [], l => (0, l)
  | .quote _ :: inner, l =>
    match quote? l with
    | some l =>
      let (n, l) := matchContainers inner l
      (n + 1, l)
    | none => (0, l)
  | .item indent _ :: inner, l =>
    let (taken, behind) := l.takeSpace indent
    if taken = indent || behind.isOver then
      let (n, l) := matchContainers inner behind
      (n + 1, l)
    else (0, l)
  -- The marks and the indentation are those of its items.
  | .list .. :: inner, l =>
    let (n, l) := matchContainers inner l
    (n + 1, l)

/-- What has been read: the open blocks, the innermost first, the closed ones around them, the last first,
    and the definitions. A blank line matters to what follows it, and lists that were opened and not closed
    by a block of their own level are counted. -/
structure Progress where
  containers : List Container := []
  blocks : List Block := []
  definitions : List Definition := []
  afterBlank : Bool := false
  emptyItem : Bool := false
  openLists : Nat := 0

namespace Progress

/-- The place behind the marks of the open blocks on a line, if it repeats all of them. -/
def inside? (p : Progress) (source : SourceLine) : Option Line :=
  let (n, l) := matchContainers p.containers.reverse (Line.ofChars source.chars)
  if n = p.containers.length then some l else none

/-- Puts a block into the innermost open one. -/
def put (p : Progress) (block : Block) : Progress :=
  match p.containers with
  | .quote blocks :: outer => { p with containers := .quote (block :: blocks) :: outer }
  | .item indent blocks :: outer => { p with containers := .item indent (block :: blocks) :: outer }
  | .list mark number tight items :: outer =>
    { p with containers := .list mark number tight ([block] :: items) :: outer }
  | [] => { p with blocks := block :: p.blocks }

/-- Puts an item into the innermost open list. -/
def putItem (p : Progress) (blocks : List Block) : Progress :=
  match p.containers with
  | .list mark number tight items :: outer =>
    { p with containers := .list mark number tight (blocks :: items) :: outer }
  | _ => p

/-- Closes the innermost open block. -/
def close (p : Progress) : Progress :=
  match p.containers with
  | .quote blocks :: outer => { p with containers := outer }.put (.quote blocks.reverse)
  | .item _ blocks :: outer => { p with containers := outer }.putItem blocks.reverse
  | .list mark number tight items :: outer =>
    { p with containers := outer }.put
      (.list (if isBullet mark then none else some number) tight items.reverse)
  | [] => p

/-- Closes so many open blocks. -/
def closeMany : Nat → Progress → Progress
  | 0, p => p
  | count + 1, p => closeMany count p.close

/-- The second open block, if it is a list, is not tight. -/
def loosenOuter (p : Progress) : Progress :=
  match p.containers with
  | inner :: .list mark number _ items :: outer =>
    { p with containers := inner :: .list mark number false items :: outer }
  | _ => p

/-- Closes a list before a block that is no item of it. A blank line before the block loosens the list that
    it is part of. -/
def endList (p : Progress) : Progress :=
  let p := match p.containers with
    | .list .. :: _ => { p.close with openLists := p.openLists - 1 }
    | _ => p
  if p.afterBlank then { p.loosenOuter with afterBlank := false } else p

/-- Opens an item, in the open list of its mark or in a new one. -/
def openItem (p : Progress) (mark : ItemMark) (indent : Nat) : Progress :=
  let fresh (p : Progress) : Progress :=
    let p := p.endList
    { p with
      containers := .list mark.mark mark.number true [] :: p.containers
      openLists := p.openLists + 1
      afterBlank := false }
  let p := match p.containers with
    | .list m number tight items :: outer =>
      if m = mark.mark then
        { p with containers := .list m number (tight && !p.afterBlank) items :: outer, afterBlank := false }
      else fresh p
    | _ => fresh p
  { p with containers := .item indent [] :: p.containers }

/-- Opens the blocks whose marks stand at the place. The last answer says that the line ends behind the mark
    of an item. -/
def openContainers : Nat → Progress → Line → Progress × Line × Bool
  | 0, p, l => (p, l, false)
  | fuel + 1, p, l =>
    match item? l with
    | some (mark, indent, behind) =>
      let p := p.openItem mark indent
      if behind.isBlank then (p, behind, true) else openContainers fuel p behind
    | none =>
      match quote? l with
      | some behind =>
        let p := p.endList
        openContainers fuel { p with containers := .quote [] :: p.containers } behind
      | none => (p, l, false)

/-! ### Blocks of lines -/

/-- A line break, if the line has one. -/
def lineEnd (source : SourceLine) : List Char :=
  if source.ended then ['\n'] else []

/-- The lines that go on with a block of code by indentation: each with the answer whether it is blank. -/
def indentedLines (p : Progress) : List SourceLine → List (List Char × Bool) × List SourceLine
  | [] => ([], [])
  | source :: rest =>
    match p.inside? source with
    | none => ([], source :: rest)
    | some l =>
      let (n, l) := l.takeSpace 4
      if n = 4 || l.isOver then
        let (lines, rest) := indentedLines p rest
        ((l.text ++ lineEnd source, l.isBlank) :: lines, rest)
      else ([], source :: rest)

/-- Reads a block of code by indentation, from the place of its first line. Blank lines at its end are
    dropped. -/
def indentedCode (p : Progress) (l : Line) (source : SourceLine) (rest : List SourceLine) :
    Progress × List SourceLine :=
  let found := indentedLines p rest
  let kept := (found.1.reverse.dropWhile Prod.snd).reverse
  let afterBlank := (found.1.getLast?.map Prod.snd).getD false
  let code := l.text ++ lineEnd source ++ (kept.map Prod.fst).flatten
  ({ p with afterBlank }.put (.code none code), found.2)

/-- The lines of fenced code up to the line that closes it or leaves the open blocks. -/
def fencedLines (p : Progress) (indent : Nat) (mark : Char) (length : Nat) :
    List SourceLine → List Char × List SourceLine
  | [] => ([], [])
  | source :: rest =>
    match p.inside? source with
    | none => ([], source :: rest)
    | some l =>
      let (taken, l) := l.takeSpace indent
      let (more, behind) := l.takeSpace 4
      if taken + more < 4 && closesFence mark length behind.rest then ([], rest)
      else
        let (lines, rest) := fencedLines p indent mark length rest
        (l.text ++ lineEnd source ++ lines, rest)

/-- Reads fenced code behind the marks of its fence. -/
def fencedCode (p : Progress) (indent : Nat) (mark : Char) (length : Nat) (info : List Char)
    (rest : List SourceLine) : Progress × List SourceLine :=
  let (lines, rest) := fencedLines p indent mark length rest
  (p.put (.code (some (plainText (trimSpace info))) lines), rest)

/-- The mark stands somewhere in the characters. -/
def holds (mark : String) (cs : List Char) : Bool :=
  (Tag.behind? mark.toList cs).isSome

/-- The lines that go on with HTML up to one that holds the mark. -/
def markedLines (p : Progress) (mark : String) : List SourceLine → List Char × List SourceLine
  | [] => ([], [])
  | source :: rest =>
    match p.inside? source with
    | none => ([], source :: rest)
    | some l =>
      let line := l.text ++ lineEnd source
      if holds mark l.rest then (line, rest)
      else
        let (lines, rest) := markedLines p mark rest
        (line ++ lines, rest)

/-- Reads HTML that a mark ends. -/
def markedHtml (p : Progress) (mark : String) (l : Line) (source : SourceLine) (rest : List SourceLine) :
    Progress × List SourceLine :=
  let first := l.rest ++ lineEnd source
  if holds mark l.rest then (p.put (.html first), rest)
  else
    let (lines, rest) := markedLines p mark rest
    (p.put (.html (first ++ lines)), rest)

/-- The lines that go on with HTML up to a blank one. -/
def unmarkedLines (p : Progress) : List SourceLine → List Char × List SourceLine
  | [] => ([], [])
  | source :: rest =>
    match p.inside? source with
    | none => ([], source :: rest)
    | some l =>
      if l.isBlank then ([], source :: rest)
      else
        let (lines, rest) := unmarkedLines p rest
        (l.text ++ lineEnd source ++ lines, rest)

/-- Reads HTML that a blank line ends. -/
def unmarkedHtml (p : Progress) (l : Line) (source : SourceLine) (rest : List SourceLine) :
    Progress × List SourceLine :=
  let (lines, rest) := unmarkedLines p rest
  (p.put (.html (l.rest ++ lineEnd source ++ lines)), rest)

/-- The rows of a table below its header. -/
def tableRows (p : Progress) (columns : Nat) : List SourceLine → List (List (List Char)) × List SourceLine
  | [] => ([], [])
  | source :: rest =>
    match p.inside? source with
    | none => ([], source :: rest)
    | some l =>
      let cs := l.trimStart
      if interrupts false (Line.ofChars cs) then ([], source :: rest)
      else
        let (rows, rest) := tableRows p columns rest
        (rowCells columns cs :: rows, rest)

/-- How a paragraph ends, and the lines behind it. -/
inductive ParagraphEnd where
  | plain (rest : List SourceLine)
  | underlined (level : Nat) (rest : List SourceLine)

/-- The lines that go on with a paragraph. -/
def paragraphLines (p : Progress) : List SourceLine → List SourceLine × ParagraphEnd
  | [] => ([], .plain [])
  | source :: rest =>
    let (n, l) := matchContainers p.containers.reverse (Line.ofChars source.chars)
    let (indent, behind) := l.takeSpace 4
    -- A line that leaves an open block goes on with the paragraph, but underlines nothing.
    let level? :=
      if indent < 4 && n = p.containers.length then underlineLevel? behind.rest else none
    match level? with
    | some level => ([], .underlined level rest)
    | none =>
      if l.trimStart.isEmpty || indent < 4 && interrupts (0 < p.openLists) behind then ([], .plain (source :: rest))
      else
        let (lines, ending) := paragraphLines p rest
        (⟨l.rest, source.ended⟩ :: lines, ending)

/-- The source of lines. Two columns of space or more before the last line break are dropped. -/
def joinLines : List SourceLine → List Char
  | [] => []
  | [last] =>
    let space := last.chars.reverse.takeWhile Line.isSpace
    if last.ended && 2 ≤ space.length then last.chars.take (last.chars.length - space.length) else last.chars
  | line :: lines => line.chars ++ '\n' :: joinLines lines

/-- The characters without the space at their end. -/
def trimEnd (cs : List Char) : List Char :=
  (cs.reverse.dropWhile Line.isSpace).reverse

/-- Reads a paragraph, or the heading or the table that begins like one. -/
def paragraph (p : Progress) (l : Line) (source : SourceLine) (rest : List SourceLine) :
    Progress × List SourceLine :=
  let columns? := do
    let next ← rest.head?
    let next ← p.inside? next
    tableColumns? l.rest next
  match columns? with
  | some columns =>
    let (rows, rest) := tableRows p columns.length (rest.drop 1)
    (p.put (.table columns (rowCells columns.length l.rest) rows), rest)
  | none =>
    let (lines, ending) := paragraphLines p rest
    let text := joinLines (⟨l.rest, source.ended⟩ :: lines)
    match ending with
    | .plain rest => (p.put (.paragraph text), rest)
    | .underlined level rest => (p.put (.heading level (trimEnd text)), rest)

/-- The lines that a definition can stand on: those of the open blocks up to a blank one. -/
def definitionLines (p : Progress) : List SourceLine → List (List Char)
  | [] => []
  | source :: rest =>
    match p.inside? source with
    | none => []
    | some l => if l.isBlank then [] else l.rest :: definitionLines p rest

/-- Reads the definition of a label. The first definition of a label counts. -/
def definition? (p : Progress) (l : Line) (rest : List SourceLine) : Option (Progress × List SourceLine) :=
  if l.rest.head? != some '[' then none
  else
    let more := p.definitionLines rest
    let text := (l.rest :: more).foldr (fun line text => line ++ '\n' :: text) []
    (Link.definition? text).map fun (definition, after) =>
      -- Each line left has its line break.
      let left := (after.filter (· == '\n')).length
      ({ p with definitions := p.definitions ++ [definition] }, rest.drop (more.length - left))

/-- Reads the block that begins at the place. -/
def leaf (p : Progress) (l : Line) (source : SourceLine) (rest : List SourceLine) : Progress × List SourceLine :=
  let (indent, start) := l.takeSpace 4
  if indent = 4 then p.indentedCode start source rest
  else
    let cs := start.rest
    let html := if cs.head? == some '<' then Tag.blockEnd? cs.tail else none
    match html with
    | some mark => p.markedHtml mark start source rest
    | none =>
      if cs.head? == some '<' && (Tag.beginsBlock cs.tail || Tag.isAlone cs.tail) then
        p.unmarkedHtml start source rest
      else if isRule cs then (p.put .rule, rest)
      else
        match headingLevel? cs with
        | some level => (p.put (.heading level (headingText (cs.drop level))), rest)
        | none =>
          match p.definition? start rest with
          | some found => found
          | none =>
            match fence? cs with
            | some (mark, length) => p.fencedCode indent mark length (cs.drop length) rest
            | none => p.paragraph start source rest

/-- What a blank line does: an item that began with one ends, and what follows is behind a blank line. -/
def blankLine (p : Progress) : Progress :=
  match p.containers with
  | [] => { p with emptyItem := false }
  | .quote _ :: _ => { p with emptyItem := false }
  | _ => { (if p.emptyItem then p.close else p) with afterBlank := true, emptyItem := false }

/-- Reads the block that begins on a line. -/
def block (p : Progress) (source : SourceLine) (rest : List SourceLine) : Progress × List SourceLine :=
  let (n, l) := matchContainers p.containers.reverse (Line.ofChars source.chars)
  let p := p.closeMany (p.containers.length - n)
  let (p, l, bareItem) := openContainers (l.rest.length + 1) p l
  if bareItem then ({ p with emptyItem := true }, rest)
  else if l.isBlank then (p.blankLine, rest)
  else { p with emptyItem := false }.endList.leaf l source rest

/-- Reads all lines. -/
def run : Nat → Progress → List SourceLine → Progress
  | 0, p, _ => p
  | _, p, [] => p
  | fuel + 1, p, source :: rest =>
    let (p, rest) := p.block source rest
    run fuel p rest

end Progress

/-- A text as blocks, with the definitions of the labels in it. -/
structure Document where
  blocks : List Block
  definitions : List Definition
  deriving Repr

/-- The blocks and definitions of a text. -/
def Document.ofText (text : String) : Document :=
  let lines := linesOf text
  -- Every block takes one line at least.
  let p := Progress.run lines.length {} lines
  let p := p.closeMany p.containers.length
  ⟨p.blocks.reverse, p.definitions⟩

end Markdown
end Letterpress
