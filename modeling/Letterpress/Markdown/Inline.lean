import Letterpress.Markdown.Link
import Letterpress.Markdown.Tag

/-! The content of a paragraph, a heading or a table cell: words, code, markup, line breaks, emphasis and
    links. It is read from left to right into pieces; runs of emphasis marks and opening brackets stay
    open until something closes them, and are words if nothing does. -/

namespace Letterpress
namespace Markdown

/-- How emphasised content is set off. -/
inductive Emphasis where
  | emphasized
  | strong
  | deleted
  deriving Repr, DecidableEq

/-- A part of the content of a block. -/
inductive Inline where
  | text (content : String)
  | code (content : String)
  | html (markup : String)
  | softBreak
  | hardBreak
  | emphasis (kind : Emphasis) (content : List Inline)
  | link (target : Target) (content : List Inline)
  | image (target : Target) (content : List Inline)
  deriving Repr

/-- A run of equal emphasis marks: how many are left, how many there were, and what they can do. -/
structure Run where
  mark : Char
  count : Nat
  size : Nat
  opens : Bool
  closes : Bool
  deriving Repr

/-- A piece of content that is being read. An open bracket knows what follows it in the source; it is
    active until a link has been read behind it. -/
inductive Piece where
  | done (content : Inline)
  | run (marks : Run)
  | bracket (image active : Bool) (after : List Char)
  deriving Repr

/-! ### Emphasis -/

namespace Run

/-- The marks can both open and close emphasis. -/
def both (r : Run) : Bool :=
  r.opens && r.closes

/-- The two runs enclose emphasised content. A run that could do both needs sizes whose sum is no multiple
    of three, unless each of them is. Two runs of tildes are of one size. -/
def isClosedBy (opener closer : Run) : Bool :=
  opener.mark == closer.mark && (closer.mark != '~' || opener.size == closer.size) &&
    (!opener.both && !closer.both || (opener.size + closer.size) % 3 != 0 || closer.size % 3 == 0)

/-- The marks as a word. -/
def text (r : Run) : Inline :=
  .text (String.ofList (List.replicate r.count r.mark))

/-- The content inside so many marks on both sides, two of which are strong. -/
def wrap (mark : Char) : Nat → List Inline → List Inline
  | 0, content => content
  | 1, content => [.emphasis (if mark == '~' then .deleted else .emphasized) content]
  | count + 2, content => wrap mark count [.emphasis (if mark == '~' then .deleted else .strong) content]

end Run

/-- A piece that nothing has closed, as content. -/
def Piece.settle : Piece → Inline
  | .done content => content
  | .run marks => marks.text
  | .bracket image _ _ => .text (if image then "![" else "[")

/-- The latest open run that matches the closing one: the pieces behind it, the latest first, the run, and
    the pieces before it. -/
def findOpener (closer : Run) : List Piece → Option (List Piece × Run × List Piece)
  | [] => none
  | .run opener :: before =>
    if opener.isClosedBy closer then some ([], opener, before)
    else (findOpener closer before).map fun (inner, found) => (.run opener :: inner, found)
  | piece :: before => (findOpener closer before).map fun (inner, found) => (piece :: inner, found)

/-- Puts a run behind the pieces, the latest of which comes first: it closes what it can, and what is left
    of it may open something. -/
def closeRun : Nat → Run → List Piece → List Piece
  | 0, _, pieces => pieces
  | fuel + 1, closer, pieces =>
    match if closer.closes then findOpener closer pieces else none with
    | some (inner, opener, before) =>
      let used := min opener.count closer.count
      -- Runs between the two have nothing left to close them.
      let content := Run.wrap closer.mark used (inner.reverse.map Piece.settle)
      let rest := if used < opener.count then .run { opener with count := opener.count - used } :: before else before
      let pieces := content.reverse.map Piece.done ++ rest
      if used < closer.count then closeRun fuel { closer with count := closer.count - used } pieces else pieces
    | none => (if closer.opens then .run closer else .done closer.text) :: pieces

/-- The content that the pieces make, which come in order. -/
def settleAll (pieces : List Piece) : List Inline :=
  let closed := pieces.foldl (fun seen piece =>
    match piece with
    | .run marks => closeRun (marks.count + 1) marks seen
    | piece => piece :: seen) []
  closed.reverse.map Piece.settle

/-- The run can open emphasis, between these characters. -/
def canOpen (mark : Char) (count : Nat) (before after : Option Char) : Bool :=
  match after with
  | none => false
  | some after =>
    if Text.isBlank after then false
    else
      match before with
      | none => true
      | some before =>
        mark == '*' && !Text.isPunctuation after || mark == '~' && 1 < count ||
          mark == '~' && before == '~' && !Text.isPunctuation after || Text.isBlank before ||
          Text.isPunctuation before

/-- The run can close emphasis, between these characters. -/
def canClose (mark : Char) (count : Nat) (before after : Option Char) : Bool :=
  match before with
  | none => false
  | some before =>
    if Text.isBlank before then false
    else
      match after with
      | none => true
      | some after =>
        (mark == '*' || mark == '~' && 1 < count) && !Text.isPunctuation before ||
          mark == '~' && before == '~' || Text.isBlank after || Text.isPunctuation after

/-! ### Code -/

/-- The characters up to a run of exactly so many backquotes, and those behind it. -/
def codeBody? (count : Nat) : Nat → List Char → Option (List Char × List Char)
  | 0, _ => none
  | _, [] => none
  | fuel + 1, c :: cs =>
    if c = '\x60' then
      let run := (c :: cs).takeWhile (· == '\x60')
      let rest := (c :: cs).drop run.length
      if run.length = count then some ([], rest)
      else (codeBody? count fuel rest).map fun (body, rest) => (run ++ body, rest)
    else (codeBody? count fuel cs).map fun (body, rest) => (c :: body, rest)

/-- Code on one line: a line break and the space behind it become one space. -/
def joinLines : List Char → List Char
  | '\n' :: cs => ' ' :: joinLines (cs.dropWhile fun c => c == ' ' || c == '\t')
  | c :: cs => c :: joinLines cs
  | [] => []
  termination_by cs => cs.length
  decreasing_by
    · have := (List.dropWhile_suffix (fun c => c == ' ' || c == '\t') (l := cs)).length_le
      simp only [List.length_cons]
      omega
    · simp

/-- Code without one space at either end, if there is one at both and not only spaces. -/
def trimCode (cs : List Char) : List Char :=
  if cs.all (· == ' ') then cs
  else if cs.head? = some ' ' && cs.getLast? = some ' ' then cs.tail.dropLast
  else cs

/-- What a code span says. -/
def codeText (cs : List Char) : String :=
  String.ofList (trimCode (joinLines cs))

/-! ### Reading -/

/-- What has been read: the pieces, the latest first, and the characters of the word after them, the latest
    first. -/
structure Reader where
  pieces : List Piece := []
  word : List Char := []

namespace Reader

/-- The pieces with the word behind them. -/
def flush (r : Reader) : List Piece :=
  if r.word.isEmpty then r.pieces else .done (.text (String.ofList r.word.reverse)) :: r.pieces

/-- The reader behind a piece. -/
def put (r : Reader) (piece : Piece) : Reader :=
  { pieces := piece :: r.flush }

/-- The reader behind a character of a word. -/
def char (r : Reader) (c : Char) : Reader :=
  { r with word := c :: r.word }

/-- The reader behind characters of a word. -/
def chars (r : Reader) (cs : List Char) : Reader :=
  { r with word := cs.reverse ++ r.word }

/-- The reader behind a line break. Two columns of space before it make it a hard one. -/
def lineBreak (r : Reader) : Reader :=
  let space := r.word.takeWhile Line.isSpace
  if 2 ≤ space.length then { r with word := r.word.drop space.length }.put (.done .hardBreak)
  else r.put (.done .softBreak)

end Reader

/-- The latest open bracket: the pieces behind it, the bracket, and the pieces before it. -/
def findBracket : List Piece → Option (List Piece × (Bool × Bool × List Char) × List Piece)
  | [] => none
  | .bracket image active after :: before => some ([], (image, active, after), before)
  | piece :: before => (findBracket before).map fun (inner, found) => (piece :: inner, found)

/-- The pieces once a link has been read behind them: links do not nest. -/
def deactivate (pieces : List Piece) : List Piece :=
  pieces.map fun
    | .bracket false _ after => .bracket false false after
    | piece => piece

/-- The target that a bracket refers to by a label: one behind it, or its own content. -/
def referredTarget? (definitions : List Definition) (content rest : List Char) : Option (Target × List Char) :=
  let own := (Link.exactLabel? content).bind (Link.find? definitions)
  match rest with
  | '[' :: ']' :: rest => own.map (·, rest)
  | rest =>
    match Link.label? rest with
    -- A label that is not defined is not made up for by the content.
    | some (label, rest) => (Link.find? definitions label).map (·, rest)
    | none => own.map (·, rest)

/-- Reads a closing bracket: a link or an image, or a word. The answer is what follows it. -/
def closeBracket (definitions : List Definition) (r : Reader) (rest : List Char) : Reader × List Char :=
  match findBracket r.flush with
  | none => (r.char ']', rest)
  | some (inner, (image, active, after), before) =>
    let target? :=
      if image || active then
        Link.target? rest <|>
          referredTarget? definitions (after.take (after.length - (rest.length + 1))) rest
      else none
    match target? with
    | some (target, rest) =>
      let content := settleAll inner.reverse
      let link := if image then Inline.image target content else Inline.link target content
      (⟨.done link :: (if image then before else deactivate before), []⟩, rest)
    | none =>
      let bracket := Piece.done (Piece.bracket image active after).settle
      (⟨.done (.text "]") :: inner ++ bracket :: before, []⟩, rest)

/-- Reads markup or an address behind an opening bracket. -/
def angle (r : Reader) (cs : List Char) : Reader × List Char :=
  match Link.address? cs with
  | some (address, rest) => (r.put (.done (.link ⟨address, ""⟩ [.text address])), rest)
  | none =>
    match Link.mail? cs with
    | some (address, rest) => (r.put (.done (.link ⟨"mailto:" ++ address, ""⟩ [.text address])), rest)
    | none =>
      match Tag.inline? cs with
      | some rest =>
        let markup := String.ofList ('<' :: cs.take (cs.length - rest.length))
        (r.put (.done (.html markup)), rest)
      | none => (r.char '<', cs)

/-- Reads code behind backquotes, of which there are so many. -/
def code (r : Reader) (count : Nat) (cs : List Char) : Reader × List Char :=
  match codeBody? count (cs.length + 1) cs with
  | some (body, rest) => (r.put (.done (.code (codeText body))), rest)
  | none => (r.chars (List.replicate count '\x60'), cs)

/-- Reads what stands behind a backslash. -/
def escape (r : Reader) : List Char → Reader × List Char
  | '\n' :: cs => (r.put (.done .hardBreak), cs.dropWhile fun c => c == ' ' || c == '\t')
  | c :: cs => if Text.isAsciiPunctuation c then (r.char c, cs) else (r.char '\\', c :: cs)
  | [] => (r.char '\\', [])

/-- Reads a run of emphasis marks, behind a character. More than two tildes are a word. -/
def emphasisRun (r : Reader) (before : Option Char) (mark : Char) (cs : List Char) : Reader × List Char :=
  let count := 1 + (cs.takeWhile (· == mark)).length
  let rest := cs.drop (count - 1)
  let opens := canOpen mark count before rest.head?
  let closes := canClose mark count before rest.head?
  if (opens || closes) && (mark != '~' || count ≤ 2) then (r.put (.run ⟨mark, count, count, opens, closes⟩), rest)
  else (r.chars (List.replicate count mark), rest)

/-- Reads one step behind a character: a word's character, or whatever begins with the next one. -/
def readStep (definitions : List Definition) (r : Reader) (before : Option Char) (c : Char) (cs : List Char) :
    Reader × List Char :=
  match c with
  | '\n' => (r.lineBreak, cs.dropWhile fun c => c == ' ' || c == '\t')
  | '\\' => escape r cs
  | '\x60' =>
    let count := 1 + (cs.takeWhile (· == '\x60')).length
    code r count (cs.drop (count - 1))
  | '<' => angle r cs
  | '&' =>
    match reference? cs with
    | some (meaning, rest) => (r.put (.done (.text (String.ofList meaning))), rest)
    | none => (r.char '&', cs)
  | '[' => (r.put (.bracket false true cs), cs)
  | ']' => closeBracket definitions r cs
  | '!' =>
    match cs with
    | '[' :: cs => (r.put (.bracket true true cs), cs)
    | cs => (r.char '!', cs)
  | c => if c == '*' || c == '_' || c == '~' then emphasisRun r before c cs else (r.char c, cs)

/-- Reads the source of some content, behind a character of it. -/
def readFrom (definitions : List Definition) : Nat → Reader → Option Char → List Char → List Piece
  | 0, r, _, _ => r.flush
  | _, r, _, [] => r.flush
  | fuel + 1, r, before, c :: cs =>
    let (r, rest) := readStep definitions r before c cs
    -- the character before the rest is the last one of what was read
    let before := (c :: cs)[cs.length - rest.length]?
    readFrom definitions fuel r before rest

/-- The content that the source says, where labels are defined so. -/
def Inline.ofSource (definitions : List Definition) (source : List Char) : List Inline :=
  settleAll (readFrom definitions source.length {} none source).reverse

end Markdown
end Letterpress
