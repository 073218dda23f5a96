import Letterpress.Markdown.Line
import Letterpress.Markdown.Reference
import Letterpress.Text.Punctuation

/-! Links of a Markdown text: destinations, titles, labels, the definitions that labels refer to, and
    addresses in angle brackets. -/

namespace Letterpress
namespace Markdown

/-- Where a link leads, and its title. -/
structure Target where
  address : String
  title : String := ""
  deriving Repr, DecidableEq

/-- A label with the target it stands for. -/
structure Definition where
  label : String
  target : Target
  deriving Repr, DecidableEq

/-- The characters with escapes and character references resolved. -/
def unescape : Nat → List Char → List Char
  | 0, _ => []
  | _, [] => []
  | fuel + 1, '\\' :: c :: cs =>
    if Text.isAsciiPunctuation c then c :: unescape fuel cs else '\\' :: unescape fuel (c :: cs)
  | fuel + 1, '&' :: cs =>
    match reference? cs with
    | some (meaning, rest) => meaning ++ unescape fuel rest
    | none => '&' :: unescape fuel cs
  | fuel + 1, c :: cs => c :: unescape fuel cs

/-- The text that the characters write with escapes and character references. -/
def plainText (cs : List Char) : String :=
  String.ofList (unescape cs.length cs)

namespace Link

/-- Reads a destination behind its opening bracket. -/
def bracketed? : List Char → Option (List Char × List Char)
  | '>' :: cs => some ([], cs)
  | '\\' :: c :: cs =>
    if Text.isAsciiPunctuation c then (bracketed? cs).map fun (d, rest) => ('\\' :: c :: d, rest)
    else if c = '\n' then none
    else (bracketed? cs).map fun (d, rest) => ('\\' :: c :: d, rest)
  | c :: cs =>
    if c = '\n' || c = '<' then none else (bracketed? cs).map fun (d, rest) => (c :: d, rest)
  | [] => none

/-- Reads a destination without brackets. Its parentheses are balanced and nest at most so deep. -/
def bare? (most : Nat) : Nat → List Char → Option (List Char × List Char)
  | depth, '\\' :: c :: cs =>
    if Text.isAsciiPunctuation c then (bare? most depth cs).map fun (d, rest) => ('\\' :: c :: d, rest)
    else (bare? most depth (c :: cs)).map fun (d, rest) => ('\\' :: d, rest)
  | depth, c :: cs =>
    if c ≤ ' ' then if depth = 0 then some ([], c :: cs) else none
    else if c = '(' then
      if most < depth then none else (bare? most (depth + 1) cs).map fun (d, rest) => (c :: d, rest)
    else if c = ')' then
      if depth = 0 then some ([], c :: cs) else (bare? most (depth - 1) cs).map fun (d, rest) => (c :: d, rest)
    else (bare? most depth cs).map fun (d, rest) => (c :: d, rest)
  | depth, [] => if depth = 0 then some ([], []) else none

/-- Reads a destination. -/
def destination? (most : Nat) : List Char → Option (List Char × List Char)
  | '<' :: cs => bracketed? cs
  | cs => bare? most 0 cs

/-- The mark that ends a title, given the one that begins it. -/
def closingMark? : Char → Option Char
  | '"' => some '"'
  | '\'' => some '\''
  | '(' => some ')'
  | _ => none

/-- Reads a title up to its closing mark. Space at the start of its lines is dropped. -/
def titleBody? (opening closing : Char) : List Char → Option (List Char × List Char)
  | '\\' :: c :: cs =>
    if Text.isAsciiPunctuation c then (titleBody? opening closing cs).map fun (t, rest) => ('\\' :: c :: t, rest)
    else (titleBody? opening closing (c :: cs)).map fun (t, rest) => ('\\' :: t, rest)
  | c :: cs =>
    if c = closing then some ([], cs)
    else if c = opening then none
    else (titleBody? opening closing cs).map fun (t, rest) => (c :: t, rest)
  | [] => none

/-- Reads a title. -/
def title? : List Char → Option (List Char × List Char)
  | c :: cs => (closingMark? c).bind fun closing => titleBody? c closing cs
  | [] => none

/-- Drops the space at the start of every line but the first. -/
def trimLines : List Char → List Char
  | '\n' :: cs => '\n' :: trimLines (cs.dropWhile fun c => c == ' ' || c == '\t')
  | c :: cs => c :: trimLines cs
  | [] => []
  termination_by cs => cs.length
  decreasing_by
    · have := (List.dropWhile_suffix (fun c => c == ' ' || c == '\t') (l := cs)).length_le
      simp only [List.length_cons]
      omega
    · simp

/-- The character is space or ends a line. -/
def isGap (c : Char) : Bool :=
  Line.isSpace c || c == '\n'

/-- Reads a target in parentheses, and gives what follows it. -/
def target? : List Char → Option (Target × List Char)
  | '(' :: cs => do
    let (address, rest) ← destination? 5 (cs.dropWhile isGap)
    let rest := rest.dropWhile isGap
    let (title, rest) := match title? rest with
      | some (title, rest) => (title, rest.dropWhile isGap)
      | none => ([], rest)
    match rest with
    | ')' :: rest => some (⟨plainText address, plainText (trimLines title)⟩, rest)
    | _ => none
  | _ => none

/-! ### Labels -/

/-- Reads a label behind its opening bracket. It holds no bracket that is not escaped. -/
def labelBody? : List Char → Option (List Char × List Char)
  | ']' :: cs => some ([], cs)
  | '[' :: _ => none
  | '\\' :: c :: cs => (labelBody? cs).map fun (l, rest) => ('\\' :: c :: l, rest)
  | c :: cs => (labelBody? cs).map fun (l, rest) => (c :: l, rest)
  | [] => none

/-- The lower-case letter of an upper-case one in the scripts that have both. -/
def foldCase (c : Char) : Char :=
  let n := c.toNat
  if (0x41 ≤ n && n ≤ 0x5A) || (0xC0 ≤ n && n ≤ 0xDE && n != 0xD7) || (0x391 ≤ n && n ≤ 0x3A9) ||
      (0x410 ≤ n && n ≤ 0x42F) then Char.ofNat (n + 32)
  else if 0x400 ≤ n && n ≤ 0x40F then Char.ofNat (n + 80)
  else if 0x100 ≤ n && n ≤ 0x12F && n % 2 == 0 then Char.ofNat (n + 1)
  else c

/-- The label as labels are compared: words with one space between them, without case. -/
def normalLabel (cs : List Char) : String :=
  String.intercalate " " (Text.words isGap (String.ofList (cs.map foldCase)))

/-- The label, unless it is blank or too long. -/
def validLabel? (cs : List Char) : Option String :=
  if cs.all isGap || 1000 ≤ cs.length then none else some (normalLabel cs)

/-- Reads a label in brackets. -/
def label? : List Char → Option (String × List Char)
  | '[' :: cs => (labelBody? cs).bind fun (l, rest) => (validLabel? l).map (·, rest)
  | _ => none

/-- The label that consists of exactly these characters. -/
def exactLabel? (cs : List Char) : Option String :=
  match labelBody? (cs ++ [']']) with
  | some (l, []) => validLabel? l
  | _ => none

/-- The target that a label stands for: that of its first definition. -/
def find? (definitions : List Definition) (label : String) : Option Target :=
  (definitions.find? (·.label == label)).map (·.target)

/-! ### Definitions -/

/-- Passes space and at most one line break. The answer says whether there was one. -/
def skipBreak? (cs : List Char) : Option (Bool × List Char) :=
  match cs.dropWhile Line.isSpace with
  | '\n' :: rest =>
    match rest.dropWhile Line.isSpace with
    | '\n' :: _ => none
    | rest => some (true, rest)
  | rest => some (false, rest)

/-- What follows the line, if only space is left of it. -/
def endLine? (cs : List Char) : Option (List Char) :=
  match cs.dropWhile Line.isSpace with
  | '\n' :: rest => some rest
  | [] => some []
  | _ => none

/-- Reads what a label is defined as. A title that cannot be read may still begin the next line. -/
def definitionTarget? (cs : List Char) : Option (Target × List Char) := do
  let (_, cs) ← skipBreak? cs
  -- Parentheses nest less deep here than in a link.
  let (address, rest) ← destination? 1 cs
  if address.isEmpty && cs.head? ≠ some '<' then none
  else
    let untitled := (endLine? rest).map fun after => ((⟨plainText address, ""⟩ : Target), after)
    match skipBreak? rest with
    | none => untitled
    | some (broken, gap) =>
      -- Something has to separate the title from the address.
      if gap.length = rest.length && !gap.isEmpty then none
      else
        let titled := do
          let (title, after) ← title? gap
          let after ← endLine? after
          some ((⟨plainText address, plainText (trimLines title)⟩ : Target), after)
        titled <|> if broken || gap.isEmpty then untitled else none

/-- Reads the definition of a label at the start of a block. -/
def definition? (cs : List Char) : Option (Definition × List Char) := do
  let (label, rest) ← label? cs
  match rest with
  | ':' :: rest =>
    let (target, rest) ← definitionTarget? rest
    some (⟨label, target⟩, rest)
  | _ => none

/-! ### Addresses -/

/-- Reads an address with a scheme behind its opening bracket. -/
def address? (cs : List Char) : Option (String × List Char) :=
  let scheme := cs.takeWhile fun c => c.isAlphanum || c == '.' || c == '-' || c == '+'
  if scheme.length < 2 || 32 < scheme.length || (scheme.head?.map Char.isAlpha) != some true then none
  else
    match cs.drop scheme.length with
    | ':' :: rest =>
      let path := rest.takeWhile fun c => !(c ≤ ' ' || c == '<' || c == '>')
      match rest.drop path.length with
      | '>' :: rest => some (String.ofList (scheme ++ ':' :: path), rest)
      | _ => none
    | _ => none

/-- The character can stand before the at sign of a mail address. -/
def isMailChar (c : Char) : Bool :=
  c.isAlphanum || ".!#$%&'*+/=?^_\x60\x7b|\x7d~-".toList.contains c

/-- The characters are a part of a host name. -/
def isHostPart (cs : List Char) : Bool :=
  !cs.isEmpty && cs.length ≤ 63 && cs.all (fun c => c.isAlphanum || c == '-') && cs.head? != some '-' &&
    cs.getLast? != some '-'

/-- Reads a mail address behind its opening bracket. -/
def mail? (cs : List Char) : Option (String × List Char) :=
  let user := cs.takeWhile isMailChar
  match cs.drop user.length with
  | '@' :: rest =>
    let host := rest.takeWhile fun c => c.isAlphanum || c == '-' || c == '.'
    match rest.drop host.length with
    | '>' :: rest =>
      if (Text.splitChars (· == '.') host).all isHostPart then
        some (String.ofList (user ++ '@' :: host), rest)
      else none
    | _ => none
  | _ => none

end Link
end Markdown
end Letterpress
