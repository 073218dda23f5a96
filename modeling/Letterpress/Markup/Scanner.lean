import Letterpress.Markup.DocumentType

/-! Scanning a document, one character after the other. The scanner is a state machine: a state says
    inside what the next character stands and keeps what has been read of it, last character first. A
    character that may not stand there ends the scan without a result. The text of an entity is read in
    place of a reference to it. -/

namespace Letterpress
namespace Markup
namespace Scanner

/-- An opening tag whose attributes are still being read, the last one first. -/
structure OpenTag where
  tag : QName
  attributes : List (QName × String) := []
  deriving Repr, DecidableEq

/-- An attribute value that is still being read. -/
structure OpenValue where
  tag : OpenTag
  name : QName
  quote : Char
  seen : List Char := []
  deriving Repr, DecidableEq

/-- What the next character stands in. -/
inductive State where
  /-- Text between tags, with the number of closing brackets that have just been read. -/
  | content (seen : List Char) (bare : Bool) (brackets : Nat)
  | contentReference (seen : List Char) (name : List Char)
  /-- Right behind an opening angle bracket. -/
  | angle
  | openName (name : List Char)
  /-- Inside an opening tag, behind a blank. -/
  | inTag (tag : OpenTag)
  /-- Right behind an attribute value. -/
  | afterValue (tag : OpenTag)
  | tagSlash (tag : OpenTag)
  | attributeName (tag : OpenTag) (name : List Char)
  | afterAttributeName (tag : OpenTag) (name : QName)
  | beforeValue (tag : OpenTag) (name : QName)
  | value (open_ : OpenValue)
  | valueAngle (open_ : OpenValue)
  | valueReference (open_ : OpenValue) (name : List Char)
  | closeName (name : List Char)
  | afterCloseName (name : QName)
  /-- Behind an opening angle bracket and an exclamation mark. -/
  | bang
  | commentStart
  | comment (seen : List Char)
  | commentDash (seen : List Char)
  | commentEnd (seen : List Char)
  /-- In the keyword that opens a section of character data. -/
  | cdataStart (left : List Char)
  | cdata (seen : List Char)
  | cdataBracket (seen : List Char)
  | cdataEnd (seen : List Char)
  | instructionName (name : List Char)
  | instructionNameEnd (name : List Char)
  | instructionData (target : String) (seen : List Char)
  | instructionEnd (target : String) (seen : List Char)
  /-- In the keyword that opens a document type. -/
  | doctypeStart (left : List Char)
  | doctype (type : DocumentType.State)
  deriving Repr, DecidableEq

/-- What a character completes: a piece of the document, the declaration of an entity, or a reference to
    one, whose text is then read. -/
inductive Output where
  | event (e : Event)
  | declaration (d : EntityDeclaration)
  | insertion (text : String)
  deriving Repr, DecidableEq

/-- The result of one character: the next state, and what the character has completed. -/
abbrev Step := Option (State × List Output)

/-- The next state, with nothing completed. -/
def move (s : State) : Step :=
  some (s, [])

/-- The next state behind a completed piece of the document. -/
def complete (e : Event) : Step :=
  some (.content [] true 0, [.event e])

/-- The text read, unless there is none. -/
def textEvents (seen : List Char) (bare : Bool) : List Event :=
  if seen.isEmpty && bare then [] else [.text (String.ofList seen.reverse) bare]

/-- The end of an opening tag. -/
def endTag (tag : OpenTag) (closed : Bool) : Step :=
  complete (.opening tag.tag tag.attributes.reverse closed)

/-- Goes on inside an opening tag, where a blank, a slash or the closing bracket may follow. -/
def afterPart (tag : OpenTag) (c : Char) : Step :=
  if c = '>' then endTag tag false
  else if c = '/' then move (.tagSlash tag)
  else if isSpace c then move (.inTag tag)
  else none

/-- The character can go on a name: one colon may stand inside it. -/
def continuesName (name : List Char) (c : Char) : Bool :=
  if c = ':' then !name.isEmpty && !name.contains ':'
  else if name.isEmpty then isNameStart c
  else isNameChar c

/-- The character can go on the name of a reference, which may begin with a number sign. -/
def continuesReference (name : List Char) (c : Char) : Bool :=
  if name.isEmpty then isNameStart c || c == ':' || c == '#' else isNameChar c || c == ':'

/-- The name of an instruction that is reserved in any case of its letters. -/
def isReserved (name : List Char) : Bool :=
  Text.asciiLower (String.ofList name.reverse) == "xml"

/-- The name of the attribute is complete; no two attributes of a tag may have one name, unless they
    declare namespaces. -/
def attributeNamed (tag : OpenTag) (name : List Char) (next : OpenTag → QName → State) : Step := do
  let name ← QName.ofChars? name.reverse
  if tag.attributes.any (·.1 == name) && !name.declaresNamespace then none
  else move (next tag name)

/-- Goes on with the document type. -/
def inDoctype : DocumentType.Move → Step
  | .next type => move (.doctype type)
  | .declare d type => some (.doctype type, [.declaration d])
  | .insert text type => some (.doctype type, [.insertion text])
  | .done => complete .doctype

/-- Reads one document character, where these entities have been declared. -/
def step (entities : Entities) (s : State) (c : Char) : Step :=
  match s with
  | .content seen bare brackets =>
    if c = '<' then some (.angle, (textEvents seen bare).map .event)
    else if c = '&' then move (.contentReference seen [])
    else if c = ']' then move (.content (c :: seen) bare (brackets + 1))
    -- This would end a section of character data, and there is none.
    else if c = '>' ∧ 2 ≤ brackets then none
    else move (.content (c :: seen) bare 0)
  | .contentReference seen name =>
    if c = ';' then
      let name := String.ofList name.reverse
      match reference? name with
      | some r => move (.content (r :: seen) false 0)
      | none => do
        let text ← entities.general.lookup name
        some (.content seen false 0, [.insertion text])
    else if continuesReference name c then move (.contentReference seen (c :: name))
    else none
  | .angle =>
    if c = '/' then move (.closeName [])
    else if c = '!' then move .bang
    else if c = '?' then move (.instructionName [])
    else if isNameStart c then move (.openName [c])
    else none
  | .openName name =>
    if continuesName name c then move (.openName (c :: name))
    else do
      let tag ← QName.ofChars? name.reverse
      afterPart { tag } c
  | .inTag tag =>
    if isNameStart c then move (.attributeName tag [c]) else afterPart tag c
  | .afterValue tag => afterPart tag c
  | .tagSlash tag => if c = '>' then endTag tag true else none
  | .attributeName tag name =>
    if continuesName name c then move (.attributeName tag (c :: name))
    else if c = '=' then attributeNamed tag name .beforeValue
    else if isSpace c then attributeNamed tag name .afterAttributeName
    else none
  | .afterAttributeName tag name =>
    if c = '=' then move (.beforeValue tag name)
    else if isSpace c then move s
    else none
  | .beforeValue tag name =>
    if c = '"' ∨ c = '\'' then move (.value { tag, name, quote := c })
    else if isSpace c then move s
    else none
  | .value v =>
    if c = v.quote then
      move (.afterValue
        { v.tag with attributes := (v.name, String.ofList v.seen.reverse) :: v.tag.attributes })
    else if c = '<' then move (.valueAngle v)
    else if c = '&' then move (.valueReference v [])
    else move (.value { v with seen := c :: v.seen })
  | .valueAngle v =>
    if c = '/' then move (.value { v with seen := '/' :: '<' :: v.seen }) else none
  | .valueReference v name =>
    if c = ';' then do
      let name := String.ofList name.reverse
      -- Unlike in content, the text of an entity is not read again.
      let text ← (reference? name).map ([·]) <|> (entities.general.lookup name).map (·.toList)
      move (.value { v with seen := text.reverse ++ v.seen })
    else if continuesReference name c then move (.valueReference v (c :: name))
    else none
  | .closeName name =>
    if continuesName name c then move (.closeName (c :: name))
    else do
      let tag ← QName.ofChars? name.reverse
      if c = '>' then complete (.closing tag)
      else if isSpace c then move (.afterCloseName tag)
      else none
  | .afterCloseName tag =>
    if c = '>' then complete (.closing tag) else if isSpace c then move s else none
  | .bang =>
    if c = '-' then move .commentStart
    else if c = '[' then move (.cdataStart "CDATA[".toList)
    else if c = 'D' then move (.doctypeStart "OCTYPE".toList)
    else none
  | .commentStart => if c = '-' then move (.comment []) else none
  | .comment seen => if c = '-' then move (.commentDash seen) else move (.comment (c :: seen))
  | .commentDash seen =>
    if c = '-' then move (.commentEnd seen) else move (.comment (c :: '-' :: seen))
  | .commentEnd seen =>
    if c = '>' then complete (.comment (String.ofList seen.reverse)) else none
  | .cdataStart left =>
    match left with
    | [] => none
    | [l] => if c = l then move (.cdata []) else none
    | l :: left => if c = l then move (.cdataStart left) else none
  | .cdata seen => if c = ']' then move (.cdataBracket seen) else move (.cdata (c :: seen))
  | .cdataBracket seen =>
    if c = ']' then move (.cdataEnd seen) else move (.cdata (c :: ']' :: seen))
  | .cdataEnd seen =>
    if c = '>' then complete (.cdata (String.ofList seen.reverse))
    else if c = ']' then move (.cdataEnd (']' :: seen))
    else move (.cdata (c :: ']' :: ']' :: seen))
  | .instructionName name =>
    if name.isEmpty && isNameStart c || !name.isEmpty && (isNameChar c || c == ':') then
      move (.instructionName (c :: name))
    else if name.isEmpty || isReserved name then none
    else if c = '?' then move (.instructionNameEnd name)
    else if isSpace c then move (.instructionData (String.ofList name.reverse) [])
    else none
  | .instructionNameEnd name =>
    if c = '>' then complete (.instruction (String.ofList name.reverse) none) else none
  | .instructionData target seen =>
    if c = '?' then move (.instructionEnd target seen)
    else move (.instructionData target (c :: seen))
  | .instructionEnd target seen =>
    if c = '>' then complete (.instruction target (some (String.ofList seen.reverse)))
    else if c = '?' then move (.instructionEnd target ('?' :: seen))
    else move (.instructionData target (c :: '?' :: seen))
  | .doctypeStart left =>
    match left with
    | [] => none
    | [l] => if c = l then move (.doctype .outside) else none
    | l :: left => if c = l then move (.doctypeStart left) else none
  | .doctype type => (DocumentType.step entities type c).bind inDoctype

/-- A scan on its way: the state, the entities declared, and the events met, the last one first. -/
structure Progress where
  state : State := .content [] true 0
  entities : Entities := {}
  events : List Event := []
  deriving Repr, DecidableEq

namespace Progress

/-- Takes note of what a character completes, and gives the text to be read next. -/
def note (p : Progress) : List Output → Progress × List Char
  | [] => (p, [])
  | .event e :: outputs => { p with events := e :: p.events }.note outputs
  | .declaration d :: outputs => { p with entities := p.entities.declare d }.note outputs
  | .insertion text :: outputs =>
    let (p, more) := p.note outputs
    (p, text.toList ++ more)

/-- Reads one character, and gives the text to be read next. -/
def advance (p : Progress) (c : Char) : Option (Progress × List Char) :=
  if isDocumentChar c then
    (step p.entities p.state c).map fun (state, outputs) => { p with state }.note outputs
  else none

/-- Reads characters, up to a reference to an entity: `insert` reads its text and what comes after it. -/
def readWith (insert : Progress → List Char → Option Progress) (p : Progress) :
    List Char → Option Progress
  | [] => some p
  | c :: cs =>
    match p.advance c with
    | none => none
    | some (p, []) => p.readWith insert cs
    | some (p, text) => insert p (text ++ cs)

/-- Reads the text of an entity, in which further entities may stand at most so often. -/
def readEntity : Nat → Progress → List Char → Option Progress
  | 0 => readWith fun _ _ => none
  | limit + 1 => readWith (readEntity limit)

/-- Reads the characters of a document. At most ten entities are read for one reference. -/
def read (p : Progress) : List Char → Option Progress
  | [] => some p
  | c :: cs =>
    match p.advance c with
    | none => none
    | some (p, []) => p.read cs
    | some (p, text) => (p.readEntity 9 text).bind (·.read cs)

end Progress

/-- The events of a document, whose end may only stand in text. -/
def scan (cs : List Char) : Option (List Event) :=
  match Progress.read {} cs with
  | some ⟨.content seen bare _, _, events⟩ => some (events.reverse ++ textEvents seen bare)
  | _ => none

end Scanner
end Markup
end Letterpress
