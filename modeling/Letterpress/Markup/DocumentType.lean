import Letterpress.Markup.Event

/-! Document types. What counts of a document type are the entities it declares: texts with a name, which
    a reference to the name puts into the document. Of two declarations of one name the first holds; an
    entity kept in another document is empty, and all other declarations are passed over. -/

namespace Letterpress
namespace Markup

/-- Entities by their names: those for the content of the document, and those for its type. -/
structure Entities where
  general : List (String × String) := []
  parameter : List (String × String) := []
  deriving Repr, DecidableEq

/-- An entity declaration that is complete. -/
structure EntityDeclaration where
  forType : Bool
  name : String
  text : String
  deriving Repr, DecidableEq

/-- The entities with one more, unless its name is taken. -/
def Entities.declare (e : Entities) (d : EntityDeclaration) : Entities :=
  if d.forType then { e with parameter := e.parameter ++ [(d.name, d.text)] }
  else { e with general := e.general ++ [(d.name, d.text)] }

namespace DocumentType

/-- An entity whose text is still being read, the last character first. -/
structure OpenEntity where
  forType : Bool
  name : String
  quote : Char
  seen : List Char := []
  deriving Repr, DecidableEq

/-- What the next character of a document type stands in. -/
inductive State where
  /-- Between declarations. -/
  | outside
  | quoted (quote : Char)
  /-- Behind the name of an entity that is referred to between declarations. -/
  | reference (name : List Char)
  /-- Right behind an opening angle bracket. -/
  | angle
  | bang
  | commentStart
  /-- In a comment, with the number of hyphens that have just been read. -/
  | comment (hyphens : Nat)
  /-- In an instruction, where a question mark may just have been read. -/
  | instruction (marked : Bool)
  | keyword (seen : List Char)
  | beforeName
  | beforeTypeName
  | name (forType : Bool) (seen : List Char)
  | beforeText (forType : Bool) (name : String)
  | text (entity : OpenEntity)
  /-- Behind an ampersand in the text of an entity. -/
  | textReference (entity : OpenEntity)
  | textNumber (entity : OpenEntity) (digits : List Char)
  | textEntity (entity : OpenEntity) (name : List Char)
  /-- In what is passed over of a declaration. -/
  | rest
  | restQuoted (quote : Char)
  deriving Repr, DecidableEq

/-- What a character leads to: another state, which an entity may have been declared or be read before, or
    the end of the document type. -/
inductive Move where
  | next (s : State)
  | declare (d : EntityDeclaration) (s : State)
  | insert (text : String) (s : State)
  | done
  deriving Repr, DecidableEq

/-- The character can begin the name of an entity. -/
def isEntityStart (c : Char) : Bool :=
  isNameStart c || c == ':'

/-- The character can go on the name of an entity. -/
def isEntityChar (c : Char) : Bool :=
  isNameChar c || c == ':'

/-- The character is a quotation mark. -/
def isQuote (c : Char) : Bool :=
  c == '"' || c == '\''

/-- The state behind the keyword of a declaration. -/
def behindKeyword : String → Option State
  | "ENTITY" => some .beforeName
  | "ELEMENT" | "ATTLIST" | "NOTATION" => some .rest
  | _ => none

/-- The declaration of an entity whose text is complete. -/
def OpenEntity.close (e : OpenEntity) : EntityDeclaration :=
  ⟨e.forType, e.name, String.ofList e.seen.reverse⟩

/-- The entity with more text. -/
def OpenEntity.add (e : OpenEntity) (cs : List Char) : OpenEntity :=
  { e with seen := cs.reverse ++ e.seen }

/-- Reads one character of the text of an entity. A reference to a character counts at once, and so does
    one to an entity of the document type; one to an entity of the content stays. -/
def textStep (e : OpenEntity) (c : Char) : Move :=
  if c = e.quote then .declare e.close .rest
  else if c = '&' then .next (.textReference e)
  else if c = '%' then .next (.textEntity e [])
  else .next (.text (e.add [c]))

/-- Reads one character of a document type that has declared these entities. -/
def step (entities : Entities) (s : State) (c : Char) : Option Move :=
  match s with
  | .outside =>
    if c = '>' then some .done
    else if c = '<' then some (.next .angle)
    else if c = '%' then some (.next (.reference []))
    else if isQuote c then some (.next (.quoted c))
    else some (.next .outside)
  | .quoted quote => some (.next (if c = quote then .outside else s))
  | .reference name =>
    if isEntityChar c then some (.next (.reference (c :: name)))
    else if c = ';' then
      (entities.parameter.lookup (String.ofList name.reverse)).map fun text => .insert text .outside
    else none
  | .angle =>
    if c = '!' then some (.next .bang)
    else if c = '?' then some (.next (.instruction false))
    else none
  | .bang =>
    if c = '-' then some (.next .commentStart)
    else if c.isUpper then some (.next (.keyword [c]))
    else none
  | .commentStart => if c = '-' then some (.next (.comment 0)) else none
  | .comment hyphens =>
    if hyphens = 2 then if c = '>' then some (.next .outside) else none
    else some (.next (.comment (if c = '-' then hyphens + 1 else 0)))
  | .instruction marked => some (.next (if marked && c == '>' then .outside else .instruction (c == '?')))
  | .keyword seen =>
    if c.isUpper then some (.next (.keyword (c :: seen)))
    else if isSpace c then (behindKeyword (String.ofList seen.reverse)).map .next
    else none
  | .beforeName =>
    if isSpace c then some (.next s)
    else if c = '%' then some (.next .beforeTypeName)
    else if isEntityStart c then some (.next (.name false [c]))
    else none
  | .beforeTypeName =>
    if isSpace c then some (.next s)
    else if isEntityStart c then some (.next (.name true [c]))
    else none
  | .name forType seen =>
    if isSpace c then some (.next (.beforeText forType (String.ofList seen.reverse)))
    else if isEntityChar c then some (.next (.name forType (c :: seen)))
    else none
  | .beforeText forType name =>
    if isSpace c then some (.next s)
    else if c = 'S' ∨ c = 'P' then some (.declare ⟨forType, name, ""⟩ .rest)
    else if isQuote c then some (.next (.text { forType, name, quote := c }))
    else none
  | .text e => some (textStep e c)
  | .textReference e =>
    if c = '#' then some (.next (.textNumber e []))
    else if c = e.quote then none
    else some (.next (.text (e.add ['&', c])))
  | .textNumber e digits =>
    if c = ';' then
      (reference? (String.ofList ('#' :: digits.reverse))).map fun r => .next (.text (e.add [r]))
    else if c = e.quote then none
    else some (.next (.textNumber e (c :: digits)))
  | .textEntity e name =>
    if isEntityChar c then some (.next (.textEntity e (c :: name)))
    else if c = ';' then
      (entities.parameter.lookup (String.ofList name.reverse)).map fun text =>
        .next (.text (e.add text.toList))
    else none
  | .rest =>
    if c = '>' then some (.next .outside)
    else some (.next (if isQuote c then .restQuoted c else s))
  | .restQuoted quote => some (.next (if c = quote then .rest else s))

end DocumentType
end Markup
end Letterpress
