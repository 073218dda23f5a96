import Letterpress.Markup.Declaration
import Letterpress.Markup.Scanner

/-! Reading markup. The events of a document build its tree: an opening tag begins an element, the
    matching closing tag ends it. Space alone between tags is layout and dropped, sections of character
    data become text, and a namespace prefix has to be declared where it is used. -/

namespace Letterpress
namespace Markup
namespace Reader

/-- An element whose closing tag has not been read, with its children so far, the last one first. -/
structure Frame where
  tag : QName
  head : Head
  children : List Node := []

/-- The document read so far: the open elements, the innermost first, and the first root element. -/
structure Progress where
  frames : List Frame := []
  root : Option Element := none
  started : Bool := false
  typed : Bool := false

/-- Puts a binding among those in ascending order of their prefixes, in place of one with its prefix. -/
def insertBinding (binding : String × String) : List (String × String) → List (String × String)
  | [] => [binding]
  | other :: rest =>
    if binding.1 = other.1 then binding :: rest
    else if binding.1 < other.1 then binding :: other :: rest
    else other :: insertBinding binding rest

/-- The namespace that the prefix `xml` stands for without a declaration. -/
def xmlNamespace : String := "http://www.w3.org/XML/1998/namespace"

/-- The namespace of namespace declarations. -/
def xmlnsNamespace : String := "http://www.w3.org/2000/xmlns/"

/-- A name split into what a tag declares: a namespace binding or an attribute. -/
inductive Part where
  | binding (pre uri : String)
  | attribute (name : QName) (value : String)
  | nothing

/-- What an attribute of a tag is: a namespace declaration binds a prefix to a name, which only the
    default namespace may lack. -/
def Part.ofAttribute? (name : QName) (value : String) : Option Part :=
  match name.qualifier with
  | some "xmlns" =>
    if name.name = "xmlns" then none
    else if name.name = "xml" then if value = xmlNamespace then some .nothing else none
    else if value = "" then none
    else some (.binding name.name value)
  | some _ => some (.attribute name value)
  | none =>
    if name.name = "xmlns" then
      if ["xmlns", "xml", xmlNamespace, xmlnsNamespace].contains value then none
      else some (.binding "" value)
    else some (.attribute name value)

/-- The bindings in force inside a tag that declares these; of two for one prefix the first holds. -/
def extendScope (outer : List (String × String)) (declared : List (String × String)) :
    List (String × String) :=
  -- An empty default namespace takes back the one declared outside.
  (declared.reverse.foldl (fun scope binding => insertBinding binding scope) outer).filter
    (· ≠ ("", ""))

/-- The attributes by their local names; of two with one local name the last gives the value. -/
def localAttributes (attributes : List (QName × String)) : List (String × String) :=
  attributes.foldl (fun done (name, value) =>
    if done.any (·.1 == name.name) then
      done.map fun pair => if pair.1 == name.name then (name.name, value) else pair
    else done ++ [(name.name, value)]) []

/-- The prefix is declared, or needs no declaration. -/
def isDeclared (scope : List (String × String)) : Option String → Bool
  | none => true
  | some pre => pre == "xml" || pre == "xmlns" || scope.any (·.1 == pre)

/-- The head of an element with this opening tag inside the given bindings. -/
def head? (outer : List (String × String)) (tag : QName) (attributes : List (QName × String)) :
    Option Head := do
  let parts ← attributes.mapM fun (name, value) => Part.ofAttribute? name value
  let scope := extendScope outer (parts.filterMap fun
    | .binding pre uri => some (pre, uri)
    | _ => none)
  let plain := parts.filterMap fun
    | .attribute name value => some (name, value)
    | _ => none
  if tag.qualifier = some "xml" ∨ tag.qualifier = some "xmlns" then none
  else if isDeclared scope tag.qualifier && plain.all (isDeclared scope ·.1.qualifier) then
    some { name := tag.name, qualifier := tag.qualifier, scope, attributes := localAttributes plain }
  else none

namespace Progress

/-- Adds a node to the innermost open element. Outside the elements only an element counts, and of those
    the first. -/
def add (p : Progress) (node : Node) : Progress :=
  match p.frames with
  | frame :: frames => { p with frames := { frame with children := node :: frame.children } :: frames }
  | [] => { p with root := p.root <|> node.element? }

/-- The bindings in force where the next tag stands. -/
def scope (p : Progress) : List (String × String) :=
  (p.frames.head?.map (·.head.scope)).getD []

/-- Takes in the next event. -/
def take (p : Progress) : Event → Option Progress
  | .opening tag attributes closed => do
    let head ← head? p.scope tag attributes
    let p := { p with started := true }
    if closed then some (p.add (.element head []))
    else some { p with frames := { tag, head } :: p.frames }
  | .closing tag =>
    match p.frames with
    | frame :: frames =>
      if frame.tag = tag then
        some (add { p with frames } (.element frame.head frame.children.reverse))
      else none
    | [] => none
  | .text content bare =>
    -- Space from references is dropped too, but may not stand outside the elements.
    if p.frames.isEmpty && !(bare && content.toList.all isSpace) then none
    else if content.toList.all isSpace then some p
    else some (p.add (.text content))
  | .cdata content => if p.frames.isEmpty then none else some (p.add (.text content))
  | .comment content => some (p.add (.comment content))
  | .instruction target data => some (p.add (.instruction target data))
  | .doctype => if p.started || p.typed then none else some { p with typed := true }

end Progress

/-- The root element that the events of a document build; every element has to be closed. -/
def ofEvents? (events : List Event) : Option Element :=
  match events.foldlM Progress.take {} with
  | some p => if p.frames.isEmpty then p.root else none
  | none => none

/-- The characters without the mark of the byte order at their start. -/
def dropMark : List Char → List Char
  | c :: cs => if c.toNat = 0xFEFF then cs else c :: cs
  | [] => []

end Reader

/-- Reads a document and gives its root element; there is none if the text is not well formed. -/
def Element.read? (text : String) : Option Element := do
  let cs ← Declaration.skip (Reader.dropMark text.toList)
  let events ← Scanner.scan cs
  Reader.ofEvents? events

/-- Reads markup that may hold any number of sibling nodes, as the children of an element. -/
def Element.readFragment? (text : String) : Option Element :=
  Element.read? ("<fragment>" ++ text ++ "</fragment>")

end Markup
end Letterpress
