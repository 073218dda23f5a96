import Letterpress.Yaml.Token
import Letterpress.Yaml.Value

/-! Documents of a YAML text. Their nodes are read from tokens. A node that is left out is null, an alias
    stands for the latest node with its anchor, and a plain scalar is resolved to a value. -/

namespace Letterpress
namespace Yaml

/-- The anchors of a document: the latest number of each name, and the nodes with a number that are
    complete. -/
structure Anchors where
  names : List (String × Nat) := []
  nodes : List (Nat × Yaml) := []
  count : Nat := 0

namespace Anchors

/-- Gives a name to a node that is about to be read, under a number of its own. -/
def declare (a : Anchors) (name : String) : Anchors × Nat :=
  ({ a with names := (name, a.count) :: a.names, count := a.count + 1 }, a.count)

/-- Completes the node with the number, if it has one. -/
def complete (a : Anchors) (number : Option Nat) (node : Yaml) : Anchors :=
  match number with
  | some n => { a with nodes := (n, node) :: a.nodes }
  | none => a

/-- The node that an alias stands for. It is invalid inside itself. -/
def find? (a : Anchors) (name : String) : Option Yaml :=
  (a.names.lookup name).map fun n => (a.nodes.lookup n).getD .invalid

end Anchors

/-- What is left to read, and what the handles of tags and the anchors stand for. -/
structure Reading where
  tokens : List Token
  handles : List (String × String) := []
  anchors : Anchors := {}

namespace Reading

/-- The next token. -/
def head? (r : Reading) : Option Token :=
  r.tokens.head?

/-- The reading behind the next token. -/
def next (r : Reading) : Reading :=
  { r with tokens := r.tokens.tail }

/-- The full name of a tag. A handle between two marks has to be declared. -/
def tagName? (r : Reading) (handle suffix : String) : Option (String × String) :=
  match r.handles.lookup handle with
  | some name => some (name, suffix)
  | none =>
    if handle = "!!" then some ("tag:yaml.org,2002:", suffix)
    else if 2 ≤ handle.length && handle.endsWith "!" then none
    else some (handle, suffix)

/-- What stands before a node: the number of its anchor and its tag. -/
structure Properties where
  anchor : Option Nat := none
  tag : Option (String × String) := none

/-- Reads an anchor. -/
def anchor (r : Reading) (p : Properties) : Reading × Properties :=
  match r.head? with
  | some (.anchor name _) =>
    let (anchors, number) := r.anchors.declare name
    ({ r.next with anchors }, { p with anchor := some number })
  | _ => (r, p)

/-- Reads a tag. -/
def tag (r : Reading) (p : Properties) : Option (Reading × Properties) :=
  match r.head? with
  | some (.tag handle suffix _) => (r.tagName? handle suffix).map fun tag => (r.next, { p with tag := some tag })
  | _ => some (r, p)

/-- Reads an anchor and a tag in any order. -/
def properties (r : Reading) : Option (Reading × Properties) :=
  match r.head? with
  | some (.tag ..) => (r.tag {}).map fun (r, p) => r.anchor p
  | _ =>
    let (r, p) := r.anchor {}
    r.tag p

/-- The value of a scalar. A tag of the core schema says what a plain one has to be. -/
def scalar (plain : Bool) (text : String) (tag : Option (String × String)) : Yaml :=
  if !plain then .text text
  else
    match tag with
    | some ("tag:yaml.org,2002:", type) => ofTagged type text
    | some _ => .text text
    | none => ofPlain text

/-- A node that was read, and what is left. -/
abbrev Read := Option (Yaml × Reading)

/-- The next token is one of those that come where a node is left out. -/
def isLeftOut (r : Reading) (ends : List Token) : Bool :=
  (r.head?.map ends.contains).getD false

mutual

/-- Reads a node. A block collection may only stand outside flow collections, and a sequence without
    indentation only in a mapping. -/
def node (block indentless : Bool) : Nat → Reading → Read
  | 0, _ => none
  | fuel + 1, r =>
    match r.head? with
    | some (.alias name) => (r.anchors.find? name).map (·, r.next)
    | _ => do
      let (r, p) ← r.properties
      let (value, r) ← content block indentless fuel p r
      some (value, { r with anchors := r.anchors.complete p.anchor value })

/-- Reads the content of a node with these properties. -/
def content (block indentless : Bool) : Nat → Properties → Reading → Read
  | 0, _, _ => none
  | fuel + 1, p, r =>
    match r.head? with
    | some (.scalar plain s) => some (scalar plain s p.tag, r.next)
    | some .flowSequence => (flowItems fuel true r.next).map fun (items, r) => (.sequence items, r)
    | some .flowMapping => (flowEntries fuel true r.next).map fun (nodes, r) => (ofPairs nodes, r)
    | some .item =>
      if indentless then (looseItems fuel r).map fun (items, r) => (.sequence items, r) else empty p r
    | some .blockSequence =>
      if block then (blockItems fuel r.next).map fun (items, r) => (.sequence items, r) else empty p r
    | some .blockMapping =>
      if block then (blockEntries fuel r.next).map fun (nodes, r) => (ofPairs nodes, r) else empty p r
    | _ => empty p r

/-- A node that only has properties. -/
def empty (p : Properties) (r : Reading) : Read :=
  if p.anchor.isSome || p.tag.isSome then some (scalar true "" p.tag, r) else none

/-- Reads a node unless it is left out before one of these tokens. -/
def optional (block indentless : Bool) (ends : List Token) : Nat → Reading → Read
  | 0, _ => none
  | fuel + 1, r => if r.isLeftOut ends then some (.null, r) else node block indentless fuel r

/-- Reads the items of a block sequence and its end. -/
def blockItems : Nat → Reading → Option (List Yaml × Reading)
  | 0, _ => none
  | fuel + 1, r =>
    match r.head? with
    | some .blockEnd => some ([], r.next)
    | some .item => do
      let (value, r) ← optional true false [.item, .blockEnd] fuel r.next
      let (items, r) ← blockItems fuel r
      some (value :: items, r)
    | _ => none

/-- Reads the items of a sequence that stands in the column of the mapping around it. -/
def looseItems : Nat → Reading → Option (List Yaml × Reading)
  | 0, _ => none
  | fuel + 1, r =>
    match r.head? with
    | some .item => do
      let (value, r) ← optional true false [.item, .key, .value, .blockEnd] fuel r.next
      let (items, r) ← looseItems fuel r
      some (value :: items, r)
    | _ => some ([], r)

/-- Reads the keys and values of a block mapping and its end. -/
def blockEntries : Nat → Reading → Option (List Yaml × Reading)
  | 0, _ => none
  | fuel + 1, r =>
    match r.head? with
    | some .blockEnd => some ([], r.next)
    | some .key => do
      let (key, r) ← optional true true [.key, .value, .blockEnd] fuel r.next
      let (value, r) ← blockValue fuel r
      let (nodes, r) ← blockEntries fuel r
      some (key :: value :: nodes, r)
    | some .value => do
      let (value, r) ← blockValue fuel r
      let (nodes, r) ← blockEntries fuel r
      some (.null :: value :: nodes, r)
    | _ => none

/-- Reads the value of an entry of a block mapping. -/
def blockValue : Nat → Reading → Read
  | 0, _ => none
  | fuel + 1, r =>
    match r.head? with
    | some .value => optional true true [.key, .value, .blockEnd] fuel r.next
    | _ => some (.null, r)

/-- Reads the items of a flow sequence and its end. -/
def flowItems : Nat → Bool → Reading → Option (List Yaml × Reading)
  | 0, _, _ => none
  | fuel + 1, first, r =>
    if r.head? = some .flowSequenceEnd then some ([], r.next)
    else if !first && r.head? ≠ some .comma then none
    else
      let r := if first then r else r.next
      match r.head? with
      | some .flowSequenceEnd => some ([], r.next)
      | some .key => do
        let (nodes, r) ← flowPair fuel r.next
        let (items, r) ← flowItems fuel false r
        some (ofPairs nodes :: items, r)
      | _ => do
        let (value, r) ← node false false fuel r
        let (items, r) ← flowItems fuel false r
        some (value :: items, r)

/-- Reads the key and the value of a mapping of one pair in a flow sequence. -/
def flowPair : Nat → Reading → Option (List Yaml × Reading)
  | 0, _ => none
  | fuel + 1, r => do
    let ends := [.value, .comma, .flowSequenceEnd]
    -- The token in place of the key is passed, whichever it is.
    let (key, r) ← if r.isLeftOut ends then some (.null, r.next) else node false false fuel r
    let (value, r) ←
      if r.head? = some .value then optional false false [.comma, .flowSequenceEnd] fuel r.next
      else some (.null, r)
    some ([key, value], r)

/-- Reads the keys and values of a flow mapping and its end. -/
def flowEntries : Nat → Bool → Reading → Option (List Yaml × Reading)
  | 0, _, _ => none
  | fuel + 1, first, r =>
    if r.head? = some .flowMappingEnd then some ([], r.next)
    else if !first && r.head? ≠ some .comma then none
    else
      let r := if first then r else r.next
      match r.head? with
      | some .flowMappingEnd => some ([], r.next)
      | some .key => do
        let (key, r) ← optional false false [.value, .comma, .flowMappingEnd] fuel r.next
        let (value, r) ← flowValue fuel r
        let (nodes, r) ← flowEntries fuel false r
        some (key :: value :: nodes, r)
      | some .value => do
        let (value, r) ← flowValue fuel r
        let (nodes, r) ← flowEntries fuel false r
        some (.null :: value :: nodes, r)
      | _ => do
        let (key, r) ← node false false fuel r
        let (nodes, r) ← flowEntries fuel false r
        some (key :: .null :: nodes, r)

/-- Reads the value of an entry of a flow mapping. -/
def flowValue : Nat → Reading → Read
  | 0, _ => none
  | fuel + 1, r =>
    match r.head? with
    | some .value => optional false false [.comma, .flowMappingEnd] fuel r.next
    | _ => some (.null, r)

end

/-- Reads the directives before a document. A handle may only be declared once. -/
def directives : List Token → Bool → List (String × String) → Option (List (String × String) × List Token)
  | .version :: rest, versioned, handles => if versioned then none else directives rest true handles
  | .tagDirective handle name :: rest, versioned, handles =>
    if (handles.lookup handle).isSome then none else directives rest versioned ((handle, name) :: handles)
  | rest, _, handles => some (handles, rest)

/-- Reads the node of a document behind the line that starts it. -/
def documentNode (fuel : Nat) (r : Reading) : Read :=
  match r.head? with
  | none | some .version | some (.tagDirective ..) | some .documentStart | some .documentEnd => some (.null, r)
  | _ => node true false fuel r

/-- Reads the documents. The first one, and one behind the end of another, need no line to start it. -/
def documents (fuel : Nat) : Nat → Bool → List Token → Option (List Yaml)
  | 0, _, _ => none
  | count + 1, implicit, tokens => do
    let tokens := tokens.dropWhile (· == .documentEnd)
    if tokens.isEmpty then some []
    else
      let (handles, rest) ← directives tokens false []
      let (value, r) ← match rest with
        | .documentStart :: rest => documentNode fuel { tokens := rest, handles }
        -- Behind directives the document needs the line that starts it.
        | rest => if implicit && rest.length = tokens.length then node true false fuel { tokens } else none
      let values ← match r.head? with
        | some .documentEnd => documents fuel count true r.next.tokens
        | some .version | some (.tagDirective ..) => none
        | _ => documents fuel count false r.tokens
      some (value :: values)

end Reading

/-- The documents of a text, unless it is malformed. -/
def documents? (text : String) : Option (List Yaml) := do
  let tokens ← Token.scan? text
  Reading.documents (4 * tokens.length + 8) (tokens.length + 1) true tokens

end Yaml
end Letterpress
