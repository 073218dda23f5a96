import Letterpress.Markup.Node

/-! What a reader meets in a document, tag by tag: tags, text, comments, instructions, a document type.
    Names are split at their colon, references in text and attribute values are resolved, and nothing is
    known yet of which tags belong together. -/

namespace Letterpress
namespace Markup

/-- A name with the prefix before its colon. -/
structure QName where
  qualifier : Option String
  name : String
  deriving Repr, DecidableEq

/-- An attribute of this name declares a namespace. -/
def QName.declaresNamespace (q : QName) : Bool :=
  q.qualifier == some "xmlns" || q.qualifier == none && q.name == "xmlns"

/-- A piece of a document. Text is bare when no reference stands in it. -/
inductive Event where
  | opening (tag : QName) (attributes : List (QName × String)) (closed : Bool)
  | closing (tag : QName)
  | text (content : String) (bare : Bool)
  | cdata (content : String)
  | comment (content : String)
  | instruction (target : String) (data : Option String)
  | doctype
  deriving Repr, DecidableEq

/-- The character may stand in a document. -/
def isDocumentChar (c : Char) : Bool :=
  let n := c.toNat
  n == 0x9 || n == 0xA || n == 0xD || (0x20 ≤ n && n ≤ 0xD7FF) || (0xE000 ≤ n && n ≤ 0xFFFD) ||
    0x10000 ≤ n

/-- The character separates the parts of a tag. -/
def isSpace (c : Char) : Bool :=
  c == ' ' || c == '\t' || c == '\n' || c == '\r'

/-- The characters other than the colon that can begin a name. -/
def isNameStart (c : Char) : Bool :=
  let n := c.toNat
  c.isAlpha || c == '_' || (0xC0 ≤ n && n ≤ 0xD6) || (0xD8 ≤ n && n ≤ 0xF6) ||
    (0xF8 ≤ n && n ≤ 0x2FF) || (0x370 ≤ n && n ≤ 0x37D) || (0x37F ≤ n && n ≤ 0x1FFF) ||
    (0x200C ≤ n && n ≤ 0x200D) || (0x2070 ≤ n && n ≤ 0x218F) || (0x2C00 ≤ n && n ≤ 0x2FEF) ||
    (0x3001 ≤ n && n ≤ 0xD7FF) || (0xF900 ≤ n && n ≤ 0xFDCF) || (0xFDF0 ≤ n && n ≤ 0xFFFD) ||
    (0x10000 ≤ n && n ≤ 0xEFFFF)

/-- The characters other than the colon that can continue a name. -/
def isNameChar (c : Char) : Bool :=
  let n := c.toNat
  isNameStart c || c.isDigit || c == '-' || c == '.' || n == 0xB7 || (0x300 ≤ n && n ≤ 0x36F) ||
    (0x203F ≤ n && n ≤ 0x2040)

/-- The name made of these characters: one or two parts, none of them empty, around a colon. -/
def QName.ofChars? (cs : List Char) : Option QName :=
  match Text.splitChars (· == ':') cs with
  | [name] => if name.isEmpty then none else some ⟨none, String.ofList name⟩
  | [qualifier, name] =>
    if qualifier.isEmpty || name.isEmpty then none
    else some ⟨some (String.ofList qualifier), String.ofList name⟩
  | _ => none

/-- The value of a digit in the base, which is at most sixteen. -/
def digitValue? (base : Nat) (c : Char) : Option Nat :=
  let value :=
    if c.isDigit then some (c.toNat - '0'.toNat)
    else if 'a' ≤ c ∧ c ≤ 'f' then some (c.toNat - 'a'.toNat + 10)
    else if 'A' ≤ c ∧ c ≤ 'F' then some (c.toNat - 'A'.toNat + 10)
    else none
  value.filter (· < base)

/-- The number that the digits write in the base; there has to be one. -/
def number? (base : Nat) (digits : List Char) : Option Nat :=
  if digits.isEmpty then none
  else digits.foldlM (fun n c => (digitValue? base c).map (base * n + ·)) 0

/-- The document character with this number. -/
def charOfNumber? (n : Nat) : Option Char :=
  if n.isValidChar then some (Char.ofNat n) |>.filter isDocumentChar else none

/-- The character that a reference of this name stands for. -/
def reference? (name : String) : Option Char :=
  match name.toList with
  | '#' :: 'x' :: digits => number? 16 digits >>= charOfNumber?
  | '#' :: digits => number? 10 digits >>= charOfNumber?
  | _ =>
    match name with
    | "lt" => some '<'
    | "gt" => some '>'
    | "amp" => some '&'
    | "apos" => some '\''
    | "quot" => some '"'
    | _ => none

end Markup
end Letterpress
