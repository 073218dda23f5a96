import Letterpress.Decimal.Number

/-! Values of a YAML document. A plain scalar is null, a truth value or a number if it is spelled as one,
    and text otherwise; a quoted scalar is always text. -/

namespace Letterpress

/-- A value of a document. A scalar whose tag contradicts its text is invalid. -/
inductive Yaml where
  | null
  | boolean (value : Bool)
  | integer (value : Int)
  | real (text : String)
  | text (content : String)
  | sequence (items : List Yaml)
  | mapping (entries : List (Yaml × Yaml))
  | invalid
  deriving Repr

namespace Yaml

/-- The whole number of 64 bits that digits of the base write behind an optional sign. -/
def radixInteger? (base : Nat) (cs : List Char) : Option Int :=
  let digit? (c : Char) : Option Nat :=
    let value :=
      if c.isDigit then some (c.toNat - '0'.toNat)
      else if c.toLower.isAlpha then some (c.toLower.toNat - 'a'.toNat + 10)
      else none
    value.filter (· < base)
  match Decimal.signed cs with
  | (negative, digits) =>
    if digits.isEmpty then none
    else
      let magnitude := digits.foldlM (fun n c => (digit? c).map (base * n + ·)) 0
      (magnitude.map fun n => if negative then -(n : Int) else n).filter Decimal.fitsInt64

/-- The whole number that a plain scalar writes in decimal digits, or with the marks of its base. -/
def integer? (s : String) : Option Int :=
  let marked :=
    match s.toList with
    | '0' :: 'x' :: cs => radixInteger? 16 cs
    | '0' :: 'o' :: cs => radixInteger? 8 cs
    | '+' :: cs => radixInteger? 10 cs
    | _ => none
  marked <|> Decimal.readInt64? s

/-- The spellings of infinity and of what is not a number. -/
def specialReals : List String :=
  [".inf", ".Inf", ".INF", "+.inf", "+.Inf", "+.INF", "-.inf", "-.Inf", "-.INF", ".nan", ".NaN", ".NAN"]

/-- A plain scalar that writes a number with a fraction or an exponent. -/
def isReal (s : String) : Bool :=
  specialReals.contains s || s.toList.any Char.isDigit && (Decimal.read? s).isSome

/-- The value of a plain scalar. -/
def ofPlain (s : String) : Yaml :=
  match integer? s with
  | some n => .integer n
  | none =>
    if s = "" ∨ s = "~" ∨ s = "null" then .null
    else if s = "true" then .boolean true
    else if s = "false" then .boolean false
    else if isReal s then .real s
    else .text s

/-- The value of a plain scalar with a tag of the core schema. -/
def ofTagged (type s : String) : Yaml :=
  match type with
  | "bool" => if s = "true" then .boolean true else if s = "false" then .boolean false else .invalid
  | "int" => ((Decimal.readInt64? s).map integer).getD .invalid
  | "float" => if isReal s then .real s else .invalid
  | "null" => if s = "~" ∨ s = "null" then .null else .invalid
  | _ => .text s

mutual

/-- The two values are the same. -/
def same : Yaml → Yaml → Bool
  | null, null => true
  | boolean a, boolean b => a == b
  | integer a, integer b => a == b
  | real a, real b => a == b
  | text a, text b => a == b
  | sequence as, sequence bs => sameItems as bs
  | mapping as, mapping bs => sameEntries as bs
  | invalid, invalid => true
  | _, _ => false

/-- The two sequences have the same items in order. -/
def sameItems : List Yaml → List Yaml → Bool
  | [], [] => true
  | a :: as, b :: bs => same a b && sameItems as bs
  | _, _ => false

/-- The two mappings have the same entries in order. -/
def sameEntries : List (Yaml × Yaml) → List (Yaml × Yaml) → Bool
  | [], [] => true
  | (a, x) :: as, (b, y) :: bs => same a b && same x y && sameEntries as bs
  | _, _ => false

end

/-- The entries with one more at the end, in place of the one with its key. -/
def putEntry (key value : Yaml) (entries : List (Yaml × Yaml)) : List (Yaml × Yaml) :=
  entries.filter (fun entry => !same entry.1 key) ++ [(key, value)]

/-- The entries that keys and values in turn make. An invalid value cannot be a key: the next one is. -/
def entriesOf : List (Yaml × Yaml) → List Yaml → List (Yaml × Yaml)
  | entries, invalid :: rest => entriesOf entries rest
  | entries, key :: value :: rest => entriesOf (putEntry key value entries) rest
  | entries, _ => entries

/-- The mapping that keys and values in turn make. -/
def ofPairs (nodes : List Yaml) : Yaml :=
  .mapping (entriesOf [] nodes)

/-- The content of a text. -/
def text? : Yaml → Option String
  | text content => some content
  | _ => none

end Yaml
end Letterpress
