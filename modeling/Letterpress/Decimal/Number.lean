import Letterpress.Decimal.Shortest

/-! Numbers as text. A number is written in full, without an exponent, with the fewest digits that read
    back as it. It is read from decimal digits with an optional sign, point and exponent, or from a name
    of infinity or of what is not a number, in any case of its letters. -/

namespace Letterpress
namespace Decimal

/-- The digits of a natural number. -/
def digitChars (n : Nat) : List Char :=
  Nat.toDigits 10 n

/-- The decimal written without an exponent. -/
def Scaled.positional (d : Scaled) : List Char :=
  let digits := digitChars d.digits
  if 0 ≤ d.exp then digits ++ List.replicate d.exp.toNat '0'
  else
    let places := (-d.exp).toNat
    let padded := List.replicate (places + 1 - digits.length) '0' ++ digits
    padded.take (padded.length - places) ++ '.' :: padded.drop (padded.length - places)

/-- The decimal with its trailing zeros moved into the exponent, which is at most `limit` of them. -/
def Scaled.strip : Nat → Scaled → Scaled
  | 0, d => d
  | limit + 1, d =>
    if d.digits ≠ 0 ∧ d.digits % 10 = 0 then Scaled.strip limit ⟨d.digits / 10, d.exp + 1⟩ else d

/-- The digits of a magnitude: the shortest that read back as it. -/
def magnitude (bits : UInt64) : List Char :=
  let x := Binary.ofBits bits
  if x.m = 0 then ['0'] else (Scaled.strip 20 x.shortest).positional

/-- The text of a number. -/
def render (x : Float) : String :=
  if x.isNaN then "NaN"
  else
    let bits := x.toBits
    let digits := if x.isInf then "inf".toList else magnitude bits
    String.ofList (if bits >>> 63 = 1 then '-' :: digits else digits)

/-- What a text says of a number, apart from its sign. -/
inductive Magnitude where
  | finite (value : Scaled)
  | infinity
  | notANumber
  deriving Repr, DecidableEq

/-- The number that decimal digits write. -/
def ofDigits (cs : List Char) : Nat :=
  cs.foldl (fun n c => 10 * n + (c.toNat - '0'.toNat)) 0

/-- The characters are decimal digits and there is at least one. -/
def areDigits (cs : List Char) : Bool :=
  !cs.isEmpty && cs.all Char.isDigit

/-- The text without its sign, and whether that was a minus. -/
def signed : List Char → Bool × List Char
  | '-' :: cs => (true, cs)
  | '+' :: cs => (false, cs)
  | cs => (false, cs)

/-- The exponent at the end of a number: nothing, or a letter E and a whole number. -/
def exponent? : List Char → Option Int
  | [] => some 0
  | c :: cs =>
    if c = 'e' ∨ c = 'E' then
      match signed cs with
      | (negative, digits) =>
        if areDigits digits then some (if negative then -(ofDigits digits : Int) else ofDigits digits)
        else none
    else none

/-- The digits behind the point, if there is one, and what follows them. -/
def fraction : List Char → List Char × List Char
  | '.' :: cs => cs.span Char.isDigit
  | cs => ([], cs)

/-- The magnitude that the characters write. -/
def magnitude? (cs : List Char) : Option Magnitude :=
  let (whole, rest) := cs.span Char.isDigit
  let (places, rest) := fraction rest
  if whole.isEmpty && places.isEmpty then
    match String.ofList (cs.map Char.toLower) with
    | "inf" | "infinity" => some .infinity
    | "nan" => some .notANumber
    | _ => none
  else (exponent? rest).map fun e => .finite ⟨ofDigits (whole ++ places), e - places.length⟩

/-- The number nearest to a decimal. Far outside the range of numbers it is infinity or zero. -/
def Scaled.toFloat (d : Scaled) : Float :=
  let size := ((digitChars d.digits).length : Int) + d.exp
  if d.digits = 0 ∨ size < -340 then 0
  else if 320 < size then 1 / 0
  else Float.ofScientific d.digits (d.exp < 0) d.exp.natAbs

/-- The number that a magnitude stands for. -/
def Magnitude.toFloat : Magnitude → Float
  | .finite d => d.toFloat
  | .infinity => 1 / 0
  | .notANumber => 0 / 0

/-- The number that the text writes, if it writes one. -/
def read? (text : String) : Option Float :=
  match signed text.toList with
  | (negative, cs) => (magnitude? cs).map fun m => if negative then -m.toFloat else m.toFloat

/-- The whole number that the text writes, if it writes one: digits behind an optional sign. -/
def readInt? (text : String) : Option Int :=
  match signed text.toList with
  | (negative, cs) =>
    if areDigits cs then some (if negative then -(ofDigits cs : Int) else ofDigits cs) else none

/-- The whole number has a place among those of 64 bits with a sign. -/
def fitsInt64 (n : Int) : Bool :=
  -0x8000000000000000 ≤ n && n < 0x8000000000000000

/-- The whole number of 64 bits that the text writes, if it writes one. -/
def readInt64? (text : String) : Option Int :=
  (readInt? text).filter fitsInt64

/-- What is left of `a` after taking off `b` as often as it fits, with the sign of `a`. -/
def remainder (a b : Float) : Float :=
  if a.isNaN || b.isNaN || a.isInf || b == 0 then 0 / 0
  else if b.isInf || a == 0 then a
  else
    let x := Binary.ofBits a.toBits
    let y := Binary.ofBits b.toBits
    let q := min x.q y.q
    let rest := x.m * Nat.pow 2 (x.q - q).toNat % (y.m * Nat.pow 2 (y.q - q).toNat)
    let magnitude := (Float.ofNat rest).scaleB q
    if a.toBits >>> 63 = 1 then -magnitude else magnitude

end Decimal
end Letterpress
