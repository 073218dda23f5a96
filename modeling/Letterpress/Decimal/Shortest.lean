/-! The shortest decimal that reads back as a binary fraction. Of the decimals among the reals that round
    to the fraction it has the fewest digits, and of those it is the nearest; of two equally near ones
    it is the greater. All comparisons are exact, in natural numbers. -/

namespace Letterpress
namespace Decimal

/-- A finite value that is not negative, `m * 2 ^ q`. The gap to the value below it is narrow when it is
    half the gap to the value above. -/
structure Binary where
  m : Nat
  q : Int
  narrowBelow : Bool
  deriving Repr, DecidableEq

/-- The magnitude that the bits of a finite number stand for. -/
def Binary.ofBits (bits : UInt64) : Binary :=
  let exponent := ((bits >>> 52) &&& 0x7FF).toNat
  let fraction := (bits &&& 0xFFFFFFFFFFFFF).toNat
  if exponent = 0 then ⟨fraction, -1074, false⟩
  else ⟨0x10000000000000 + fraction, (exponent : Int) - 1075, fraction == 0 && exponent > 1⟩

/-- The decimal `digits * 10 ^ exp`. -/
structure Scaled where
  digits : Nat
  exp : Int
  deriving Repr, DecidableEq

/-- Compares `d` with `n * 2 ^ j`. -/
def Scaled.compareBinary (d : Scaled) (n : Nat) (j : Int) : Ordering :=
  compare (d.digits * Nat.pow 10 d.exp.toNat * Nat.pow 2 (-j).toNat)
    (n * Nat.pow 2 j.toNat * Nat.pow 10 (-d.exp).toNat)

namespace Binary

/-- The decimal lies among the reals that round to the value; the ends of that interval belong to it
    when `m` is even. -/
def readsBack (x : Binary) (d : Scaled) : Bool :=
  let low := if x.narrowBelow then 4 * x.m - 1 else 4 * x.m - 2
  let ends := x.m % 2 == 0
  let below := d.compareBinary low (x.q - 2)
  let above := d.compareBinary (4 * x.m + 2) (x.q - 2)
  (below == .gt || (ends && below == .eq)) && (above == .lt || (ends && above == .eq))

/-- The greatest multiple of `10 ^ exp` that is not above the value. -/
def floorOn (x : Binary) (exp : Int) : Scaled :=
  ⟨x.m * Nat.pow 2 x.q.toNat * Nat.pow 10 (-exp).toNat /
    (Nat.pow 2 (-x.q).toNat * Nat.pow 10 exp.toNat), exp⟩

/-- The decimal of the grid `10 ^ exp` that reads back as the value: the nearer of its two neighbours
    there, the greater if both are equally near. -/
def onGrid? (x : Binary) (exp : Int) : Option Scaled :=
  let low := x.floorOn exp
  let high : Scaled := ⟨low.digits + 1, exp⟩
  let middle : Scaled := ⟨2 * low.digits + 1, exp⟩
  match x.readsBack low, x.readsBack high with
  | true, true => if middle.compareBinary (2 * x.m) x.q == .gt then some low else some high
  | true, false => some low
  | false, true => some high
  | false, false => none

/-- The value itself as a decimal. -/
def exact (x : Binary) : Scaled :=
  if 0 ≤ x.q then ⟨x.m * Nat.pow 2 x.q.toNat, 0⟩ else ⟨x.m * Nat.pow 5 (-x.q).toNat, x.q⟩

/-- An exponent whose power of ten is above the value. -/
def scale (x : Binary) : Int :=
  ((x.m.log2 + 1 : Int) + x.q) * 30103 / 100000 + 2

/-- The shortest decimal that reads back as the value: the first hit on ever finer grids. -/
def shortest (x : Binary) : Scaled :=
  ((List.range 24).findSome? fun (n : Nat) => x.onGrid? (x.scale - (n : Int))).getD x.exact

end Binary
end Decimal
end Letterpress
