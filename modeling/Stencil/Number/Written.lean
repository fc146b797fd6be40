import Stencil.Text.Basic

/-!
# How numbers are written

Integers are written in decimal.  Floats are written with the fewest digits that identify them,
with a point and at least one digit on each side of it from `0.0001` up to below `10 ^ 16`, and
otherwise with an exponent of at least two digits.

A finite binary number stands for all reals that round to it.  `shortestDigits` finds the decimal
with the fewest digits among them, and of those the nearest to the number itself; a number half
way between two goes to the even one.  Everything is decided in exact integer arithmetic.
-/

namespace Stencil

/-! ## The fewest digits that identify a number -/

/-- The positive number `m * 2 ^ q`; `narrow` says that the gap to the number below it is half
the gap to the number above. -/
structure Binary where
  m : Nat
  q : Int
  narrow : Bool

/-- A finite positive float from its bits. -/
def Binary.ofBits (bits : UInt64) : Binary :=
  let exponent := (bits >>> 52 &&& 0x7FF).toNat
  let fraction := (bits &&& 0xFFFFFFFFFFFFF).toNat
  if exponent = 0 then ⟨fraction, -1074, false⟩
  else ⟨Nat.pow 2 52 + fraction, exponent - 1075, fraction = 0 && exponent > 1⟩

/-- The digits of a decimal, without zeros at its end, and how many of them stand before the
point; below zero, how many zeros stand behind it first. -/
structure Decimal where
  digits : List Char
  point : Int

/-- The decimal `d * 10 ^ e`. -/
def Decimal.ofScaled (d : Nat) (e : Int) : Decimal :=
  let digits := Nat.toDigits 10 d
  ⟨(digits.reverse.dropWhile (· == '0')).reverse, digits.length + e⟩

namespace Binary

/-- The least `k` with the number below `10 ^ k`. -/
def magnitude (x : Binary) : Int :=
  let num := x.m * Nat.pow 2 x.q.toNat
  let den := Nat.pow 2 (-x.q).toNat
  if den ≤ num then (Nat.toDigits 10 (num / den)).length
  else 1 - ((Nat.toDigits 10 ((den - 1) / num)).length : Int)

/-- A quarter of the unit `2 ^ q` as a quotient, counted in steps of `10 ^ e`. -/
def quarter (x : Binary) (e : Int) : Nat × Nat :=
  (Nat.pow 2 (x.q - 2).toNat * Nat.pow 10 (-e).toNat,
    Nat.pow 2 (2 - x.q).toNat * Nat.pow 10 e.toNat)

/-- Whether `d * 10 ^ e` rounds to the number: it lies between the midpoints to both neighbours,
which belong to the number when `m` is even. -/
def readsBack (x : Binary) (e : Int) (d : Nat) : Bool :=
  let (num, den) := x.quarter e
  let low := (4 * x.m - if x.narrow then 1 else 2) * num
  let high := (4 * x.m + 2) * num
  if x.m % 2 = 0 then low ≤ d * den && d * den ≤ high else low < d * den && d * den < high

/-- The neighbour of the number among the multiples of `10 ^ e` that rounds to it, if one does;
the nearer one of two, and the even one of two as near. -/
def onGrid? (x : Binary) (e : Int) : Option Nat :=
  let (num, den) := x.quarter e
  let below := 4 * x.m * num / den
  match x.readsBack e below, x.readsBack e (below + 1) with
  | false, false => none
  | true, false => some below
  | false, true => some (below + 1)
  | true, true =>
    match compare (8 * x.m * num) ((2 * below + 1) * den) with
    | .lt => some below
    | .gt => some (below + 1)
    | .eq => some (if below % 2 = 0 then below else below + 1)

/-- The number itself, with all its digits. -/
def exact (x : Binary) : Decimal :=
  Decimal.ofScaled (x.m * Nat.pow 2 x.q.toNat * Nat.pow 5 (-x.q).toNat) (-((-x.q).toNat : Int))

/-- The shortest decimal that rounds to the number.  Seventeen digits are always enough, so that
the exact one is never needed. -/
def shortestDigits (x : Binary) : Decimal :=
  let k := x.magnitude
  let found := (List.range 17).findSome? fun n =>
    let e := k - (n + 1 : Nat)
    (x.onGrid? e).map fun d => Decimal.ofScaled d e
  found.getD x.exact

end Binary

/-! ## The text of a number -/

/-- An integer in decimal, with a sign only if it is negative. -/
def integerText (n : Int) : Text :=
  if n < 0 then '-' :: Nat.toDigits 10 n.natAbs else Nat.toDigits 10 n.natAbs

namespace Decimal

/-- With the point at its place among the digits. -/
def positional (d : Decimal) : Text :=
  if d.point ≤ 0 then '0' :: '.' :: List.replicate (-d.point).toNat '0' ++ d.digits
  else
    let whole := d.digits.take d.point.toNat
    let fraction := d.digits.drop d.point.toNat
    whole.rightpad d.point.toNat '0' ++ '.' :: (if fraction.isEmpty then ['0'] else fraction)

/-- With one digit before the point, which is left out where nothing follows it, and an exponent. -/
def scientific (d : Decimal) : Text :=
  let exponent := d.point - 1
  let mark := if exponent < 0 then '-' else '+'
  d.digits.take 1 ++ (if d.digits.length ≤ 1 then [] else '.' :: d.digits.drop 1)
    ++ 'e' :: mark :: (Nat.toDigits 10 exponent.natAbs).leftpad 2 '0'

def written (d : Decimal) : Text :=
  if -4 < d.point ∧ d.point ≤ 16 then d.positional else d.scientific

end Decimal

/-- A float; the sign of zero is shown. -/
def floatText (x : Float) : Text :=
  if x.isNaN then "nan".toList
  else
    let bits := x.toBits
    let size := bits &&& 0x7FFFFFFFFFFFFFFF
    let text :=
      if x.isInf then "inf".toList
      else if size = 0 then "0.0".toList
      else (Binary.ofBits size).shortestDigits.written
    if size = bits then text else '-' :: text

end Stencil
