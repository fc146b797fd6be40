import Stencil.Text.Class

/-!
# How numbers are read

The digits may be those of any script, and single underscores may stand between them.  An integer
is a sign, if any, and digits (`readInteger?`).  A float may have a point and an exponent, or be
one of the words for infinity and for no number (`readFloat?`).
-/

namespace Stencil

/-- The most digits that an integer may have where it is read or written. -/
def maxDigits : Nat := 4300

/-- Takes a sign off the head of a text; `true` is minus. -/
def signed : Text → Bool × Text
  | '-' :: t => (true, t)
  | '+' :: t => (false, t)
  | t => (false, t)

/-- The digits of a run in which underscores stand singly between digits. -/
def groupedDigits? (t : Text) : Option Text :=
  let groups := t.splitOn '_'
  if groups.all Text.isNumeral then some groups.flatten else none

/-- The integer that a text writes, if it is one with no more than `maxDigits` digits. -/
def readInteger? (t : Text) : Option Int :=
  let (negative, body) := signed t
  match groupedDigits? body with
  | none => none
  | some digits =>
    if digits.length ≤ maxDigits then
      let n : Int := Text.numeralValue digits
      some (if negative then -n else n)
    else none

/-- The digits of a run that may also be missing. -/
def optionalDigits? (t : Text) : Option Text :=
  if t.isEmpty then some [] else groupedDigits? t

/-- Cuts a text at the first character with a property, which belongs to neither part. -/
def cutAt (p : Char → Bool) (t : Text) : Text × Option Text :=
  (t.takeWhile (!p ·), (t.dropWhile (!p ·)).tail?)

/-- The exponent that is written behind its mark; zero where there is none. -/
def readExponent? : Option Text → Option Int
  | none => some 0
  | some t =>
    let (negative, body) := signed t
    (groupedDigits? body).map fun digits =>
      let n : Int := Text.numeralValue digits
      if negative then -n else n

/-- The float nearest to `digits * 10 ^ exponent`.  Far outside the range of floats the answer
needs no arithmetic. -/
def nearestFloat (digits : Nat) (exponent : Int) : Float :=
  let size : Int := (Nat.toDigits 10 digits).length + exponent
  if digits = 0 ∨ size < -400 then 0.0
  else if size > 400 then 1.0 / 0.0
  else Float.ofScientific digits (exponent < 0) exponent.natAbs

/-- The value of a float without its sign. -/
def readMagnitude? (t : Text) : Option Float :=
  let word := t.map Char.toLower
  if word = "inf".toList ∨ word = "infinity".toList then some (1.0 / 0.0)
  else if word = "nan".toList then some (0.0 / 0.0)
  else do
    let (mantissa, exponent) := cutAt (fun c => c == 'e' || c == 'E') t
    let (whole, fraction) := cutAt (· == '.') mantissa
    let whole ← optionalDigits? whole
    let fraction ← optionalDigits? (fraction.getD [])
    let exponent ← readExponent? exponent
    if whole.isEmpty && fraction.isEmpty then none
    else some (nearestFloat (Text.numeralValue (whole ++ fraction)) (exponent - fraction.length))

/-- The float that a text writes, if it writes one. -/
def readFloat? (t : Text) : Option Float :=
  let (negative, body) := signed t
  (readMagnitude? body).map fun x => if negative then -x else x

end Stencil
