import Stencil.Number.Numeral
import Stencil.Number.Written
import Stencil.Text.Quoted

/-!
# Values

The data that fills a template: plain values, sequences and mappings, and values that cannot be
written at all.  `truthy` says what counts as true in a condition, and `display` is the text that
stands in the output for a value.

What can go wrong while values are looked up and written is a `Failure`, by cause.  A template is
never at fault: whatever it says has a meaning.

Left out are failures of the machine.  Values may be nested as deep as one likes, and the stack that
it takes to write them is never used up; nor is memory.  A character is a Unicode scalar value, so no
text holds half of a surrogate pair.
-/

namespace Stencil

/-! ## Failures -/

/-- Why a value could not be looked up or written. -/
inductive Failure where
  /-- A value refuses to be written as text, and says why. -/
  | unwritable (reason : Text)
  /-- An integer has more than `maxDigits` digits and cannot be written. -/
  | integerTooLong
  /-- A path indexes a sequence by a numeral of this many digits, more than `maxDigits`. -/
  | indexTooLong (digits : Nat)
  /-- A filter gave up, and says why. -/
  | filterFailed (reason : Text)
  deriving DecidableEq

/-- The wording of a failure. -/
def Failure.message : Failure → Text
  | unwritable reason => reason
  | integerTooLong =>
    "Exceeds the limit (".toList ++ Nat.toDigits 10 maxDigits
      ++ " digits) for integer string conversion; ".toList ++ advice
  | indexTooLong digits =>
    "Exceeds the limit (".toList ++ Nat.toDigits 10 maxDigits
      ++ " digits) for integer string conversion: value has ".toList ++ Nat.toDigits 10 digits
      ++ " digits; ".toList ++ advice
  | filterFailed reason => reason
where
  /-- What both texts about long integers end with. -/
  advice : Text := "use sys.set_int_max_str_digits() to increase the limit".toList

/-! ## Values -/

/-- A key of a mapping.  A path names only the keys that are texts. -/
inductive Key where
  | text (t : Text)
  | int (n : Int)
  | float (x : Float)
  | bool (b : Bool)
  | null

/-- The two kinds of sequence behave alike. -/
inductive SequenceKind where
  | list
  | tuple
  deriving DecidableEq

/-- A value.  The entries of a mapping are in the order in which they were made. -/
inductive Value where
  | null
  | bool (b : Bool)
  | int (n : Int)
  | float (x : Float)
  | text (t : Text)
  | bytes (bytes : List UInt8)
  | sequence (kind : SequenceKind) (items : List Value)
  | mapping (entries : List (Key × Value))
  /-- Something that cannot be written as text, for the reason that it gives. -/
  | broken (reason : Text)

/-- What stands between two items of a sequence or two entries of a mapping. -/
def itemSeparator : Text := [',', ' ']

/-- An integer as text, unless it is too long. -/
def displayInteger (n : Int) : Except Failure Text :=
  if (Nat.toDigits 10 n.natAbs).length ≤ maxDigits then .ok (integerText n)
  else .error .integerTooLong

/-- The text of a key.  Keys that are no texts are capitalised, unlike values. -/
def Key.display : Key → Except Failure Text
  | text t => .ok t
  | int n => displayInteger n
  | float x => .ok (floatText x)
  | bool b => .ok (if b then "True".toList else "False".toList)
  | null => .ok "None".toList

namespace Value

/-- Texts and bytes are no sequences. -/
def isSequence : Value → Bool
  | sequence .. => true
  | _ => false

/-- What counts as true: all but null, false, zero, and what is empty. -/
def truthy : Value → Bool
  | null => false
  | bool b => b
  | int n => n != 0
  | float x => x != 0.0
  | text t => !t.isEmpty
  | bytes bs => !bs.isEmpty
  | sequence _ items => !items.isEmpty
  | mapping entries => !entries.isEmpty
  | broken _ => true

mutual

/-- The text of a value: nothing for null, the items of a sequence with commas between them, the
entries of a mapping likewise.  The first part that cannot be written decides the failure. -/
def display : Value → Except Failure Text
  | null => .ok []
  | bool b => .ok (if b then "true".toList else "false".toList)
  | int n => displayInteger n
  | float x => .ok (floatText x)
  | text t => .ok t
  | bytes bs => .ok (quotedBytes bs)
  | sequence _ items => do return itemSeparator.intercalate (← displayItems items)
  | mapping entries => do return itemSeparator.intercalate (← displayEntries entries)
  | broken reason => .error (.unwritable reason)

/-- The text of each item. -/
def displayItems : List Value → Except Failure (List Text)
  | [] => .ok []
  | v :: vs => do
    let t ← display v
    return t :: (← displayItems vs)

/-- The text of each entry, its key first. -/
def displayEntries : List (Key × Value) → Except Failure (List Text)
  | [] => .ok []
  | (k, v) :: es => do
    let name ← k.display
    let t ← display v
    return (name ++ ':' :: ' ' :: t) :: (← displayEntries es)

end

end Value

end Stencil
