import Stencil.Text.Basic
import Stencil.Text.PrintableTable

/-!
# Quoted texts

How a text or a string of bytes is shown inside a message: between quotes, on one line, with
nothing that a reader could miss.  The quotes are single ones, unless the content holds a single
quote and no double one.
-/

namespace Stencil

def isPrintable (c : Char) : Bool :=
  Text.within c printableRanges

/-- The number in lower-case hexadecimal digits, padded to a width. -/
def hexDigits (width n : Nat) : Text :=
  (Nat.toDigits 16 n).leftpad width '0'

/-- The quote for a content: single, unless only the double one is free. -/
def quoteFor (t : Text) : Char :=
  if t.contains '\'' && !t.contains '"' then '"' else '\''

/-- A character inside `quote`s.  What has no short form is written by its code: two digits where
they are enough, else four, else eight. -/
def quotedChar (quote : Char) (c : Char) : Text :=
  if c = quote || c = '\\' then ['\\', c]
  else if c = '\t' then ['\\', 't']
  else if c = '\n' then ['\\', 'n']
  else if c = '\r' then ['\\', 'r']
  else if isPrintable c then [c]
  else if c.toNat < 0x100 then '\\' :: 'x' :: hexDigits 2 c.toNat
  else if c.toNat < 0x10000 then '\\' :: 'u' :: hexDigits 4 c.toNat
  else '\\' :: 'U' :: hexDigits 8 c.toNat

/-- The text between quotes. -/
def quoted (t : Text) : Text :=
  let quote := quoteFor t
  quote :: t.flatMap (quotedChar quote) ++ [quote]

/-- A byte inside quotes: as its character where it is a visible ASCII one, else by its code. -/
def quotedByte (quote : Char) (b : UInt8) : Text :=
  if b.toNat < 0x80 then quotedChar quote (Char.ofNat b.toNat)
  else '\\' :: 'x' :: hexDigits 2 b.toNat

/-- Bytes between quotes, marked by a leading `b`. -/
def quotedBytes (bytes : List UInt8) : Text :=
  let quote := quoteFor (bytes.map fun b => Char.ofNat b.toNat)
  'b' :: quote :: bytes.flatMap (quotedByte quote) ++ [quote]

end Stencil
