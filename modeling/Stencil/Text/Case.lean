import Stencil.Text.Basic
import Stencil.Text.CaseTable

/-!
# Letter case

`upper` and `lower` map a whole text, for one character may become two or three, and the lower
case of a capital sigma hangs on its neighbours: at the end of a word it takes its final form.
`capitalize` raises the first character and lowers the rest.
-/

namespace Stencil

/-- Moves a character by the run that holds it, if one does. -/
def shiftBy (c : Char) : List CaseRun → Char
  | [] => c
  | r :: rs =>
    if c.toNat < r.first then c
    else if c.toNat ≤ r.last ∧ (c.toNat - r.first) % r.step = 0 then
      Char.ofNat (c.toNat + r.shift).toNat
    else shiftBy c rs

/-- The upper case of a character, which may take several. -/
def upperChar (c : Char) : Text :=
  match upperExpansions.find? fun (n, _) => n = c.toNat with
  | some (_, codes) => codes.map Char.ofNat
  | none => [shiftBy c upperRuns]

/-- The lower case of a character on its own; only the dotted capital I takes two. -/
def lowerChar (c : Char) : Text :=
  if c.toNat = 0x130 then [Char.ofNat 0x69, Char.ofNat 0x307] else [shiftBy c lowerRuns]

def isCaseIgnorable (c : Char) : Bool :=
  Text.within c caseIgnorableRanges

def isCased (c : Char) : Bool :=
  Text.within c casedRanges

namespace Text

/-- Whether the first character that counts has a case. -/
def startsCased (t : Text) : Bool :=
  match t.dropWhile isCaseIgnorable with
  | [] => false
  | c :: _ => isCased c

/-- Lowers a text; `cased` says whether a character with a case stands just before it. -/
def lowerAfter (cased : Bool) : Text → Text
  | [] => []
  | c :: t =>
    let low :=
      if c.toNat = 0x3A3 then
        [if cased && !startsCased t then Char.ofNat 0x3C2 else Char.ofNat 0x3C3]
      else lowerChar c
    low ++ lowerAfter (if isCaseIgnorable c then cased else isCased c) t

def upper (t : Text) : Text :=
  t.flatMap upperChar

def lower (t : Text) : Text :=
  lowerAfter false t

/-- The first character in upper case, the rest in lower case. -/
def capitalize (t : Text) : Text :=
  upper (t.take 1) ++ lower (t.drop 1)

end Text

end Stencil
