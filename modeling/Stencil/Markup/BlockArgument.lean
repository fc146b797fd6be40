import Stencil.Scope
import Stencil.Text.Occurrence

/-!
# The arguments of blocks

The argument of a conditional is a condition, of one of three forms: a path, a path compared with a
quoted text, or the negation of a path.  Anything else is false.

The argument of a loop is a header, which names the item and the path of the sequence: `item in path`.
-/

namespace Stencil

/-! ## Conditions -/

/-- A condition. -/
inductive Condition where
  /-- The value of the path counts as true. -/
  | path (path : Text)
  /-- The path names the literal text, or, if negated, does not. -/
  | comparison (path : Text) (negated : Bool) (literal : Text)
  /-- The value of the path does not count as true. -/
  | negation (path : Text)
  /-- None of the forms. -/
  | unsupported (text : Text)

/-- A comparison sign at the head of a text; `true` is for unequal. -/
def comparisonSignAt : Recogniser Bool
  | '=' :: '=' :: t => some (false, t)
  | '!' :: '=' :: t => some (true, t)
  | _ => none

/-- The content of a text that is one quoted literal. -/
def quotedLiteral? : Text → Option Text
  | q :: t =>
    if (q = '"' ∨ q = '\'') ∧ t.dropWhile (· != q) = [q] then some (t.takeWhile (· != q)) else none
  | [] => none

namespace Condition

def comparison? (t : Text) : Option Condition := do
  let (named, t) ← Text.run? isPathChar t
  let (negated, t) ← comparisonSignAt (Text.stripStart t)
  let literal ← quotedLiteral? (Text.stripStart t)
  return comparison named negated literal

def negation? : Text → Option Condition
  | 'n' :: 'o' :: 't' :: c :: t =>
    let named := Text.stripStart t
    if isBlank c ∧ Text.isPath named then some (negation named) else none
  | _ => none

/-- Reads a condition; blanks around it do not matter. -/
def ofText (t : Text) : Condition :=
  let t := t.strip
  if t.isPath then path t
  else ((comparison? t).or (negation? t)).getD (unsupported t)

/-- Whether a condition holds in a scope. -/
def holds (scope : Scope) : Condition → Except Failure Bool
  | path p => do return truthy (← scope.resolve p)
  | comparison p negated literal => do
    let equal :=
      match ← scope.resolve p with
      | some (.text t) => t == literal
      | _ => false
    return equal != negated
  | negation p => do return !truthy (← scope.resolve p)
  | unsupported _ => return false

end Condition

/-! ## Loop headers -/

structure LoopHeader where
  name : Text
  path : Text

/-- Takes blanks, one at least, off the head of a text. -/
def gap? : Text → Option Text
  | c :: t => if isBlank c then some (Text.stripStart t) else none
  | [] => none

/-- Takes the word that stands between the item and the path off the head of a text. -/
def inWord? : Text → Option Text
  | 'i' :: 'n' :: t => some t
  | _ => none

/-- The header that an argument is, if it is one. -/
def LoopHeader.ofArgument? (argument : Text) : Option LoopHeader := do
  let (name, t) ← Text.run? isWordChar argument
  let t ← gap? t
  let t ← inWord? t
  let path ← gap? t
  if Text.isPath path then return ⟨name, path⟩ else none

end Stencil
