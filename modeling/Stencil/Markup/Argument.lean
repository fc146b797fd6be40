import Stencil.Number.Numeral
import Stencil.Text.Case
import Stencil.Text.Class
import Stencil.Text.Occurrence
import Stencil.Value

/-!
# Filter arguments

An argument list is cut at its commas; a comma between quotes that enclose a whole argument does
not cut.  Each argument is a literal: a quoted text, a truth value, nothing, a number, or, if it is
none of these, the text as it stands.
-/

namespace Stencil

def isQuote (c : Char) : Bool :=
  c == '"' || c == '\''

/-- What is between quotes, if a text starts and ends with one and the same. -/
def unquote? : Text → Option Text
  | q :: t =>
    if isQuote q ∧ t.getLast? = some q then some t.dropLast else none
  | [] => none

/-- The value that a word stands for. -/
def wordValue? (word : Text) : Option Value :=
  if word = "true".toList then some (.bool true)
  else if word = "false".toList then some (.bool false)
  else if word = "none".toList ∨ word = "null".toList then some .null
  else none

/-- The value that a literal writes. -/
def readLiteral (token : Text) : Value :=
  let token := token.strip
  match unquote? token with
  | some t => .text t
  | none =>
    match wordValue? token.lower with
    | some v => v
    | none =>
      match readInteger? token with
      | some n => .int n
      | none =>
        match readFloat? token with
        | some x => .float x
        | none => .text token

/-- What is behind the argument that ends here: blanks and a comma, or blanks and the end. -/
def argumentEnd? (t : Text) : Option Text :=
  match Text.stripStart t with
  | [] => some []
  | ',' :: rest => some rest
  | _ => none

/-- The quoted argument at the head of a text, with its quotes. -/
def quotedArgument? : Recogniser Text
  | q :: t =>
    if isQuote q then
      match t.dropWhile (· != q) with
      | _ :: rest => (argumentEnd? rest).map fun rest => (q :: t.takeWhile (· != q) ++ [q], rest)
      | [] => none
    else none
  | [] => none

/-- The argument at the head of a text.  Blanks alone are an empty argument; nothing at all is
none. -/
def argumentAt : Recogniser Text := fun t =>
  match Text.stripStart t with
  | [] => if t.isEmpty then none else some ([], [])
  | ',' :: rest => if t.head? = some ',' then none else some ([], rest)
  | body =>
    some <| (quotedArgument? body).getD
      (Text.stripEnd (body.takeWhile (· != ',')), (body.dropWhile (· != ',')).drop 1)

/-- The values of an argument list.  A filter without a list and one with a blank list have no
arguments. -/
def readArguments : Option Text → List Value
  | none => []
  | some t =>
    if t.strip.isEmpty then []
    else (occurrences argumentAt t).map fun o => readLiteral o.item

end Stencil
