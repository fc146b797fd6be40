import Stencil.Text.Class
import Stencil.Text.Occurrence

/-!
# Placeholders

A placeholder holds a path between doubled braces.  A plain one holds nothing else; a filtered one
has a chain of filters behind the path.

A chain is a run of segments, each a bar, the name of a filter, and an argument list if the filter
takes one.  A list ends at the first closing parenthesis.
-/

namespace Stencil

/-! ## Chains -/

structure Segment where
  filter : Text
  /-- What is between the parentheses, if there are any. -/
  arguments : Option Text

/-- The argument list at the head of a text. -/
def argumentListAt : Recogniser Text
  | '(' :: t =>
    match t.dropWhile (· != ')') with
    | _ :: rest => some (t.takeWhile (· != ')'), rest)
    | [] => none
  | _ => none

/-- The segment at the head of a text, and what follows it but for blanks. -/
def segmentAt : Recogniser Segment
  | '|' :: t => do
    let (filter, t) ← Text.run? isWordChar (Text.stripStart t)
    let t := Text.stripStart t
    match argumentListAt t with
    | some (list, rest) => return (⟨filter, some list⟩, Text.stripStart rest)
    | none => return (⟨filter, none⟩, t)
  | _ => none

/-- The segments of a chain, in order. -/
def segments (chain : Text) : List Segment :=
  (occurrences segmentAt chain).map Occurrence.item

/-! ## Placeholders -/

/-- The path at the head of a placeholder, and what follows it but for blanks. -/
def placeholderPathAt : Recogniser Text
  | '{' :: '{' :: t => do
    let (path, t) ← Text.run? isPathChar (Text.stripStart t)
    return (path, Text.stripStart t)
  | _ => none

/-- Takes the end of a placeholder off a text. -/
def placeholderEnd? : Text → Option Text
  | '}' :: '}' :: t => some t
  | _ => none

/-- The plain placeholder at the head of a text: its path. -/
def plainAt : Recogniser Text := fun t => do
  let (path, t) ← placeholderPathAt t
  let rest ← placeholderEnd? t
  return (path, rest)

/-- A path with a chain of filters, still as text. -/
structure Filtered where
  path : Text
  chain : Text

/-- The filtered placeholder at the head of a text.  Its chain has one segment at least. -/
def filteredAt : Recogniser Filtered := fun t => do
  let (path, t) ← placeholderPathAt t
  let (segments, t') := repeated segmentAt t
  let rest ← placeholderEnd? t'
  if segments.isEmpty then none
  else return (⟨path, t.take (t.length - t'.length)⟩, rest)

end Stencil
