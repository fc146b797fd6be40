import Stencil.Scope
import Stencil.Text.Case

/-!
# Filters

A filter makes a value of a value and of the arguments it is given.  It also decides what becomes
of a path that names nothing, which is `none` here.
-/

namespace Stencil

/-- What a filter does: from a value, if there is one, and arguments to a value, if there is one. -/
abbrev FilterFunction := Option Value → List Value → Except Failure (Option Value)

/-- The filters that are always there. -/
inductive Builtin where
  | default
  | upper
  | lower
  | capitalize
  | length
  | join
  deriving DecidableEq

namespace Builtin

def all : List Builtin := [default, upper, lower, capitalize, length, join]

def name : Builtin → Text
  | default => "default".toList
  | upper => "upper".toList
  | lower => "lower".toList
  | capitalize => "capitalize".toList
  | length => "length".toList
  | join => "join".toList

/-- Takes the place of what is missing, null or an empty text. -/
def applyDefault : FilterFunction := fun value args =>
  let substitute := args.head?.getD (.text [])
  match value with
  | none => .ok (some substitute)
  | some .null => .ok (some substitute)
  | some (.text []) => .ok (some substitute)
  | some v => .ok (some v)

/-- Changes the text of a value. -/
def applyToText (change : Text → Text) : FilterFunction := fun value _ =>
  match value with
  | none => .ok none
  | some v => do return some (.text (change (← v.display)))

/-- How many characters a text or items a sequence has; zero for all else. -/
def applyLength : FilterFunction := fun value _ =>
  match value with
  | some (.text t) => .ok (some (.int t.length))
  | some (.sequence _ items) => .ok (some (.int items.length))
  | _ => .ok (some (.int 0))

/-- The text of a sequence with a separator of one's own; an empty one counts as none. -/
def applyJoin : FilterFunction := fun value args =>
  match value with
  | some (.sequence _ items) => do
    let separator ← match args with
      | [] => pure []
      | a :: _ => a.display
    let separator := if separator.isEmpty then itemSeparator else separator
    return some (.text (separator.intercalate (← Value.displayItems items)))
  | v => .ok v

def apply : Builtin → FilterFunction
  | default => applyDefault
  | upper => applyToText Text.upper
  | lower => applyToText Text.lower
  | capitalize => applyToText Text.capitalize
  | length => applyLength
  | join => applyJoin

end Builtin

/-- A filter: one that is always there, or one that an application brings. -/
inductive Filter where
  | builtin (b : Builtin)
  | custom (function : FilterFunction)

def Filter.apply : Filter → FilterFunction
  | builtin b => b.apply
  | custom function => function

end Stencil
