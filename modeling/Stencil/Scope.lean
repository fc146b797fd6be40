import Stencil.Text.Class
import Stencil.Value

/-!
# Scopes and paths

A scope binds names to values.  A path goes from a scope through mappings, by key, and through
sequences, by index; `resolve` follows it.  `bind` makes the scope of one turn of a loop.
-/

namespace Stencil

/-- The bindings that a template can see, in the order in which they were made. -/
abbrev Scope := List (Key × Value)

namespace Scope

/-- The value bound to a name. -/
def find? (name : Text) : Scope → Option Value
  | [] => none
  | (.text k, v) :: s => if k = name then some v else find? name s
  | _ :: s => find? name s

/-- Binds a name to a value.  A name that is bound keeps its place. -/
def bind (name : Text) (value : Value) : Scope → Scope
  | [] => [(.text name, value)]
  | (.text k, v) :: s =>
    if k = name then (.text k, value) :: s else (.text k, v) :: bind name value s
  | e :: s => e :: bind name value s

/-- A name that has been bound names its value. -/
theorem find?_bind_self (name : Text) (value : Value) (s : Scope) :
    find? name (bind name value s) = some value := by
  induction s using bind.induct name with
  | case1 => simp [bind, find?]
  | case2 => simp_all [bind, find?]
  | case3 => simp_all [bind, find?]
  | case4 e s h ih =>
    obtain ⟨k, v⟩ := e
    cases k <;> simp_all [bind, find?]

/-- Binding a name leaves the other names as they are. -/
theorem find?_bind_of_ne {name other : Text} (value : Value) (s : Scope) (h : other ≠ name) :
    find? other (bind name value s) = find? other s := by
  induction s using bind.induct name with
  | case1 => simp [bind, find?, h.symm]
  | case2 => simp_all [bind, find?, h.symm]
  | case3 => simp_all [bind, find?]
  | case4 e s h ih =>
    obtain ⟨k, v⟩ := e
    cases k <;> simp_all [bind, find?]

end Scope

/-- The part of a value that one segment of a path names, if there is one. -/
def Value.part? (segment : Text) : Value → Except Failure (Option Value)
  | .mapping entries => .ok (Scope.find? segment entries)
  | .sequence _ items =>
    if segment.isNumeral then
      if segment.length ≤ maxDigits then .ok items[segment.numeralValue]?
      else .error (.indexTooLong segment.length)
    else .ok none
  | _ => .ok none

/-- What a value holds at the end of a path. -/
def Value.follow (value : Value) : List Text → Except Failure (Option Value)
  | [] => .ok (some value)
  | segment :: path => do
    match ← value.part? segment with
    | none => return none
    | some part => part.follow path

/-- The value that a path names in a scope; none where a segment names nothing. -/
def Scope.resolve (scope : Scope) (path : Text) : Except Failure (Option Value) :=
  (Value.mapping scope).follow (path.strip.splitOn '.')

/-- What counts as true: a path that names nothing does not. -/
def truthy : Option Value → Bool
  | none => false
  | some v => v.truthy

end Stencil
