import Stencil.Render.Notice
import Stencil.Value

/-!
# Limits and the state of a render

Two limits hold for every render, so that it ends soon whatever the template says: how deep blocks
may be nested, and how many substitutions may be made.

A render counts its nesting depth and its substitutions, and keeps its notices.  Both limits are
enforced here: `spend` takes one substitution from the budget, and `descend` works one level deeper
where a level is left.  The first time that a limit is reached there is a warning, later times none.
A failure keeps the state as it is, but for the depth, which is always restored.

The state also keeps the history of the render: every text that a stage is given to read, and every
depth that the render comes to.  It is there to be spoken about; nothing that a render does depends
on it.
-/

namespace Stencil

/-! ## Limits -/

/-- The limits of one render. -/
structure Limits where
  /-- How many loop bodies and branches may be nested in each other. -/
  maxDepth : Nat := 32
  /-- How many placeholders may be replaced and turns of loops taken, all together. -/
  maxSubstitutions : Nat := 10000

/-- Why numbers are refused as limits. -/
inductive LimitError where
  | negativeDepth (n : Int)
  | negativeSubstitutions (n : Int)
  deriving DecidableEq

def LimitError.message : LimitError → Text
  | negativeDepth n => "max_depth must be >= 0, got ".toList ++ integerText n
  | negativeSubstitutions n => "max_substitutions must be >= 0, got ".toList ++ integerText n

/-- The limits with the given numbers; where one is missing, the usual one.  The depth is looked at
first. -/
def Limits.of? (depth substitutions : Option Int) : Except LimitError Limits :=
  let usual : Limits := {}
  let d := depth.getD usual.maxDepth
  let s := substitutions.getD usual.maxSubstitutions
  if d < 0 then .error (.negativeDepth d)
  else if s < 0 then .error (.negativeSubstitutions s)
  else .ok ⟨d.toNat, s.toNat⟩

/-! ## States -/

/-- The stages of a render. -/
inductive Stage where
  | conditionals
  | loops
  | plain
  | filtered
  deriving DecidableEq

/-- What a history is made of. -/
inductive Event where
  /-- A stage has been given a text to read. -/
  | reads (stage : Stage) (text : Text)
  /-- The render has come to a depth. -/
  | depth (n : Nat)
  deriving DecidableEq

structure State where
  limits : Limits := {}
  depth : Nat := 0
  substitutions : Nat := 0
  /-- Whether a limit has been reached. -/
  exhausted : Bool := false
  /-- The notices so far, the latest first. -/
  notices : List Notice := []
  /-- The events so far, the latest first. -/
  history : List Event := []

/-- What may fail and changes the state of a render. -/
abbrev Render := EStateM Failure State

namespace State

/-- How many levels are left below the present one. -/
def room (s : State) : Nat :=
  s.limits.maxDepth - s.depth

/-- The notices in order. -/
def log (s : State) : List Notice :=
  s.notices.reverse

def note (n : Notice) (s : State) : State :=
  { s with notices := n :: s.notices }

/-- A limit has been reached: the first time there is a notice. -/
def exhaust (n : Notice) (s : State) : State :=
  if s.exhausted then s else { s.note n with exhausted := true }

def record (e : Event) (s : State) : State :=
  { s with history := e :: s.history }

def enter (s : State) : State :=
  { s with depth := s.depth + 1 }.record (.depth (s.depth + 1))

def leave (s : State) : State :=
  { s with depth := s.depth - 1 }.record (.depth (s.depth - 1))

end State

namespace Render

def note (n : Notice) : Render Unit :=
  modify (State.note n)

/-- Puts on record that a stage begins to read a text. -/
def reads (stage : Stage) (text : Text) : Render Unit :=
  modify (State.record (.reads stage text))

/-- Fails where a result is a failure. -/
def ofExcept {α : Type} : Except Failure α → Render α
  | .ok a => pure a
  | .error e => throw e

/-- Takes one substitution from the budget, if one is left. -/
def spend : Render Bool := do
  let s ← get
  if s.substitutions < s.limits.maxSubstitutions then
    set { s with substitutions := s.substitutions + 1 }
    return true
  else
    set (s.exhaust (.substitutionLimit s.limits.maxSubstitutions))
    return false

/-- Refuses to go deeper. -/
def refuse : Render Unit :=
  modify fun s => s.exhaust (.nestingLimit s.limits.maxDepth)

/-- Whether a level is left below the present one. -/
def mayDescend : Render Bool := do
  if (← get).room = 0 then
    refuse
    return false
  else
    return true

/-- Works one level deeper, and comes back however that ends. -/
def deeper {α : Type} (work : Render α) : Render α := fun s =>
  match work s.enter with
  | .ok a s => .ok a s.leave
  | .error e s => .error e s.leave

/-- Does what is to be done one level deeper, if there is such a level; otherwise gives nothing. -/
def descend : Option (Render Text) → Render Text
  | some work => deeper work
  | none => do
    refuse
    return []

end Render

end Stencil
