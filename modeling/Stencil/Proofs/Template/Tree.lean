import Stencil.Filter.Registry
import Stencil.Markup.Argument
import Stencil.Markup.BlockArgument
import Stencil.Proofs.Markup.Written

/-!
# Template trees

Templates as trees: literal text, placeholders, and the two kinds of block around further trees.
`Tree.print` writes a tree as a template.  `Tree.walk` says what the template means, in one walk
over the tree: each part is looked at once, in its own scope.

The texts in a tree have to be such that the parts can be told apart (`Tree.WellFormed`).  A scope
that cannot add marks of its own has no opening brace in it (`Value.NoBrace`).
-/

namespace Stencil

/-! ## Trees -/

/-- A filter in a placeholder, with its argument list if it has one. -/
structure Call where
  filter : Builtin
  arguments : Option Text

/-- What is no block: literal text, or a placeholder without filters or with some. -/
inductive Piece where
  | literal (t : Text)
  | plain (path : Text)
  | filtered (path : Text) (calls : List Call)

/-- A template as a tree.  Each part is followed by the rest. -/
inductive Tree where
  | done
  | piece (p : Piece) (rest : Tree)
  /-- A conditional without another branch. -/
  | conditional (condition : Text) (body rest : Tree)
  /-- A conditional with another branch. -/
  | either (condition : Text) (body other rest : Tree)
  | loop (name path : Text) (body rest : Tree)

/-! ## Trees as texts -/

def Call.print (c : Call) : Text :=
  "| ".toList ++ c.filter.name
    ++ (c.arguments.elim [] fun list => '(' :: list ++ [')']) ++ " ".toList

def Piece.print : Piece → Text
  | literal t => t
  | plain path => ['{', '{', ' '] ++ path ++ [' ', '}', '}']
  | filtered path calls => ['{', '{', ' '] ++ path ++ " ".toList ++ calls.flatMap Call.print
      ++ ['}', '}']

/-- The template that a tree is. -/
def Tree.print : Tree → Text
  | done => []
  | piece p rest => p.print ++ rest.print
  | conditional condition body rest =>
    ifMark condition ++ body.print ++ endifMark ++ rest.print
  | either condition body other rest =>
    ifMark condition ++ body.print ++ elseMark ++ other.print ++ endifMark ++ rest.print
  | loop name path body rest => forMark name path ++ body.print ++ endforMark ++ rest.print

/-! ## Well-formed trees -/

/-- An argument list ends at the first closing parenthesis, and must not open markup. -/
def Call.WellFormed (c : Call) : Prop :=
  ∀ list ∈ c.arguments, '{' ∉ list ∧ ')' ∉ list

def Piece.WellFormed : Piece → Prop
  | literal t => '{' ∉ t
  | plain path => path.isPath = true
  | filtered path calls => path.isPath = true ∧ calls ≠ [] ∧ ∀ c ∈ calls, c.WellFormed

/-- The parts of the tree can be told apart in its text. -/
def Tree.WellFormed : Tree → Prop
  | done => True
  | piece p rest => p.WellFormed ∧ rest.WellFormed
  | conditional condition body rest =>
    ¬ ['%', '}'] <:+: condition ∧ body.WellFormed ∧ rest.WellFormed
  | either condition body other rest =>
    ¬ ['%', '}'] <:+: condition ∧ body.WellFormed ∧ other.WellFormed ∧ rest.WellFormed
  | loop name path body rest =>
    name.isWord = true ∧ path.isPath = true ∧ body.WellFormed ∧ rest.WellFormed

instance (c : Call) : Decidable c.WellFormed :=
  inferInstanceAs (Decidable (∀ list ∈ c.arguments, _))

instance : (p : Piece) → Decidable p.WellFormed
  | .literal t => inferInstanceAs (Decidable ('{' ∉ t))
  | .plain path => inferInstanceAs (Decidable (path.isPath = true))
  | .filtered path calls => inferInstanceAs
    (Decidable (path.isPath = true ∧ calls ≠ [] ∧ ∀ c ∈ calls, c.WellFormed))

instance Tree.decidableWellFormed : (tree : Tree) → Decidable tree.WellFormed
  | done => isTrue trivial
  | piece p rest =>
    have := rest.decidableWellFormed
    inferInstanceAs (Decidable (p.WellFormed ∧ rest.WellFormed))
  | conditional condition body rest =>
    have := body.decidableWellFormed
    have := rest.decidableWellFormed
    inferInstanceAs
      (Decidable (¬ ['%', '}'] <:+: condition ∧ body.WellFormed ∧ rest.WellFormed))
  | either condition body other rest =>
    have := body.decidableWellFormed
    have := other.decidableWellFormed
    have := rest.decidableWellFormed
    inferInstanceAs (Decidable
      (¬ ['%', '}'] <:+: condition ∧ body.WellFormed ∧ other.WellFormed ∧ rest.WellFormed))
  | loop name path body rest =>
    have := body.decidableWellFormed
    have := rest.decidableWellFormed
    inferInstanceAs (Decidable
      (name.isWord = true ∧ path.isPath = true ∧ body.WellFormed ∧ rest.WellFormed))

def Key.NoBrace : Key → Prop
  | text t => '{' ∉ t
  | _ => True

instance : (k : Key) → Decidable k.NoBrace
  | .text t => inferInstanceAs (Decidable ('{' ∉ t))
  | .int _ | .float _ | .bool _ | .null => isTrue trivial

mutual

/-- There is no opening brace in the texts, keys and bytes of a value. -/
def Value.NoBrace : Value → Prop
  | .text t => '{' ∉ t
  | .bytes bs => 0x7B ∉ bs
  | .sequence _ items => AllNoBrace items
  | .mapping entries => EntriesNoBrace entries
  | _ => True

def Value.AllNoBrace : List Value → Prop
  | [] => True
  | v :: vs => v.NoBrace ∧ AllNoBrace vs

def Value.EntriesNoBrace : List (Key × Value) → Prop
  | [] => True
  | (k, v) :: es => k.NoBrace ∧ v.NoBrace ∧ EntriesNoBrace es

end

mutual

instance Value.decidableNoBrace : (v : Value) → Decidable v.NoBrace
  | .text t => inferInstanceAs (Decidable ('{' ∉ t))
  | .bytes bs => inferInstanceAs (Decidable (0x7B ∉ bs))
  | .sequence _ items => decidableAllNoBrace items
  | .mapping entries => decidableEntriesNoBrace entries
  | .null | .bool _ | .int _ | .float _ | .broken _ => isTrue trivial

instance Value.decidableAllNoBrace : (vs : List Value) → Decidable (AllNoBrace vs)
  | [] => isTrue trivial
  | v :: vs =>
    have := v.decidableNoBrace
    have := decidableAllNoBrace vs
    inferInstanceAs (Decidable (v.NoBrace ∧ AllNoBrace vs))

instance Value.decidableEntriesNoBrace :
    (es : List (Key × Value)) → Decidable (EntriesNoBrace es)
  | [] => isTrue trivial
  | (k, v) :: es =>
    have := v.decidableNoBrace
    have := decidableEntriesNoBrace es
    inferInstanceAs (Decidable (k.NoBrace ∧ v.NoBrace ∧ EntriesNoBrace es))

end

/-! ## What a tree means -/

/-- The text that stands for a value, if there is one. -/
def displayed : Option Value → Except Failure (Option Text)
  | none => .ok none
  | some v => do return some (← v.display)

/-- Applies filters, in order. -/
def applyCalls (calls : List Call) (value : Option Value) : Except Failure (Option Value) :=
  calls.foldlM (fun v c => c.filter.apply v (readArguments c.arguments)) value

/-- What a piece gives way to in a scope, if to anything. -/
def Piece.fill (scope : Scope) : Piece → Except Failure (Option Text)
  | literal _ => .ok none
  | plain path => do displayed (← scope.resolve path)
  | filtered path calls => do displayed (← applyCalls calls (← scope.resolve path))

/-- The items of the sequence that a path names; none if it names no sequence. -/
def itemsOf : Option Value → List Value
  | some (.sequence _ items) => items
  | _ => []

/-- The text that a tree stands for in a scope.  A placeholder that nothing fills stands for
itself. -/
def Tree.walk : Tree → Scope → Except Failure Text
  | done, _ => return []
  | piece p rest, scope => do
    let t := (← p.fill scope).getD p.print
    return t ++ (← rest.walk scope)
  | conditional condition body rest, scope => do
    let t ← if ← (Condition.ofText condition).holds scope then body.walk scope else pure []
    return t ++ (← rest.walk scope)
  | either condition body other rest, scope => do
    let t ← if ← (Condition.ofText condition).holds scope then body.walk scope
      else other.walk scope
    return t ++ (← rest.walk scope)
  | loop name path body rest, scope => do
    let items := itemsOf (← scope.resolve path)
    let turns ← items.mapM fun item => body.walk (scope.bind name item)
    return turns.flatten ++ (← rest.walk scope)

/-- The path that a piece looks up. -/
def Piece.path? : Piece → Option Text
  | literal _ => none
  | plain path => some path
  | filtered path _ => some path

/-- Wherever the walk comes to a placeholder in a loop, a path that names nothing there names nothing
in the scopes around the loop either. -/
def Tree.Settled : Tree → (outer : List Scope) → Scope → Prop
  | done, _, _ => True
  | piece p rest, outer, scope =>
    (∀ path ∈ p.path?, scope.resolve path = .ok none → ∀ o ∈ outer, o.resolve path = .ok none) ∧
      rest.Settled outer scope
  | conditional condition body rest, outer, scope =>
    ((Condition.ofText condition).holds scope = .ok true → body.Settled outer scope) ∧
      rest.Settled outer scope
  | either condition body other rest, outer, scope =>
    ((Condition.ofText condition).holds scope = .ok true → body.Settled outer scope) ∧
      ((Condition.ofText condition).holds scope = .ok false → other.Settled outer scope) ∧
      rest.Settled outer scope
  | loop name path body rest, outer, scope =>
    (∀ value, scope.resolve path = .ok value → ∀ item ∈ itemsOf value,
      body.Settled (scope :: outer) (scope.bind name item)) ∧ rest.Settled outer scope

instance {α : Type} [DecidableEq α] (a : α) : (r : Except Failure α) → Decidable (r = .ok a)
  | .ok b => decidable_of_iff (b = a) ⟨congrArg Except.ok, Except.ok.inj⟩
  | .error _ => isFalse fun h => by cases h

instance {α : Type} : (r : Except Failure (Option α)) → Decidable (r = .ok none)
  | .ok none => isTrue rfl
  | .ok (some _) | .error _ => isFalse fun h => by cases h

instance {α : Type} {P : α → Prop} [DecidablePred P] :
    (r : Except Failure α) → Decidable (∀ a, r = .ok a → P a)
  | .ok a => decidable_of_iff (P a) ⟨fun h _ he => Except.ok.inj he ▸ h, fun h => h a rfl⟩
  | .error _ => isTrue fun _ h => by cases h

instance Tree.decidableSettled :
    (tree : Tree) → (outer : List Scope) → (scope : Scope) → Decidable (tree.Settled outer scope)
  | done, _, _ => isTrue trivial
  | piece p rest, outer, scope =>
    have := rest.decidableSettled outer scope
    inferInstanceAs (Decidable ((∀ path ∈ p.path?, _ → _) ∧ rest.Settled outer scope))
  | conditional _ body rest, outer, scope =>
    have := body.decidableSettled outer scope
    have := rest.decidableSettled outer scope
    inferInstanceAs (Decidable ((_ → body.Settled outer scope) ∧ rest.Settled outer scope))
  | either _ body other rest, outer, scope =>
    have := body.decidableSettled outer scope
    have := other.decidableSettled outer scope
    have := rest.decidableSettled outer scope
    inferInstanceAs (Decidable ((_ → body.Settled outer scope) ∧
      (_ → other.Settled outer scope) ∧ rest.Settled outer scope))
  | loop name path body rest, outer, scope =>
    have (item : Value) := body.decidableSettled (scope :: outer) (scope.bind name item)
    have := rest.decidableSettled outer scope
    inferInstanceAs (Decidable ((∀ value, scope.resolve path = .ok value →
      ∀ item ∈ itemsOf value, body.Settled (scope :: outer) (scope.bind name item)) ∧
        rest.Settled outer scope))

/-- The filters that are always there are known under their names. -/
def Registry.HasBuiltins (filters : Registry) : Prop :=
  ∀ b : Builtin, filters.find? b.name = some (.builtin b)

end Stencil
