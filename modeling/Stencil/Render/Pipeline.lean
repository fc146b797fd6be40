import Stencil.Filter.Registry
import Stencil.Markup.Argument
import Stencil.Markup.Block
import Stencil.Markup.BlockArgument
import Stencil.Markup.Placeholder
import Stencil.Render.State

/-!
# Rendering

A template is rendered in four stages: conditionals, loops, plain placeholders, filtered
placeholders.  Every stage finds something in a text and puts new text in some of the places.  The
places are gone through from left to right, for the new texts may have to be paid for, and what has
been put in is not looked at again by the stage.

Each outermost conditional gives way to the branch that its condition chooses, and the conditionals
in that branch are treated likewise, one level deeper.  Loops are left alone with all that they
enclose: what is inside waits for the items.

Each outermost loop then gives way to its body, rendered once for each item of a sequence.  Every turn
is paid for before it is taken.  A loop with a malformed header is left as text, and one whose path
names no sequence gives nothing.  Bodies go through all four stages, so that each turn sees its own
item.

A placeholder gives way to the text of its value.  One whose path names nothing stays as it is and
costs nothing; any other is paid for, and stays as it is if the budget is spent.  Filters are
applied before the placeholder is paid for, and the value is written after that.

`render` never fails: where a stage does, the template comes out as it went in.
-/

namespace Stencil

/-! ## Substitution in a template -/

/-- The edits for the occurrences that are to have new text. -/
def edits {α : Type} (newText : α → Render (Option Text)) :
    List (Occurrence α) → Render (List Edit)
  | [] => pure []
  | o :: os => do
    match ← newText o.item with
    | some text => return ⟨o.start, o.stop, text⟩ :: (← edits newText os)
    | none => edits newText os

/-- Puts new text in the places where there is any, and leaves all else. -/
def substitute {α : Type} (found : List (Occurrence α)) (newText : α → Render (Option Text))
    (template : Text) : Render Text := do
  return splice 0 (← edits newText found) template

/-! ## Conditionals -/

/-- Whether a condition holds.  One of no known form does not, and is noticed. -/
def judge (scope : Scope) (argument : Text) : Render Bool := do
  let condition := Condition.ofText argument
  if let .unsupported t := condition then
    Render.note (.unsupportedCondition t)
  Render.ofExcept (condition.holds scope)

/-- Whether a tag could start anywhere in a text. -/
def mayHoldTags : Text → Bool
  | '{' :: '%' :: _ => true
  | _ :: t => mayHoldTags t
  | [] => false

/-- Resolves the conditionals in a branch, one level deeper.  A branch without tags needs no level.
-/
def resolveBranch (inner : Option (Text → Render Text)) (branch : Text) : Render Text :=
  if mayHoldTags branch then Render.descend (inner.map (· branch)) else pure branch

/-- The text in place of a block: the branch that its condition chooses, if it is a conditional. -/
def chooseBranch (inner : Option (Text → Render Text)) (scope : Scope) (template : Text)
    (block : Block) : Render (Option Text) := do
  if block.kind = .conditional then
    let (body, other) := block.branches template
    let chosen := if ← judge scope block.argument then body else other
    return some (← resolveBranch inner chosen)
  else return none

/-- Puts branches in the place of the outermost conditionals. -/
def chooseBranches (inner : Option (Text → Render Text)) (scope : Scope) (template : Text) :
    Render Text := do
  Render.reads .conditionals template
  substitute ((blocks template).map Block.occurrence) (chooseBranch inner scope template) template

/-- Resolves conditionals with a number of levels left below the present one. -/
def resolveConditionals (scope : Scope) : (room : Nat) → Text → Render Text
  | 0 => chooseBranches none scope
  | room + 1 => chooseBranches (some (resolveConditionals scope room)) scope

/-- The stage of conditionals, in the present state. -/
def conditionalStage (template : Text) (scope : Scope) : Render Text := do
  resolveConditionals scope (← get).room template

/-! ## Loops -/

/-- How the body of a loop is rendered: its text, in the scope of one turn. -/
abbrev BodyRenderer := Text → Scope → Render Text

/-- The turns of a loop, until the items or the budget end. -/
def turns (body : Scope → Render Text) (name : Text) (scope : Scope) : List Value → Render Text
  | [] => pure []
  | item :: items => do
    if ← Render.spend then
      let t ← body (scope.bind name item)
      return t ++ (← turns body name scope items)
    else return []

/-- The text in place of a loop, or none if its header is malformed.  `inner` renders the body one
level deeper, if there is such a level. -/
def expandLoop (inner : Option BodyRenderer) (scope : Scope) (argument body : Text) :
    Render (Option Text) := do
  match LoopHeader.ofArgument? argument with
  | none =>
    Render.note (.malformedHeader argument)
    return none
  | some header =>
    match ← Render.ofExcept (scope.resolve header.path) with
    | some (.sequence _ items) =>
      return some (← Render.descend (inner.map fun render =>
        turns (render body) header.name scope items))
    | _ =>
      Render.note (.notASequence header.path)
      return some []

/-- The text in place of a block: its expansion, if it is a loop. -/
def expandBlock (inner : Option BodyRenderer) (scope : Scope) (template : Text) (block : Block) :
    Render (Option Text) :=
  if block.kind = .loop then expandLoop inner scope block.argument (block.branches template).1
  else pure none

/-- Expands the outermost loops. -/
def expandLoops (inner : Option BodyRenderer) (scope : Scope) (template : Text) : Render Text := do
  Render.reads .loops template
  substitute ((blocks template).map Block.occurrence) (expandBlock inner scope template) template

/-- The stage of loops, in the present state. -/
def loopStage (body : BodyRenderer) (template : Text) (scope : Scope) : Render Text := do
  expandLoops (if (← get).room = 0 then none else some body) scope template

/-! ## Placeholders -/

/-- Pays for a value and writes it. -/
def payAndDisplay : Option Value → Render (Option Text)
  | none => pure none
  | some v => do
    if ← Render.spend then return some (← Render.ofExcept v.display) else return none

/-- Applies the filter that one segment of a chain names.  An unknown one changes nothing. -/
def applySegment (filters : Registry) (value : Option Value) (segment : Segment) :
    Render (Option Value) := do
  match filters.find? segment.filter with
  | none =>
    Render.note (.unknownFilter segment.filter)
    return value
  | some filter => Render.ofExcept (filter.apply value (readArguments segment.arguments))

/-- Applies the filters of a chain, in order. -/
def applyChain (filters : Registry) (value : Option Value) (chain : Text) :
    Render (Option Value) :=
  (segments chain).foldlM (applySegment filters) value

/-- The text in place of a plain placeholder. -/
def fillPlain (scope : Scope) (path : Text) : Render (Option Text) := do
  payAndDisplay (← Render.ofExcept (scope.resolve path))

/-- The text in place of a filtered placeholder. -/
def fillFiltered (filters : Registry) (scope : Scope) (placeholder : Filtered) :
    Render (Option Text) := do
  let value ← Render.ofExcept (scope.resolve placeholder.path)
  payAndDisplay (← applyChain filters value placeholder.chain)

/-- The stage of plain placeholders. -/
def plainStage (template : Text) (scope : Scope) : Render Text := do
  Render.reads .plain template
  substitute (occurrences plainAt template) (fillPlain scope) template

/-- The stage of filtered placeholders. -/
def filteredStage (filters : Registry) (template : Text) (scope : Scope) : Render Text := do
  Render.reads .filtered template
  substitute (occurrences filteredAt template) (fillFiltered filters scope) template

/-! ## The pipeline -/

/-- The four stages; `inner` renders loop bodies one level deeper, if there is such a level. -/
def renderLevel (filters : Registry) (room : Nat) (inner : Option BodyRenderer) : BodyRenderer :=
  fun template scope => do
    let t ← resolveConditionals scope room template
    let t ← expandLoops inner scope t
    let t ← plainStage t scope
    filteredStage filters t scope

/-- Renders with a number of levels left below the present one. -/
def renderWithin (filters : Registry) : (room : Nat) → BodyRenderer
  | 0 => renderLevel filters 0 none
  | room + 1 => renderLevel filters (room + 1) (some (renderWithin filters room))

/-- All stages, in the present state. -/
def renderStages (filters : Registry) : BodyRenderer := fun template scope => do
  renderWithin filters (← get).room template scope

/-- What comes out of a render. -/
structure Rendered where
  output : Text
  notices : List Notice

/-- Renders a template from a fresh state. -/
def render (filters : Registry) (limits : Limits) (template : Text) (scope : Scope) : Rendered :=
  match (renderStages filters template scope).run { limits := limits } with
  | .ok output s => ⟨output, s.log⟩
  | .error _ s => ⟨template, (s.note .renderingFailed).log⟩

end Stencil
