import Stencil.Proofs.Render.Course

/-!
# Work at one level

The stages of placeholders and the conditions of branches stay at the level where they begin, and
scan no text for tags.  Such a program is put together from few operations (`OneLevel`), so what the
operations keep and what a sequence keeps, all of them do, and by one induction
(`OneLevel.advances`).  They give no notice but for debugging.
-/

namespace Stencil

open Render

/-- Whether a stage scans what it reads for tags. -/
def Stage.scansTags : Stage → Bool
  | conditionals => true
  | loops => true
  | plain => false
  | filtered => false

/-- Programs that are put together from the operations of a render, do not go deeper, and scan no
text for tags. -/
inductive OneLevel : {α : Type} → Render α → Prop where
  | pure {α : Type} (a : α) : OneLevel (Pure.pure a : Render α)
  | bind {α β : Type} {x : Render α} {f : α → Render β} (hx : OneLevel x)
      (hf : ∀ a, OneLevel (f a)) : OneLevel (x >>= f)
  | ofExcept {α : Type} (r : Except Failure α) : OneLevel (Render.ofExcept r)
  | note (n : Notice) (hn : n.level = .debug) : OneLevel (Render.note n)
  | spend : OneLevel Render.spend
  | reads (stage : Stage) (t : Text) (h : stage.scansTags = false) : OneLevel (Render.reads stage t)

theorem OneLevel.advances {α : Type} {x : Render α} (h : OneLevel x) (room : Nat) :
    Advances room x := by
  induction h with
  | pure a => exact advances_pure room a
  | bind _ _ ihx ihf => exact advances_bind ihx ihf
  | ofExcept r => exact advances_ofExcept room r
  | note n hn => exact advances_note room (by rw [hn]; nofun)
  | spend => exact advances_spend room
  | reads stage t _ => exact advances_reads room stage t

/-! ## Placeholders -/

theorem oneLevel_edits {α : Type} {newText : α → Render (Option Text)}
    (h : ∀ a, OneLevel (newText a)) (found : List (Occurrence α)) :
    OneLevel (edits newText found) := by
  induction found with
  | nil => exact .pure _
  | cons o os ih =>
    refine .bind (h o.item) fun text => ?_
    cases text with
    | none => exact ih
    | some text => exact .bind ih fun _ => .pure _

theorem oneLevel_substitute {α : Type} {newText : α → Render (Option Text)}
    (h : ∀ a, OneLevel (newText a)) (found : List (Occurrence α)) (template : Text) :
    OneLevel (substitute found newText template) :=
  .bind (oneLevel_edits h found) fun _ => .pure _

theorem oneLevel_payAndDisplay (value : Option Value) : OneLevel (payAndDisplay value) := by
  cases value with
  | none => exact .pure _
  | some v =>
    refine .bind .spend fun paid => ?_
    cases paid with
    | false => exact .pure _
    | true => exact .bind (.ofExcept _) fun _ => .pure _

theorem oneLevel_applySegment (filters : Registry) (value : Option Value) (segment : Segment) :
    OneLevel (applySegment filters value segment) := by
  unfold applySegment
  cases filters.find? segment.filter with
  | none => exact .bind (.note _ rfl) fun _ => .pure _
  | some filter => exact .ofExcept _

theorem oneLevel_applySegments (filters : Registry) (value : Option Value) (list : List Segment) :
    OneLevel (list.foldlM (applySegment filters) value) := by
  induction list generalizing value with
  | nil => exact .pure _
  | cons segment rest ih =>
    rw [List.foldlM_cons]
    exact .bind (oneLevel_applySegment filters value segment) ih

theorem oneLevel_applyChain (filters : Registry) (value : Option Value) (chain : Text) :
    OneLevel (applyChain filters value chain) :=
  oneLevel_applySegments filters value (segments chain)

theorem oneLevel_fillPlain (scope : Scope) (path : Text) : OneLevel (fillPlain scope path) :=
  .bind (.ofExcept _) oneLevel_payAndDisplay

theorem oneLevel_fillFiltered (filters : Registry) (scope : Scope) (placeholder : Filtered) :
    OneLevel (fillFiltered filters scope placeholder) := by
  refine .bind (.ofExcept _) fun value => ?_
  exact .bind (oneLevel_applyChain filters value _) oneLevel_payAndDisplay

theorem oneLevel_plainStage (template : Text) (scope : Scope) :
    OneLevel (plainStage template scope) :=
  .bind (.reads _ _ rfl) fun _ => oneLevel_substitute (oneLevel_fillPlain scope) _ _

theorem oneLevel_filteredStage (filters : Registry) (template : Text) (scope : Scope) :
    OneLevel (filteredStage filters template scope) :=
  .bind (.reads _ _ rfl) fun _ => oneLevel_substitute (oneLevel_fillFiltered filters scope) _ _

/-! ## Conditions -/

theorem oneLevel_judge (scope : Scope) (argument : Text) : OneLevel (judge scope argument) := by
  unfold judge
  cases Condition.ofText argument with
  | unsupported t => exact .bind (.note _ rfl) fun _ => .ofExcept _
  | path p => exact .ofExcept _
  | comparison p n l => exact .ofExcept _
  | negation p => exact .ofExcept _

end Stencil
