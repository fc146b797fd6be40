import Stencil.Proofs.Render.SameCourse
import Stencil.Proofs.Value.Leaves

/-!
# Causes of failure

With the filters that are always there, two things can fail in a render, and each has a cause in what
the render is given (`Cause`): a part of the data that cannot be written, or a path, in a text that a
stage reads, that indexes a sequence by an overlong numeral.

    resolve   fails where a path overindexes  (cause_of_resolve)
    display   fails at a part of the data     (Value.Sourced.display)

A value that is written has come a long way: it was found in the scope of some turn, and filters have
been at it.  What is known of it on the way is `Value.Sourced`: whatever in it cannot be written is a
part of the data.
-/

namespace Stencil

/-! ## Causes -/

/-- A path that stands in a text comes to a sequence, in the scope of some turn, and goes on with
a numeral that is too long for an index. -/
def Overindexes (scope : Scope) (text segment : Text) : Prop :=
  ∃ (inner : Scope) (path : Text) (front rest : List Text) (kind : SequenceKind)
    (items : List Value), scope.Derived inner ∧ path <:+: text ∧
    path.strip.splitOn '.' = front ++ segment :: rest ∧
    (Value.mapping inner).follow front = .ok (some (.sequence kind items)) ∧
    segment.isNumeral = true ∧ maxDigits < segment.length

/-- What a failure comes from, in a render of which some texts are read. -/
inductive Cause (reads : Stage → Text → Prop) (scope : Scope) : Failure → Prop
  /-- A part of the data cannot be written. -/
  | unwritable {reason : Text} (part : (Value.broken reason).Within (.mapping scope)) :
      Cause reads scope (.unwritable reason)
  /-- A path indexes a sequence by an overlong numeral. -/
  | indexTooLong {stage : Stage} {text segment : Text} (read : reads stage text)
      (overindexes : Overindexes scope text segment) :
      Cause reads scope (.indexTooLong segment.length)

variable {reads : Stage → Text → Prop} {scope inner : Scope}

/-- Where a path of a text that has been read cannot be followed, there is a cause. -/
theorem cause_of_resolve (hinner : scope.Derived inner) {stage : Stage} {text path : Text}
    (hread : reads stage text) (hpath : path <:+: text) {e : Failure}
    (h : inner.resolve path = .error e) : Cause reads scope e := by
  obtain ⟨front, segment, rest, kind, items, hsegments, hfront, hnumeral, hlong, rfl⟩ :=
    exists_index_of_follow h
  exact .indexTooLong hread
    ⟨inner, path, front, rest, kind, items, hinner, hpath, hsegments, hfront, hnumeral, hlong⟩

/-! ## Values on their way -/

namespace Value

/-- The integers in a value can be written, and what else cannot be written is a part of the data. -/
structure Sourced (scope : Scope) (v : Value) : Prop where
  shortIntegers : v.ShortIntegers
  broken : ∀ reason, (Value.broken reason).Within v → (Value.broken reason).Within (.mapping scope)

theorem Sourced.of_within (hs : (Value.mapping scope).ShortIntegers) {v : Value}
    (h : v.Within (.mapping scope)) : v.Sourced scope where
  shortIntegers := hs.within h
  broken _ hb := hb.trans h

theorem Sourced.within {v w : Value} (h : w.Sourced scope) (hv : v.Within w) : v.Sourced scope where
  shortIntegers := h.shortIntegers.within hv
  broken reason hb := h.broken reason (hb.trans hv)

theorem Sourced.of_writable {v : Value} (h : v.Writable) : v.Sourced scope where
  shortIntegers := h.shortIntegers
  broken reason hb := by
    obtain ⟨t, ht⟩ := h.within hb
    cases ht

/-- **A value fails where the data does.** -/
theorem Sourced.display {v : Value} (h : v.Sourced scope) :
    FailsOnly (Cause reads scope) v.display fun _ => True := by
  cases hr : v.display with
  | ok t => exact trivial
  | error e =>
    obtain ⟨reason, rfl, hbroken⟩ := exists_broken_of_display v h.shortIntegers e hr
    exact .unwritable (h.broken reason hbroken)

theorem Sourced.displayItems {kind : SequenceKind} {items : List Value}
    (h : (Value.sequence kind items).Sourced scope) :
    FailsOnly (Cause reads scope) (Value.displayItems items) fun _ => True := by
  cases hr : Value.displayItems items with
  | ok ts => exact trivial
  | error e =>
    have hitem (v : Value) (hv : v ∈ items) : v.Sourced scope := h.within (.item hv (.refl v))
    obtain ⟨v, hv, reason, rfl, hbroken⟩ :=
      exists_broken_of_displayItems items (fun v hv => (hitem v hv).shortIntegers) e hr
    exact .unwritable ((hitem v hv).broken reason hbroken)

end Value

/-- Values on their way fail where the data does. -/
theorem writingFails_sourced : WritingFails (Cause reads scope) (Value.Sourced scope) where
  of_writable _ := .of_writable
  display _ h := h.display
  displayItems _ _ h := h.displayItems

/-- There is nothing, or a value of which the parts that cannot be written are parts of the data. -/
def SourcedIn (scope : Scope) (value : Option Value) : Prop :=
  ∀ v ∈ value, v.Sourced scope

end Stencil
