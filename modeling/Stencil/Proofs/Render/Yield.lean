import Stencil.Proofs.Render.Course

/-!
# What a run yields within its limits

A run that is not stopped by a limit yields a value, or fails, and which of the two says a value or
none (`Render.Yields`); what it does to the counters is not looked at.  Whether a limit is reached
shows in the state at the end, for that is never taken back: so a sequence yields what its parts
yield (`yields_bind`), each of which stays within the limits if the whole does.
-/

namespace Stencil

namespace Render

variable {α β : Type} {room : Nat}

/-- The value that a run has returned, if it has not failed. -/
def result? : EStateM.Result Failure State α → Option α
  | .ok a _ => some a
  | .error _ _ => none

/-- Where a run reaches no limit, it returns the value, or fails if there is none. -/
def Yields (room : Nat) (x : Render α) (r : Option α) : Prop :=
  ∀ s : State, s.room = room → (x.endState s).exhausted = false → result? (x s) = r

theorem yields_pure (room : Nat) (a : α) : Yields room (pure a) (some a) :=
  fun _ _ _ => rfl

theorem yields_bind {x : Render α} {f : α → Render β} {r : Option α} {q : α → Option β}
    (hadv : Advances room x) (hadvf : ∀ a, Advances room (f a)) (hx : Yields room x r)
    (hf : ∀ a, r = some a → Yields room (f a) (q a)) : Yields room (x >>= f) (r.bind q) := by
  intro s hs hend
  cases hr : x s with
  | ok a t =>
    have hat := hadv s hs
    rw [endState_of_ok hr] at hat
    have ht : t.room = room := hat.room.trans hs
    obtain ⟨hexh, hendf⟩ := not_exhausted_of_bind (hadvf a) ht hr hend
    have hxa := hx s hs (by rwa [endState_of_ok hr])
    rw [hr] at hxa
    subst hxa
    rw [bind_of_ok hr]
    exact hf a rfl t ht hendf
  | error e t =>
    rw [endState_of_error (bind_of_error hr)] at hend
    have hxe := hx s hs (by rwa [endState_of_error hr])
    rw [hr] at hxe
    subst hxe
    rw [bind_of_error hr]
    rfl

/-- The same where the first part yields an image of something. -/
theorem yields_bind_map {γ : Type} {x : Render α} {f : α → Render β} {r : Option γ} {g : γ → α}
    {q : γ → Option β} (hadv : Advances room x) (hadvf : ∀ a, Advances room (f a))
    (hx : Yields room x (r.map g)) (hf : ∀ c, r = some c → Yields room (f (g c)) (q c)) :
    Yields room (x >>= f) (r.bind q) := by
  cases r with
  | none => exact yields_bind (q := fun _ => none) hadv hadvf hx fun _ h => by cases h
  | some c =>
    exact yields_bind (q := fun _ => q c) hadv hadvf hx fun a ha => by
      cases ha
      exact hf c rfl

theorem yields_map {x : Render α} {f : α → β} {r : Option α} (hx : Yields room x r) :
    Yields room (x >>= fun a => pure (f a)) (r.map f) := by
  intro s hs hend
  cases hr : x s with
  | ok a t =>
    rw [endState_bind_of_ok hr] at hend
    have hxa := hx s hs (by rw [endState_of_ok hr]; exact hend)
    rw [hr] at hxa
    subst hxa
    rw [bind_of_ok hr]
    rfl
  | error e t =>
    rw [endState_of_error (bind_of_error hr)] at hend
    have hxe := hx s hs (by rw [endState_of_error hr]; exact hend)
    rw [hr] at hxe
    subst hxe
    rw [bind_of_error hr]
    rfl

theorem yields_ofExcept (room : Nat) (r : Except Failure α) :
    Yields room (ofExcept r) r.toOption := by
  intro s _ _
  cases r <;> rfl

/-- What follows a result goes on with it in the same state. -/
theorem yields_ofExcept_bind {r : Except Failure α} {f : α → Render β} {q : α → Option β}
    (hf : ∀ a, r = .ok a → Yields room (f a) (q a)) :
    Yields room (ofExcept r >>= f) (r.toOption.bind q) := by
  cases r with
  | ok a => exact fun s hs hend => hf a rfl s hs hend
  | error e => exact fun _ _ _ => rfl

/-- A notice does not matter for what comes after it. -/
theorem yields_after_note (n : Notice) {x : Render α} {r : Option α} (hx : Yields room x r) :
    Yields room (do note n; x) r :=
  fun s hs hend => hx (s.note n) hs hend

/-- Nor does a reading. -/
theorem yields_after_reads (stage : Stage) (t : Text) {x : Render α} {r : Option α}
    (hx : Yields room x r) : Yields room (do reads stage t; x) r :=
  fun s hs hend => hx (s.record (.reads stage t)) hs hend

/-- Within the limits everything can be paid for. -/
theorem yields_spend (room : Nat) : Yields room spend (some true) := by
  intro s _ hend
  by_cases h : s.substitutions < s.limits.maxSubstitutions
  · rw [spend_of_lt h]
    rfl
  · rw [endState_of_ok (spend_of_not_lt h), exhausted_exhaust] at hend
    cases hend

theorem yields_deeper {work : Render α} {r : Option α} (h : Yields room work r) :
    Yields (room + 1) (deeper work) r := by
  intro s hs hend
  rw [endState_deeper] at hend
  have hwork : result? (deeper work s) = result? (work s.enter) := by
    unfold deeper
    cases work s.enter <;> rfl
  rw [hwork]
  exact h s.enter (room_enter hs) hend

/-- Within the limits there is always a level below for what is to be done there. -/
theorem yields_descend {work : Option (Render Text)} {r : Option Text}
    (h : ∀ w, work = some w → ∃ below, room = below + 1 ∧ Yields below w r) :
    Yields room (descend work) r := by
  cases work with
  | some w =>
    obtain ⟨below, rfl, hw⟩ := h w rfl
    exact yields_deeper hw
  | none =>
    intro s _ hend
    have hstate : (descend none).endState s = s.exhaust (.nestingLimit s.limits.maxDepth) := rfl
    rw [hstate, exhausted_exhaust] at hend
    cases hend

end Render

/-- What comes out of a render is the text that the stages return, or the template if they fail. -/
theorem render_output_eq (filters : Registry) (limits : Limits) (template : Text) (scope : Scope) :
    (render filters limits template scope).output
      = (Render.result?
        (renderWithin filters limits.maxDepth template scope { limits := limits })).getD template
    := by
  have hrun : (renderStages filters template scope).run { limits := limits }
      = renderWithin filters limits.maxDepth template scope { limits := limits } := rfl
  unfold render
  rw [hrun]
  cases renderWithin filters limits.maxDepth template scope { limits := limits } <;> rfl

end Stencil
