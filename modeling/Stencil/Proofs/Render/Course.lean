import Stencil.Render.Pipeline

/-!
# The course of a run

What a run does to the state, whether it returns or fails.  `State.Advance` relates the states
before and after: the limits and the depth are the same, the substitutions have grown within the
budget, a render that was exhausted still is, notices and history have only been added to, a new
warning stands for the moment of exhaustion, and no depth on record is beyond the limit.

The relation is reflexive and transitive (`State.Advance.refl`, `State.Advance.trans`), so that a
program has it (`Render.Advances`) if its steps do: `advances_pure` to `advances_spend` are about the
single operations, `advances_bind` puts them together, and `State.Advance.of_enter` is about work
that is done one level deeper.
-/

namespace Stencil

/-- How many of the notices are warnings. -/
def warnings (notices : List Notice) : Nat :=
  notices.countP fun n => n.level = .warning

theorem warnings_append (new old : List Notice) :
    warnings (new ++ old) = warnings new + warnings old :=
  List.countP_append

/-- What work one level deeper puts on record stands between the two depths that the render comes
to. -/
theorem State.history_leave {s t : State} {new : List Event}
    (h : t.history = new ++ s.enter.history) : t.leave.history
      = .depth (t.depth - 1) :: (new ++ [.depth (s.depth + 1)]) ++ s.history := by
  show Event.depth (t.depth - 1) :: t.history = _
  rw [h]
  simp [State.enter, State.record]

/-- What holds between the states before and after a run. -/
structure State.Advance (before after : State) : Prop where
  limits : after.limits = before.limits
  depth : after.depth = before.depth
  substitutions_le : before.substitutions ≤ after.substitutions
  le_budget : after.substitutions ≤ max before.substitutions before.limits.maxSubstitutions
  exhausted : before.exhausted = true → after.exhausted = true
  /-- There is one new warning if the run has exhausted a limit, and none otherwise. -/
  notices : ∃ new, after.notices = new ++ before.notices ∧
    warnings new = if before.exhausted = after.exhausted then 0 else 1
  /-- No depth that the run has come to is beyond both the first one and the limit. -/
  history : ∃ new, after.history = new ++ before.history ∧
    ∀ n, .depth n ∈ new → n ≤ max before.depth before.limits.maxDepth

namespace State.Advance

theorem refl (s : State) : s.Advance s where
  limits := rfl
  depth := rfl
  substitutions_le := Nat.le_refl _
  le_budget := by omega
  exhausted := id
  notices := ⟨[], rfl, by simp [warnings]⟩
  history := ⟨[], rfl, by simp⟩

theorem trans {a b c : State} (h : a.Advance b) (g : b.Advance c) : a.Advance c where
  limits := g.limits.trans h.limits
  depth := g.depth.trans h.depth
  substitutions_le := Nat.le_trans h.substitutions_le g.substitutions_le
  le_budget := by
    have h1 := h.le_budget
    have h2 := g.le_budget
    rw [h.limits] at h2
    omega
  exhausted := fun ha => g.exhausted (h.exhausted ha)
  notices := by
    obtain ⟨new1, h1, w1⟩ := h.notices
    obtain ⟨new2, h2, w2⟩ := g.notices
    refine ⟨new2 ++ new1, by rw [h2, h1, List.append_assoc], ?_⟩
    rw [warnings_append, w1, w2]
    -- exhaustion happens in one of the two parts at most
    have e1 := h.exhausted
    have e2 := g.exhausted
    cases ha : a.exhausted <;> cases hb : b.exhausted <;> cases hc : c.exhausted <;> simp_all
  history := by
    obtain ⟨new1, h1, d1⟩ := h.history
    obtain ⟨new2, h2, d2⟩ := g.history
    refine ⟨new2 ++ new1, by rw [h2, h1, List.append_assoc], fun n hn => ?_⟩
    rcases List.mem_append.mp hn with hn | hn
    · have := d2 n hn
      rwa [h.limits, h.depth] at this
    · exact d1 n hn

/-- How many levels are left is the same after a run as before. -/
theorem room {s t : State} (h : s.Advance t) : t.room = s.room := by
  unfold State.room
  rw [h.limits, h.depth]

/-- One level deeper a run advances as it does here, if there is such a level. -/
theorem of_enter {s t : State} (hroom : s.room ≠ 0) (h : s.enter.Advance t) :
    s.Advance t.leave := by
  have hd : t.depth = s.depth + 1 := h.depth
  have hlt : s.depth < s.limits.maxDepth := by unfold State.room at hroom; omega
  refine ⟨h.limits, ?_, h.substitutions_le, h.le_budget, h.exhausted, h.notices, ?_⟩
  · show t.depth - 1 = s.depth
    omega
  · obtain ⟨new, hnew, hle⟩ := h.history
    refine ⟨_, history_leave hnew, fun n hn => ?_⟩
    have hbound := hle n
    simp only [State.enter, State.record] at hbound
    simp only [List.mem_cons, List.mem_append, Event.depth.injEq, List.not_mem_nil,
      or_false] at hn
    rcases hn with hn | hn | hn
    · omega
    · have := hbound hn
      omega
    · omega

end State.Advance

namespace Render

variable {α β : Type}

/-- What a run has returned, or why it has failed. -/
def outcome : EStateM.Result Failure State α → Except Failure α
  | .ok a _ => .ok a
  | .error e _ => .error e

/-- The state that a run ends in. -/
def endState (x : Render α) (s : State) : State :=
  match x s with
  | .ok _ s => s
  | .error _ s => s

theorem endState_of_ok {x : Render α} {s t : State} {a : α} (h : x s = .ok a t) :
    x.endState s = t := by
  unfold endState
  rw [h]

theorem endState_of_error {x : Render α} {s t : State} {e : Failure} (h : x s = .error e t) :
    x.endState s = t := by
  unfold endState
  rw [h]

theorem eq_ok_of_outcome {x : Render α} {s : State} {a : α} (h : outcome (x s) = .ok a) :
    x s = .ok a (x.endState s) := by
  unfold endState
  cases hx : x s with
  | ok b t =>
    rw [hx] at h
    cases h
    rfl
  | error e t =>
    rw [hx] at h
    cases h

theorem eq_error_of_outcome {x : Render α} {s : State} {e : Failure}
    (h : outcome (x s) = .error e) : x s = .error e (x.endState s) := by
  unfold endState
  cases hx : x s with
  | ok a t =>
    rw [hx] at h
    cases h
  | error d t =>
    rw [hx] at h
    cases h
    rfl

theorem bind_of_ok {x : Render α} {f : α → Render β} {s t : State} {a : α} (h : x s = .ok a t) :
    (x >>= f) s = f a t := by
  show EStateM.bind x f s = _
  unfold EStateM.bind
  rw [h]

theorem bind_of_error {x : Render α} {f : α → Render β} {s t : State} {e : Failure}
    (h : x s = .error e t) : (x >>= f) s = .error e t := by
  show EStateM.bind x f s = _
  unfold EStateM.bind
  rw [h]

theorem endState_bind_of_ok {x : Render α} {f : α → Render β} {s t : State} {a : α}
    (h : x s = .ok a t) : (x >>= f).endState s = (f a).endState t := by
  unfold endState
  rw [bind_of_ok h]

/-- What holds where a sequence can end holds where it ends. -/
theorem endState_bind {x : Render α} {f : α → Render β} {s : State} {motive : State → Prop}
    (hok : ∀ a t, x s = .ok a t → motive ((f a).endState t))
    (herror : ∀ e t, x s = .error e t → motive t) : motive ((x >>= f).endState s) := by
  cases hr : x s with
  | ok a t =>
    rw [endState_bind_of_ok hr]
    exact hok a t hr
  | error e t =>
    rw [endState_of_error (bind_of_error hr)]
    exact herror e t hr

theorem bind_congr_left {x y : Render α} {s : State} (h : x s = y s) (f : α → Render β) :
    (x >>= f) s = (y >>= f) s := by
  show EStateM.bind x f s = EStateM.bind y f s
  unfold EStateM.bind
  rw [h]

theorem eq_ok_of_ofExcept {r : Except Failure α} {s t : State} {a : α}
    (h : ofExcept r s = .ok a t) : r = .ok a := by
  cases r with
  | ok b =>
    cases h
    rfl
  | error e => cases h

theorem eq_error_of_ofExcept {r : Except Failure α} {s t : State} {e : Failure}
    (h : ofExcept r s = .error e t) : r = .error e := by
  cases r with
  | ok a => cases h
  | error d =>
    cases h
    rfl

/-- Every run from a state with this many levels left advances the state. -/
def Advances (room : Nat) (x : Render α) : Prop :=
  ∀ s : State, s.room = room → s.Advance (x.endState s)

theorem advances_pure (room : Nat) (a : α) : Advances room (pure a : Render α) :=
  fun s _ => .refl s

theorem advances_bind {room : Nat} {x : Render α} {f : α → Render β} (hx : Advances room x)
    (hf : ∀ a, Advances room (f a)) : Advances room (x >>= f) := by
  intro s hs
  have h := hx s hs
  refine endState_bind (fun a t hr => ?_) fun e t hr => endState_of_error hr ▸ h
  rw [endState_of_ok hr] at h
  exact h.trans (hf a t (h.room.trans hs))

/-- A limit that a part of a run reaches is still on record when the run is over. -/
theorem not_exhausted_of_bind {room : Nat} {x : Render α} {f : α → Render β} {s t : State} {a : α}
    (hf : Advances room (f a)) (ht : t.room = room) (hr : x s = .ok a t)
    (hend : ((x >>= f).endState s).exhausted = false) :
    t.exhausted = false ∧ ((f a).endState t).exhausted = false := by
  have hendf : ((f a).endState t).exhausted = false := by
    unfold endState at hend ⊢
    rwa [bind_of_ok hr] at hend
  refine ⟨?_, hendf⟩
  cases he : t.exhausted with
  | false => rfl
  | true =>
    rw [(hf t ht).exhausted he] at hendf
    cases hendf

theorem advances_ofExcept (room : Nat) (r : Except Failure α) : Advances room (ofExcept r) := by
  intro s _
  cases r <;> exact .refl s

theorem advances_reads (room : Nat) (stage : Stage) (text : Text) :
    Advances room (reads stage text) := by
  intro s _
  refine { State.Advance.refl s with history := ⟨[.reads stage text], rfl, by simp⟩ }

/-- A notice that is no warning may be added at any time. -/
theorem advances_note (room : Nat) {n : Notice} (hn : n.level ≠ .warning) :
    Advances room (note n) := by
  intro s _
  refine { State.Advance.refl s with notices := ⟨[n], rfl, ?_⟩ }
  have : (note n).endState s = s.note n := rfl
  simp [this, State.note, warnings, hn]

theorem exhausted_exhaust (s : State) (n : Notice) : (s.exhaust n).exhausted = true := by
  unfold State.exhaust
  split
  · assumption
  · rfl

/-- Reaching a limit is a warning the first time, and nothing after that. -/
theorem advance_exhaust (s : State) {n : Notice} (hn : n.level = .warning) :
    s.Advance (s.exhaust n) := by
  unfold State.exhaust
  split
  · exact .refl s
  · refine { State.Advance.refl s with exhausted := fun _ => rfl, notices := ⟨[n], rfl, ?_⟩ }
    simp_all [warnings]

theorem spend_eq (s : State) : spend s =
    if s.substitutions < s.limits.maxSubstitutions then
      .ok true { s with substitutions := s.substitutions + 1 }
    else .ok false (s.exhaust (.substitutionLimit s.limits.maxSubstitutions)) := by
  show (if s.substitutions < s.limits.maxSubstitutions then
    (do set { s with substitutions := s.substitutions + 1 }; return true : Render Bool)
    else do
      set (s.exhaust (.substitutionLimit s.limits.maxSubstitutions))
      return false) s = _
  split <;> rfl

theorem spend_of_lt {s : State} (h : s.substitutions < s.limits.maxSubstitutions) :
    spend s = .ok true { s with substitutions := s.substitutions + 1 } := by
  rw [spend_eq, if_pos h]

theorem spend_of_not_lt {s : State} (h : ¬ s.substitutions < s.limits.maxSubstitutions) :
    spend s = .ok false (s.exhaust (.substitutionLimit s.limits.maxSubstitutions)) := by
  rw [spend_eq, if_neg h]

/-- What holds where a substitution is granted, and where it is not, holds after asking for one. -/
theorem endState_spend {s : State} {motive : State → Prop}
    (hpaid : s.substitutions < s.limits.maxSubstitutions →
      motive { s with substitutions := s.substitutions + 1 })
    (hspent : motive (s.exhaust (.substitutionLimit s.limits.maxSubstitutions))) :
    motive (spend.endState s) := by
  by_cases h : s.substitutions < s.limits.maxSubstitutions
  · rw [endState_of_ok (spend_of_lt h)]
    exact hpaid h
  · rw [endState_of_ok (spend_of_not_lt h)]
    exact hspent

theorem advances_spend (room : Nat) : Advances room spend := by
  intro s _
  refine endState_spend (fun h => ?_) (advance_exhaust s rfl)
  refine { State.Advance.refl s with substitutions_le := ?_, le_budget := ?_ }
  · exact Nat.le_succ _
  · show s.substitutions + 1 ≤ _
    omega

theorem mayDescend_eq (s : State) : mayDescend s =
    if s.room = 0 then .ok false (s.exhaust (.nestingLimit s.limits.maxDepth)) else .ok true s := by
  show (if s.room = 0 then (do refuse; return false : Render Bool) else (return true)) s = _
  split <;> rfl

/-- Where the work is missing just if no level is left, going deeper comes to asking first whether
that may be done. -/
theorem descend_eq_of_mayDescend {work : Option (Render Text)} {s : State}
    (h : work = none ↔ s.room = 0) :
    descend work s = (do
      if ← mayDescend then work.elim (pure []) deeper else return []) s := by
  have hasked := mayDescend_eq s
  cases work with
  | none =>
    rw [if_pos (h.mp rfl)] at hasked
    rw [bind_of_ok hasked]
    rfl
  | some w =>
    rw [if_neg fun hroom => nomatch h.mpr hroom] at hasked
    rw [bind_of_ok hasked]
    rfl

theorem room_enter {room : Nat} {s : State} (hs : s.room = room + 1) : s.enter.room = room := by
  show s.limits.maxDepth - (s.depth + 1) = room
  unfold State.room at hs
  omega

theorem endState_deeper (work : Render α) (s : State) :
    (deeper work).endState s = (work.endState s.enter).leave := by
  unfold endState deeper
  cases work s.enter <;> rfl

end Render

end Stencil
