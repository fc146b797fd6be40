import Stencil.Proofs.Render.Course

/-!
# What a render counts

What a render does next depends on its counters alone: the limits, the depth, the substitutions so
far, and whether a limit has been reached.  `Counters` is the state without what is only written,
the notices and the history.

Substitutions are asked for one at a time, and granted as long as the budget lasts.  What becomes of
the counters depends only on how many are asked for (`Counters.charge_charge`).
-/

namespace Stencil

/-- The state of a render without its notices and its history. -/
structure Counters where
  limits : Limits
  depth : Nat
  substitutions : Nat
  exhausted : Bool

namespace Counters

/-- How many substitutions are left. -/
def left (c : Counters) : Nat :=
  c.limits.maxSubstitutions - c.substitutions

/-- A limit has been reached. -/
def exhaust (c : Counters) : Counters :=
  { c with exhausted := true }

/-- A substitution has been granted. -/
def pay (c : Counters) : Counters :=
  { c with substitutions := c.substitutions + 1 }

def enter (c : Counters) : Counters :=
  { c with depth := c.depth + 1 }

def leave (c : Counters) : Counters :=
  { c with depth := c.depth - 1 }

/-- A number of substitutions have been asked for, and granted as far as the budget goes. -/
def charge (n : Nat) (c : Counters) : Counters :=
  { c with
    substitutions := c.substitutions + min c.left n
    exhausted := c.exhausted || decide (c.left < n) }

theorem left_pos_iff (c : Counters) :
    0 < c.left ↔ c.substitutions < c.limits.maxSubstitutions :=
  Nat.sub_pos_iff_lt

theorem charge_zero (c : Counters) : c.charge 0 = c := by
  simp [charge]

theorem left_charge (n : Nat) (c : Counters) : (c.charge n).left = c.left - n := by
  have h : (c.charge n).left = c.limits.maxSubstitutions - (c.substitutions + min c.left n) := rfl
  have hleft : c.left = c.limits.maxSubstitutions - c.substitutions := rfl
  omega

/-- Charges add up. -/
theorem charge_charge (m n : Nat) (c : Counters) : (c.charge m).charge n = c.charge (m + n) := by
  have hleft := left_charge m c
  have hsubstitutions : c.substitutions + min c.left m + min (c.left - m) n
      = c.substitutions + min c.left (m + n) := by
    omega
  have hexhausted : (c.left < m ∨ c.left - m < n) ↔ c.left < m + n := by
    omega
  unfold charge at hleft ⊢
  simp only [hleft, hsubstitutions, Bool.or_assoc, ← Bool.decide_or, hexhausted]

/-- While the budget lasts, a charge only counts. -/
theorem charge_one_of_left {c : Counters} (h : 0 < c.left) : c.charge 1 = c.pay := by
  have hcount : min c.left 1 = 1 := by omega
  have hwithin : ¬ c.left < 1 := by omega
  simp [charge, pay, hcount, hwithin]

/-- Once it is spent, a charge only shows. -/
theorem charge_one_of_spent {c : Counters} (h : ¬ 0 < c.left) : c.charge 1 = c.exhaust := by
  have hleft : c.left = 0 := by omega
  simp [charge, exhaust, hleft]

end Counters

namespace State

def counters (s : State) : Counters :=
  ⟨s.limits, s.depth, s.substitutions, s.exhausted⟩

theorem counters_exhaust (s : State) (n : Notice) :
    (s.exhaust n).counters = s.counters.exhaust := by
  cases h : s.exhausted <;> simp [exhaust, counters, Counters.exhaust, note, h]

end State

namespace Render

variable {α β : Type}

/-- A sequence returns where its parts do, one after the other. -/
theorem bind_eq_ok_iff {x : Render α} {f : α → Render β} {s t : State} {b : β} :
    (x >>= f) s = .ok b t ↔ ∃ a u, x s = .ok a u ∧ f a u = .ok b t := by
  cases hx : x s with
  | ok a u =>
    rw [bind_of_ok hx]
    constructor
    · exact fun h => ⟨a, u, rfl, h⟩
    · rintro ⟨a, u, he, h⟩
      cases he
      exact h
  | error e u =>
    rw [bind_of_error hx]
    simp

/-- From every state a run ends like this, and leaves the counters as they are. -/
def Finds (x : Render α) (r : Except Failure α) : Prop :=
  ∀ s, outcome (x s) = r ∧ (x.endState s).counters = s.counters

theorem finds_pure (a : α) : Finds (pure a) (.ok a) :=
  fun _ => ⟨rfl, rfl⟩

theorem finds_ofExcept (r : Except Failure α) : Finds (ofExcept r) r := by
  intro s
  cases r <;> exact ⟨rfl, rfl⟩

theorem finds_note (n : Notice) : Finds (note n) (.ok ()) :=
  fun _ => ⟨rfl, rfl⟩

theorem Finds.exists_ok {x : Render α} {a : α} (h : Finds x (.ok a)) (s : State) :
    ∃ t, x s = .ok a t ∧ t.counters = s.counters := by
  obtain ⟨hout, hcounters⟩ := h s
  exact ⟨_, eq_ok_of_outcome hout, hcounters⟩

theorem Finds.exists_error {x : Render α} {e : Failure} (h : Finds x (.error e)) (s : State) :
    ∃ t, x s = .error e t ∧ t.counters = s.counters := by
  obtain ⟨hout, hcounters⟩ := h s
  exact ⟨_, eq_error_of_outcome hout, hcounters⟩

theorem finds_bind {x : Render α} {f : α → Render β} {r : Except Failure α}
    {q : α → Except Failure β} (hx : Finds x r) (hf : ∀ a, Finds (f a) (q a)) :
    Finds (x >>= f) (r >>= q) := by
  intro s
  cases r with
  | ok a =>
    obtain ⟨t, ht, hcounters⟩ := hx.exists_ok s
    obtain ⟨hout, hend⟩ := hf a t
    rw [endState_bind_of_ok ht, bind_of_ok ht]
    exact ⟨hout, hend.trans hcounters⟩
  | error e =>
    obtain ⟨t, ht, hcounters⟩ := hx.exists_error s
    rw [endState_of_error (bind_of_error ht), bind_of_error ht]
    exact ⟨rfl, hcounters⟩

/-- A substitution is granted while some are left, and either way it is charged for. -/
theorem exists_spend (s : State) :
    ∃ t, spend s = .ok (decide (0 < s.counters.left)) t ∧ t.counters = s.counters.charge 1 := by
  by_cases h : 0 < s.counters.left
  · rw [spend_of_lt (s.counters.left_pos_iff.mp h), decide_eq_true h]
    exact ⟨_, rfl, (Counters.charge_one_of_left h).symm⟩
  · rw [spend_of_not_lt (mt s.counters.left_pos_iff.mpr h), decide_eq_false h]
    refine ⟨_, rfl, ?_⟩
    rw [State.counters_exhaust, Counters.charge_one_of_spent h]

end Render

end Stencil
