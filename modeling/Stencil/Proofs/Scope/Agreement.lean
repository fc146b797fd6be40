import Stencil.Markup.BlockArgument
import Stencil.Scope

/-!
# Scopes that agree on names

A path is looked up by its first segment, its head; only that name is asked of the scope
(`Scope.resolve_congr`).  So scopes that bind the names of a class alike (`Scope.AgreeOn`) cannot be
told apart by paths whose heads are in the class, and binding one more name keeps it so
(`Scope.AgreeOn.bind`).  The name that is bound needs not even be in the class
(`Scope.AgreeOn.bind_self`): what it meant before is out of sight.  All that is found in a scope
stands in its entries (`Scope.exists_mem_of_find?`), and binding a name adds one entry at most
(`Scope.mem_of_mem_bind`).
-/

namespace Stencil

/-- The first segment of a path. -/
def Text.pathHead (path : Text) : Text :=
  path.strip.takeWhile (· != '.')

theorem splitOn_eq_cons (t : Text) : ∃ rest, t.splitOn '.' = t.takeWhile (· != '.') :: rest := by
  induction t with
  | nil => exact ⟨[], rfl⟩
  | cons c t ih =>
    obtain ⟨rest, ih⟩ := ih
    rw [List.splitOn_cons_eq_if_modifyHead]
    by_cases hc : c = '.'
    · subst hc
      exact ⟨t.splitOn '.', rfl⟩
    · refine ⟨rest, ?_⟩
      rw [if_neg (by simpa using hc), ih, List.modifyHead_cons,
        List.takeWhile_cons_of_pos (by simpa using hc)]

namespace Scope

/-- The head of a path is looked up in the scope, and the other segments in what it names. -/
theorem resolve_eq (path : Text) : ∃ rest, path.strip.splitOn '.' = path.pathHead :: rest ∧
    ∀ s : Scope, s.resolve path =
      match s.find? path.pathHead with
      | none => .ok none
      | some v => v.follow rest := by
  obtain ⟨rest, h⟩ := splitOn_eq_cons path.strip
  refine ⟨rest, h, fun s => ?_⟩
  unfold resolve
  rw [h]
  show (match s.find? path.pathHead with
    | none => pure none
    | some part => part.follow rest) = _
  cases s.find? path.pathHead <;> rfl

theorem resolve_congr {s₁ s₂ : Scope} {path : Text}
    (h : s₁.find? path.pathHead = s₂.find? path.pathHead) : s₁.resolve path = s₂.resolve path := by
  obtain ⟨rest, -, hr⟩ := resolve_eq path
  rw [hr, hr, h]

/-- What is found under a name is the value of an entry. -/
theorem exists_mem_of_find? {name : Text} {s : Scope} {v : Value} (h : s.find? name = some v) :
    ∃ k, (k, v) ∈ s := by
  induction s with
  | nil => cases h
  | cons e s ih =>
    have hrest (h : find? name s = some v) : ∃ k, (k, v) ∈ e :: s := by
      obtain ⟨k, hk⟩ := ih h
      exact ⟨k, List.mem_cons_of_mem _ hk⟩
    obtain ⟨k, u⟩ := e
    cases k with
    | text k =>
      unfold find? at h
      split at h
      · cases h
        exact ⟨_, List.mem_cons_self⟩
      · exact hrest h
    | _ => exact hrest h

/-- Binding a name adds no other entry than the one for the name. -/
theorem mem_of_mem_bind {name : Text} {v : Value} {s : Scope} {e : Key × Value}
    (h : e ∈ s.bind name v) : e = (.text name, v) ∨ e ∈ s := by
  induction s using Scope.bind.induct name with
  | case1 => exact .inl (List.mem_singleton.mp h)
  | case2 u s =>
    unfold Scope.bind at h
    rw [if_pos rfl] at h
    exact (List.mem_cons.mp h).imp_right (List.mem_cons_of_mem _)
  | case3 k u s hne ih =>
    unfold Scope.bind at h
    rw [if_neg hne] at h
    rcases List.mem_cons.mp h with rfl | h
    · exact .inr List.mem_cons_self
    · exact (ih h).imp_right (List.mem_cons_of_mem _)
  | case4 f s hne ih =>
    obtain ⟨k, u⟩ := f
    cases k with
    | text k => exact absurd rfl (hne k u)
    | _ =>
      rcases List.mem_cons.mp h with rfl | h
      · exact .inr List.mem_cons_self
      · exact (ih h).imp_right (List.mem_cons_of_mem _)

/-- The scopes bind the names of a class alike. -/
def AgreeOn (names : Text → Prop) (s₁ s₂ : Scope) : Prop :=
  ∀ name, names name → s₁.find? name = s₂.find? name

variable {names : Text → Prop} {s₁ s₂ : Scope}

theorem AgreeOn.resolve (h : AgreeOn names s₁ s₂) {path : Text} (hp : names path.pathHead) :
    s₁.resolve path = s₂.resolve path :=
  resolve_congr (h _ hp)

/-- Once a name is bound, scopes agree on it too. -/
theorem AgreeOn.bind_or (h : AgreeOn names s₁ s₂) (name : Text) (value : Value) :
    AgreeOn (fun other => other = name ∨ names other) (s₁.bind name value)
      (s₂.bind name value) := by
  intro other ho
  by_cases he : other = name
  · subst he
    rw [find?_bind_self, find?_bind_self]
  · rw [find?_bind_of_ne value s₁ he, find?_bind_of_ne value s₂ he]
    exact h other (ho.resolve_left he)

theorem AgreeOn.bind (h : AgreeOn names s₁ s₂) (name : Text) (value : Value) :
    AgreeOn names (s₁.bind name value) (s₂.bind name value) :=
  fun other ho => h.bind_or name value other (.inr ho)

/-- Scopes that differ in one name only agree on all names once it is bound. -/
theorem AgreeOn.bind_self {name : Text} (h : AgreeOn (· ≠ name) s₁ s₂) (value : Value) :
    AgreeOn (fun _ => True) (s₁.bind name value) (s₂.bind name value) :=
  fun other _ => h.bind_or name value other (Decidable.em (other = name))

/-- Two ways to bind a name make scopes that differ in that name only. -/
theorem agreeOn_bind_bind (s : Scope) (name : Text) (v w : Value) :
    AgreeOn (· ≠ name) (s.bind name v) (s.bind name w) := by
  intro other ho
  rw [find?_bind_of_ne v s ho, find?_bind_of_ne w s ho]

end Scope

/-- The path that a condition looks up. -/
def Condition.path? : Condition → Option Text
  | path p => some p
  | comparison p _ _ => some p
  | negation p => some p
  | unsupported _ => none

theorem Condition.holds_congr {c : Condition} {s₁ s₂ : Scope}
    (h : ∀ p, c.path? = some p → s₁.resolve p = s₂.resolve p) : c.holds s₁ = c.holds s₂ := by
  cases c with
  | path p => simp only [holds, h p rfl]
  | comparison p negated literal => simp only [holds, h p rfl]
  | negation p => simp only [holds, h p rfl]
  | unsupported t => rfl

end Stencil
