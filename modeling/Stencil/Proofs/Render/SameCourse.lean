import Stencil.Proofs.Render.Invariant

/-!
# Renders that take the same course

Of two programs that are built alike, the second does what the first does, in a state with other
limits too (`Alike.sameCourse`), if all texts that the first reads are as the comparison knows them,
and no limit tells the two apart (`Comparison.Tolerates`).  A limit that a part of a run reaches is
still on record when the run is over, and so is a text that it reads; hence both are asked of the
state at the end.

In particular, limits matter only to a render that reaches one: under wider limits any other render
ends in the same result and, but for its limits, in the same state (`renderStages_of_wider_limits`).
-/

namespace Stencil

open Render

/-! ## What is read in a run -/

/-- A stage has been given a text to read between two states. -/
def ReadBetween (before after : State) (stage : Stage) (text : Text) : Prop :=
  ∃ new, after.history = new ++ before.history ∧ .reads stage text ∈ new

namespace ReadBetween

variable {s t u : State} {stage : Stage} {text : Text}

/-- What is read in the first part of a run is read in the run. -/
theorem left (h : ReadBetween s t stage text) (htu : t.Advance u) : ReadBetween s u stage text := by
  obtain ⟨new1, h1, ht⟩ := h
  obtain ⟨new2, h2, -⟩ := htu.history
  exact ⟨new2 ++ new1, by rw [h2, h1, List.append_assoc], List.mem_append_right _ ht⟩

/-- What is read in the second part of a run is read in the run. -/
theorem right (h : ReadBetween t u stage text) (hst : s.Advance t) : ReadBetween s u stage text := by
  obtain ⟨new1, h1, -⟩ := hst.history
  obtain ⟨new2, h2, ht⟩ := h
  exact ⟨new2 ++ new1, by rw [h2, h1, List.append_assoc], List.mem_append_left _ ht⟩

/-- What is read one level deeper is read here. -/
theorem of_enter (h : ReadBetween s.enter t stage text) : ReadBetween s t.leave stage text := by
  obtain ⟨new, hnew, hmem⟩ := h
  exact ⟨_, State.history_leave hnew, List.mem_cons_of_mem _ (List.mem_append_left _ hmem)⟩

end ReadBetween

/-! ## Other limits -/

/-- The same state under other limits. -/
def State.withLimits (m : Limits) (s : State) : State :=
  { s with limits := m }

namespace Render

variable {α β : Type} {m : Limits} {s : State}

/-- What a run has come to, with other limits in the state at its end. -/
def resultWithLimits (m : Limits) :
    EStateM.Result Failure State α → EStateM.Result Failure State α
  | .ok a s => .ok a (s.withLimits m)
  | .error e s => .error e (s.withLimits m)

/-- What is the same in the result. -/
theorem outcome_withLimits {x y : Render α} {t : State} (h : y t = resultWithLimits m (x s)) :
    outcome (y t) = outcome (x s) ∧ y.endState t = (x.endState s).withLimits m := by
  unfold endState
  rw [h]
  cases x s <;> exact ⟨rfl, rfl⟩

theorem bind_withLimits {x y : Render α} {f g : α → Render β}
    (hx : y (s.withLimits m) = resultWithLimits m (x s))
    (hf : ∀ a t, x s = .ok a t → g a (t.withLimits m) = resultWithLimits m (f a t)) :
    (y >>= g) (s.withLimits m) = resultWithLimits m ((x >>= f) s) := by
  cases hr : x s with
  | ok a t =>
    rw [hr] at hx
    rw [bind_of_ok hr, bind_of_ok hx]
    exact hf a t hr
  | error e t =>
    rw [hr] at hx
    rw [bind_of_error hr, bind_of_error hx]
    rfl

theorem deeper_withLimits {x y : Render α}
    (h : y (s.enter.withLimits m) = resultWithLimits m (x s.enter)) :
    deeper y (s.withLimits m) = resultWithLimits m (deeper x s) := by
  have henter : (s.withLimits m).enter = s.enter.withLimits m := rfl
  unfold deeper
  rw [henter, h]
  cases x s.enter <;> rfl

end Render

/-- In a run between two states other limits do not show. -/
inductive Comparison.Tolerates (c : Comparison) (m : Limits) (before after : State) : Prop where
  /-- The budget is the same, and so is the depth at which a level is refused, if one is. -/
  | same (budget : m.maxSubstitutions = before.limits.maxSubstitutions)
      (levels : ∀ room', c.refuses room' → room' = 0 ∧ m.maxDepth = before.limits.maxDepth)
  /-- No limit is reached. -/
  | within (budget : before.limits.maxSubstitutions ≤ m.maxSubstitutions)
      (unreached : after.exhausted = false)

namespace Comparison.Tolerates

variable {c : Comparison} {m : Limits} {s t u : State}

theorem left (h : c.Tolerates m s u) (htu : t.Advance u) : c.Tolerates m s t := by
  cases h with
  | same budget levels => exact .same budget levels
  | within budget unreached =>
    refine .within budget ?_
    cases ht : t.exhausted with
    | false => rfl
    | true => exact absurd (htu.exhausted ht) (by simp [unreached])

theorem right (h : c.Tolerates m s u) (hst : s.Advance t) : c.Tolerates m t u := by
  cases h with
  | same budget levels => exact .same (hst.limits ▸ budget) (hst.limits ▸ levels)
  | within budget unreached => exact .within (hst.limits ▸ budget) unreached

end Comparison.Tolerates

variable {c : Comparison} {m : Limits}

theorem spend_withLimits {s : State} (h : c.Tolerates m s (spend.endState s)) :
    spend (s.withLimits m) = resultWithLimits m (spend s) := by
  by_cases hlt : s.substitutions < s.limits.maxSubstitutions
  · have hlt' : (s.withLimits m).substitutions < (s.withLimits m).limits.maxSubstitutions := by
      show s.substitutions < m.maxSubstitutions
      cases h <;> omega
    rw [spend_of_lt hlt, spend_of_lt hlt']
    rfl
  · rw [endState_of_ok (spend_of_not_lt hlt)] at h
    cases h with
    | same budget _ =>
      have hlt' : ¬ (s.withLimits m).substitutions < (s.withLimits m).limits.maxSubstitutions := by
        show ¬ s.substitutions < m.maxSubstitutions
        omega
      have hlimit : (s.withLimits m).limits.maxSubstitutions = s.limits.maxSubstitutions := budget
      rw [spend_of_not_lt hlt, spend_of_not_lt hlt', hlimit]
      unfold State.exhaust
      show EStateM.Result.ok false (if s.exhausted then _ else _) = _
      split <;> rfl
    | within _ unreached =>
      rw [exhausted_exhaust] at unreached
      cases unreached

/-- A program that stays at its level asks for nothing but the budget. -/
theorem OneLevel.withLimits {α : Type} {x : Render α} (h : OneLevel x) {s : State}
    (hm : c.Tolerates m s (x.endState s)) : x (s.withLimits m) = resultWithLimits m (x s) := by
  induction h generalizing s with
  | pure a => rfl
  | @bind _ _ x f hx hf ihx ihf =>
    have hadv := hx.advances s.room s rfl
    cases hr : x s with
    | ok a t =>
      rw [endState_of_ok hr] at hadv
      rw [endState_bind_of_ok hr] at hm
      have hadv' := (hf a).advances t.room t rfl
      refine bind_withLimits (ihx (endState_of_ok hr ▸ hm.left hadv')) fun b u hu => ?_
      cases hr.symm.trans hu
      exact ihf a (hm.right hadv)
    | error e t =>
      rw [endState_of_error (bind_of_error hr)] at hm
      refine bind_withLimits (ihx (endState_of_error hr ▸ hm)) fun b u hu => ?_
      cases hr.symm.trans hu
  | ofExcept r => cases r <;> rfl
  | note n _ => rfl
  | spend => exact spend_withLimits hm
  | reads stage t _ => rfl

/-- **Programs that are built alike take the same course**, if the texts that the first reads are as
they are known and its limits do not tell the two apart; and where they fail, the failure is
accounted for. -/
theorem Alike.sameCourse {known : Prop} {room room' : Nat} {α : Type} {x y : Render α}
    (h : Alike c known room room' x y) : known → ∀ s : State, s.room = room →
      (∀ stage t, ReadBetween s (x.endState s) stage t → c.reads stage t) →
      c.Tolerates m s (x.endState s) →
      y (s.withLimits m) = resultWithLimits m (x s) ∧ ∀ e t, x s = .error e t → c.fails e := by
  induction h with
  | oneLevel hx hxy hfails =>
    intro hknown s _ _ hm
    rw [← hxy hknown]
    exact ⟨hx.withLimits hm, hfails hknown s⟩
  | @bind known room room' α β x y f g hx hf ihx ihf =>
    intro hknown s hs hreads hm
    have hadv := hx.advances s hs
    cases hr : x s with
    | ok a t =>
      rw [endState_of_ok hr] at hadv
      rw [endState_bind_of_ok hr] at hreads hm
      have ht : t.room = room := hadv.room.trans hs
      have hadv' := (hf a s t hr).advances t ht
      have hy := ihx hknown s hs
      rw [endState_of_ok hr] at hy
      have hfirst := (hy (fun stage u hu => hreads stage u (hu.left hadv')) (hm.left hadv')).1
      obtain ⟨hsame, hfails⟩ := ihf a s t hr hknown t ht
        (fun stage u hu => hreads stage u (hu.right hadv)) (hm.right hadv)
      refine ⟨bind_withLimits hfirst fun b u hu => ?_, ?_⟩
      · cases hr.symm.trans hu
        exact hsame
      · rw [bind_of_ok hr]
        exact hfails
    | error e t =>
      rw [endState_of_error (bind_of_error hr)] at hreads hm
      have hy := ihx hknown s hs
      rw [endState_of_error hr] at hy
      obtain ⟨hsame, hfails⟩ := hy hreads hm
      refine ⟨bind_withLimits hsame fun b u hu => ?_, ?_⟩
      · cases hr.symm.trans hu
      · intro d u hu
        rw [bind_of_error hr] at hu
        cases hu
        exact hfails e t hr
  | @reads known room room' α x y stage t _ hx ih =>
    intro hknown s hs hreads hm
    have hread := advances_reads room stage t s hs
    have hfirst : ReadBetween s (s.record (.reads stage t)) stage t :=
      ⟨[.reads stage t], rfl, List.mem_cons_self⟩
    have hadv := hx.advances (s.record (.reads stage t)) hs
    have htext : c.reads stage t := hreads stage t (hfirst.left hadv)
    exact ih ⟨hknown, htext⟩ (s.record (.reads stage t)) hs
      (fun stage' u hu => hreads stage' u (hu.right hread)) (hm.right hread)
  | @deeper known room room' α x y hx ih =>
    intro hknown s hs hreads hm
    rw [endState_deeper] at hreads hm
    have henter : c.Tolerates m s.enter (x.endState s.enter) := by
      cases hm with
      | same budget levels => exact .same budget levels
      | within budget unreached => exact .within budget unreached
    obtain ⟨hsame, hfails⟩ := ih hknown s.enter (room_enter hs)
      (fun stage t ht => hreads stage t ht.of_enter) henter
    refine ⟨deeper_withLimits hsame, fun e t he => ?_⟩
    unfold Render.deeper at he
    cases hr : x s.enter with
    | ok a u =>
      rw [hr] at he
      cases he
    | error d u =>
      rw [hr] at he
      cases he
      exact hfails _ u hr
  | @refused known room' y hrefuses hy =>
    intro _ s _ _ hm
    have hend : (descend none).endState s = s.exhaust (.nestingLimit s.limits.maxDepth) := rfl
    rw [hend] at hm
    refine ⟨?_, nofun⟩
    cases hm with
    | same budget levels =>
      obtain ⟨hroom, hdepth⟩ := levels room' hrefuses
      rw [hy hroom]
      show EStateM.Result.ok [] ((s.withLimits m).exhaust (.nestingLimit m.maxDepth)) = _
      rw [hdepth]
      unfold State.exhaust
      show EStateM.Result.ok [] (if s.exhausted then _ else _)
        = resultWithLimits m (.ok [] (if s.exhausted then _ else _))
      split <;> rfl
    | within _ unreached =>
      rw [exhausted_exhaust] at unreached
      cases unreached
  | @atLevel known room room' α x x' y _ hx ih =>
    intro hknown s hs hreads hm
    unfold endState at ih hreads hm
    rw [hx s hs] at hreads hm ⊢
    exact ih hknown s hs hreads hm

/-- In the same state, what the first does and the second does is the same. -/
theorem Alike.same {known : Prop} {room room' : Nat} {α : Type} {x y : Render α}
    (h : Alike c known room room' x y) (hknown : known) (hrefuses : ∀ r, c.refuses r → r = 0)
    {s : State} (hs : s.room = room)
    (hreads : ∀ stage t, ReadBetween s (x.endState s) stage t → c.reads stage t) : x s = y s := by
  have hlimits := (h.advances s hs).limits
  have hsame : y s = resultWithLimits s.limits (x s) :=
    (h.sameCourse hknown s hs hreads (.same rfl fun r hr => ⟨hrefuses r hr, rfl⟩)).1
  rw [hsame]
  cases hr : x s with
  | ok a t =>
    rw [endState_of_ok hr] at hlimits
    rw [← hlimits]
    rfl
  | error e t =>
    rw [endState_of_error hr] at hlimits
    rw [← hlimits]
    rfl

/-! ## Wider limits -/

/-- Limits that leave at least as much room as others. -/
structure Limits.Within (l m : Limits) : Prop where
  depth : l.maxDepth ≤ m.maxDepth
  substitutions : l.maxSubstitutions ≤ m.maxSubstitutions

/-- The second render has as many levels left as the first, or more. -/
def Comparison.wider : Comparison :=
  .ofLevels (fun room room' _ => room ≤ room') fun _ => True

theorem Comparison.wider_lawful (filters : Registry) : wider.Lawful filters := by
  refine ofLevels_lawful (fun _ _ _ _ h _ => h) ?_ (fun _ _ _ _ _ => trivial) filters
  intro room room' _ _ h _
  have hle : room ≤ room' - 1 := by omega
  exact ⟨room' - 1, by omega, hle, hle⟩

/-- **Limits matter only when they are reached.**  If the stages, from a fresh state, reach none of
their limits, then under wider limits they come to the same output or fail for the same reason, make
as many substitutions, give the same notices, and reach no limit either. -/
theorem renderStages_of_wider_limits (filters : Registry) (l m : Limits) (h : l.Within m)
    (template : Text) (scope : Scope)
    (hend : ((renderStages filters template scope).endState { limits := l }).exhausted = false) :
    let narrow := (renderStages filters template scope).endState { limits := l }
    let wide := (renderStages filters template scope).endState { limits := m }
    outcome (renderStages filters template scope { limits := m })
        = outcome (renderStages filters template scope { limits := l }) ∧
      wide.substitutions = narrow.substitutions ∧ wide.exhausted = false ∧
      wide.log = narrow.log := by
  intro narrow wide
  have halike : Alike .wider True l.maxDepth m.maxDepth
      (renderWithin filters l.maxDepth template scope)
      (renderWithin filters m.maxDepth template scope) :=
    alike_renderWithin (Comparison.wider_lawful filters) rfl h.depth
  obtain ⟨houtcome, hstate⟩ := outcome_withLimits (halike.sameCourse trivial { limits := l } rfl
    (fun _ _ _ => trivial) (.within h.substitutions hend)).1
  have hwide : wide = narrow.withLimits m := hstate
  refine ⟨houtcome, ?_⟩
  rw [hwide]
  exact ⟨rfl, hend, rfl⟩

/-- Two loops in each other that need just the levels and the substitutions that there are. -/
theorem renderStages_of_wider_limits_just_met :
    let template :=
      "{% for x in xs %}{% for y in x %}{% if y %}{{ y }}{% endif %}{% endfor %}{% endfor %}".toList
    let row : List Value → Value := .sequence .list
    let scope : Scope := [(.text "xs".toList,
      row [row [.text "p".toList], row [.text "q".toList, .text "r".toList]])]
    let l : Limits := ⟨2, 8⟩
    let m : Limits := ⟨3, 9⟩
    let narrow := (renderStages .standard template scope).endState { limits := l }
    let wide := (renderStages .standard template scope).endState { limits := m }
    l.Within m ∧ narrow.exhausted = false ∧ narrow.substitutions = 8 ∧
      outcome (renderStages .standard template scope { limits := m })
        = outcome (renderStages .standard template scope { limits := l }) ∧
      wide.substitutions = narrow.substitutions ∧ wide.exhausted = false ∧
      wide.log = narrow.log := by
  intro template row scope l m narrow wide
  have h : l.Within m := ⟨by decide, by decide⟩
  have hend : narrow.exhausted = false := by decide +kernel
  have hspent : narrow.substitutions = 8 := by decide +kernel
  exact ⟨h, hend, hspent, renderStages_of_wider_limits .standard l m h template scope hend⟩

end Stencil
