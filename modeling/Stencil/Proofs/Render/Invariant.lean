import Stencil.Proofs.Render.Alike

/-!
# The invariants of a render

Every stage advances the state (`State.Advance`), and so does the whole pipeline, from every state
and however the run ends: `stages_advance`.

What relates the states before and after each operation, and is kept by sequences (`Kept`), relates
those before and after every program that is built of the operations (`Alike.keeps`).  For a render
that is compared with itself, in the same scope and at the same level, nothing more has to be known
(`Comparison.itself`).
-/

namespace Stencil

open Render

/-! ## What is kept -/

/-- A relation between states, for each number of levels that are left, that the operations of a
render have and that sequences keep. -/
structure Kept (c : Comparison) (R : (room : Nat) → State → State → Prop) : Prop where
  refl (room : Nat) (s : State) : R room s s
  trans {room : Nat} {s t u : State} : R room s t → R room t u → R room s u
  note (room : Nat) {n : Notice} (hn : n.level = .debug) (s : State) : R room s (s.note n)
  pay (room : Nat) (s : State) : R room s { s with substitutions := s.substitutions + 1 }
  spent (room : Nat) (s : State) :
    R room s (s.exhaust (.substitutionLimit s.limits.maxSubstitutions))
  reads {room : Nat} {stage : Stage} {text : Text}
      (h : stage.scansTags = true → ∃ room', c.scans room room' text) (s : State) :
    R room s (s.record (.reads stage text))
  refuse {room' : Nat} (h : c.refuses room') (s : State) :
    R 0 s (s.exhaust (.nestingLimit s.limits.maxDepth))
  enter {room : Nat} {s t : State} : R room s.enter t → R (room + 1) s t.leave

section
variable {c : Comparison} {R : (room : Nat) → State → State → Prop}

theorem OneLevel.keeps {α : Type} {x : Render α} (h : OneLevel x) (hR : Kept c R) (room : Nat)
    (s : State) : R room s (x.endState s) := by
  induction h generalizing s with
  | pure a => exact hR.refl room s
  | bind _ _ ihx ihf =>
    exact endState_bind (fun a t hr => hR.trans (endState_of_ok hr ▸ ihx s) (ihf a t))
      fun e t hr => endState_of_error hr ▸ ihx s
  | ofExcept r => cases r <;> exact hR.refl room s
  | note n hn => exact hR.note room hn s
  | spend => exact endState_spend (fun _ => hR.pay room s) (hR.spent room s)
  | reads stage t hstage =>
    refine hR.reads (fun hscan => ?_) s
    rw [hstage] at hscan
    cases hscan

/-- **However it ends, a run keeps what its operations keep.** -/
theorem Alike.keeps {known : Prop} {room room' : Nat} {α : Type} {x y : Render α}
    (h : Alike c known room room' x y) (hR : Kept c R) :
    ∀ s : State, s.room = room → s.Advance (x.endState s) ∧ R room s (x.endState s) := by
  induction h with
  | @oneLevel _ room _ _ x y hx _ _ => exact fun s hs => ⟨hx.advances room s hs, hx.keeps hR room s⟩
  | bind _ _ ihx ihf =>
    intro s hs
    have hx := ihx s hs
    refine endState_bind (fun a t hr => ?_) fun e t hr => endState_of_error hr ▸ hx
    obtain ⟨hadv, hkept⟩ := endState_of_ok hr ▸ hx
    obtain ⟨hadv', hkept'⟩ := ihf a s t hr t (hadv.room.trans hs)
    exact ⟨hadv.trans hadv', hR.trans hkept hkept'⟩
  | @reads _ room _ _ x y stage t hscan _ ih =>
    intro s hs
    have hread := advances_reads room stage t s hs
    obtain ⟨hadv, hkept⟩ := ih (s.record (.reads stage t)) hs
    exact ⟨hread.trans hadv, hR.trans (hR.reads (fun h => ⟨_, hscan h⟩) s) hkept⟩
  | deeper _ ih =>
    intro s hs
    rw [endState_deeper]
    obtain ⟨hadv, hkept⟩ := ih s.enter (room_enter hs)
    exact ⟨.of_enter (by omega) hadv, hR.enter hkept⟩
  | refused hrefuses _ => exact fun s _ => ⟨advance_exhaust s rfl, hR.refuse hrefuses s⟩
  | atLevel _ hx ih =>
    intro s hs
    unfold endState at ih ⊢
    rw [hx s hs]
    exact ih s hs

theorem Alike.advances {known : Prop} {room room' : Nat} {α : Type} {x y : Render α}
    (h : Alike c known room room' x y) : Advances room x := by
  have hnothing : Kept c fun _ _ _ => True := by constructor <;> intros <;> trivial
  exact fun s hs => (h.keeps hnothing s hs).1

end

/-! ## A render and itself -/

/-- A render is compared with itself, and only texts of a class are scanned for tags. -/
def Comparison.itself (texts : Text → Prop) : Comparison :=
  .ofLevels (fun room room' t => room = room' ∧ texts t) fun room' => room' = 0

theorem Comparison.itself_lawful {texts : Text → Prop}
    (h : ∀ t u : Text, texts t → u.Sublist t → texts u) (filters : Registry) :
    (itself texts).Lawful filters := by
  refine ofLevels_lawful ?_ ?_ (fun _ _ _ ht _ => ht.1.symm) filters
  · exact fun _ _ t u ht hu => ⟨ht.1, h t u ht.2 hu⟩
  · intro room _ t b ht _
    obtain ⟨hbody, hother⟩ := branches_isInfix t b
    exact ⟨room, ht.1.symm, ⟨rfl, h _ _ ht.2 hbody.sublist⟩, ⟨rfl, h _ _ ht.2 hother.sublist⟩⟩

namespace Render

variable {α β : Type} {room : Nat}

/-- A program is built of the operations of a render, at a level with so many levels left. -/
def Built (room : Nat) (x : Render α) : Prop :=
  Alike (.itself fun _ => True) True room room x x

theorem itself_lawful_of_any (filters : Registry) :
    (Comparison.itself fun _ => True).Lawful filters :=
  Comparison.itself_lawful (fun _ _ _ _ => trivial) filters

theorem Built.advances {x : Render α} (h : Built room x) : Advances room x :=
  Alike.advances h

theorem Built.of_oneLevel {x : Render α} (h : OneLevel x) : Built room x :=
  .oneLevel h (fun _ => rfl) fun _ _ _ _ _ => trivial

theorem Built.bind {x : Render α} {f : α → Render β} (hx : Built room x)
    (hf : ∀ a, Built room (f a)) : Built room (x >>= f) :=
  Alike.bind hx fun a _ _ _ => hf a

theorem built_resolveConditionals (scope : Scope) (room : Nat) (template : Text) :
    Built room (resolveConditionals scope room template) :=
  alike_resolveConditionals (itself_lawful_of_any .standard) rfl ⟨rfl, trivial⟩

theorem built_resolveBranch (scope : Scope) (branch : Text) :
    Built room (resolveBranch (branchesBelow scope room) branch) := by
  refine alike_resolveBranch ?_
  cases room with
  | zero => exact .none rfl fun _ => rfl
  | succ room => exact .level (built_resolveConditionals scope room branch)

theorem built_renderWithin (filters : Registry) (room : Nat) (template : Text) (scope : Scope) :
    Built room (renderWithin filters room template scope) :=
  alike_renderWithin (itself_lawful_of_any filters) rfl ⟨rfl, trivial⟩

theorem built_turns {body : Scope → Render Text} (h : ∀ scope, Built room (body scope))
    (name : Text) (scope : Scope) (items : List Value) :
    Built room (turns body name scope items) :=
  alike_turns fun item _ => h (scope.bind name item)

theorem built_expandLoop (filters : Registry) (scope : Scope) (argument body : Text) :
    Built room (expandLoop (bodiesBelow filters room) scope argument body) := by
  refine alike_expandLoop (fun _ _ _ => ⟨rfl, fun _ _ => trivial⟩) (fun _ _ _ _ _ _ _ => rfl) ?_
  cases room with
  | zero => exact .none rfl fun _ => rfl
  | succ room =>
    refine .level fun s₁ s₂ hs => ?_
    cases hs
    exact built_renderWithin filters room body s₁

theorem built_expandLoops (filters : Registry) (scope : Scope) (template : Text) :
    Built room (expandLoops (bodiesBelow filters room) scope template) :=
  alike_expandLoops (itself_lawful_of_any filters) rfl ⟨rfl, trivial⟩ fun _ hb =>
    alike_bodiesBelow (itself_lawful_of_any filters) ⟨rfl, trivial⟩ hb

end Render

/-! ## Top theorem -/

/-- A stage with the whole pipeline for the bodies of loops. -/
def Stage.run (filters : Registry) : Stage → BodyRenderer
  | conditionals => conditionalStage
  | loops => loopStage (renderStages filters)
  | plain => plainStage
  | filtered => filteredStage filters

/-- **The invariants of a render.**  Whatever the template, the scope, the filters and the state to
start from: each stage, and the pipeline of all four, leaves the depth as it was and never comes to
one beyond the limit, spends within the budget, does not forget that it is exhausted, and warns
once if it becomes so and not at all otherwise, whether it returns or fails. -/
theorem stages_advance (filters : Registry) (template : Text) (scope : Scope) (s : State) :
    (∀ stage : Stage, s.Advance ((stage.run filters template scope).endState s)) ∧
      s.Advance ((renderStages filters template scope).endState s) := by
  refine ⟨fun stage => ?_, (built_renderWithin filters s.room template scope).advances s rfl⟩
  cases stage with
  | conditionals => exact (built_resolveConditionals scope s.room template).advances s rfl
  | loops =>
    have hloops : Alike (.itself fun _ => True) True s.room s.room
        (loopStage (renderStages filters) template scope) _ :=
      alike_loopStage (itself_lawful_of_any filters) rfl ⟨rfl, trivial⟩
    exact hloops.advances s rfl
  | plain => exact (oneLevel_plainStage template scope).advances s.room s rfl
  | filtered => exact (oneLevel_filteredStage filters template scope).advances s.room s rfl

end Stencil
