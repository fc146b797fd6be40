import Stencil.Proofs.Render.Alike
import Stencil.Proofs.Render.Placeholders

/-!
# What is done once the budget is spent

A placeholder is looked up, and its filters are applied, before a substitution is asked for; the
path of a loop is looked up before its first turn is.  So once no substitution is left, a stage still
looks up all that it finds, and then leaves it (`stages_of_spent_budget`):

    plain and filtered placeholders   →   as they were
    loops with a header               →   nothing

`Render.Idle` says so of a program.  It is closed under sequence (`idle_bind`), so it goes from the
single operations to the stages.  No body is rendered, for the stage of loops does the same with any
two renderers (`loopStage_eq_of_spent`).  What may still fail is a lookup or a filter, and that
loses the output of the render so far.
-/

namespace Stencil

open Render

namespace State

/-- No substitution is left. -/
def Spent (s : State) : Prop :=
  s.limits.maxSubstitutions ≤ s.substitutions

/-- No substitution has been taken between two states. -/
structure SameBudget (before after : State) : Prop where
  limits : after.limits = before.limits
  substitutions : after.substitutions = before.substitutions

namespace SameBudget

theorem refl (s : State) : s.SameBudget s :=
  ⟨rfl, rfl⟩

theorem trans {a b c : State} (h : a.SameBudget b) (g : b.SameBudget c) : a.SameBudget c :=
  ⟨g.limits.trans h.limits, g.substitutions.trans h.substitutions⟩

theorem exhaust (s : State) (n : Notice) : s.SameBudget (s.exhaust n) := by
  unfold State.exhaust
  split
  · exact refl s
  · exact ⟨rfl, rfl⟩

theorem spent {s t : State} (h : s.SameBudget t) (hs : s.Spent) : t.Spent := by
  unfold Spent
  rw [h.limits, h.substitutions]
  exact hs

end SameBudget

end State

/-! ## Programs -/

namespace Render

variable {α β : Type}

/-- Once no substitution is left, a run ends like this, and takes none. -/
def Idle (x : Render α) (r : Except Failure α) : Prop :=
  ∀ s : State, s.Spent → outcome (x s) = r ∧ s.SameBudget (x.endState s)

theorem idle_of_finds {x : Render α} {r : Except Failure α} (h : Finds x r) : Idle x r := by
  intro s _
  obtain ⟨hout, hcounters⟩ := h s
  exact ⟨hout, congrArg Counters.limits hcounters, congrArg Counters.substitutions hcounters⟩

theorem idle_pure (a : α) : Idle (pure a) (.ok a) :=
  idle_of_finds (finds_pure a)

theorem idle_bind {x : Render α} {f : α → Render β} {r : Except Failure α}
    {q : α → Except Failure β} (hx : Idle x r) (hf : ∀ a, Idle (f a) (q a)) :
    Idle (x >>= f) (r >>= q) := by
  intro s hs
  obtain ⟨hout, hsame⟩ := hx s hs
  cases r with
  | ok a =>
    have hrun := eq_ok_of_outcome hout
    obtain ⟨hout', hsame'⟩ := hf a _ (hsame.spent hs)
    rw [bind_of_ok hrun, endState_bind_of_ok hrun]
    exact ⟨hout', hsame.trans hsame'⟩
  | error e =>
    have hrun := bind_of_error (f := f) (eq_error_of_outcome hout)
    rw [hrun, endState_of_error hrun]
    exact ⟨rfl, hsame⟩

/-- What is looked up only matters in that it can be. -/
theorem idle_bind_const {x : Render α} {f : α → Render β} {r : Except Failure α} {b : β}
    (hx : Idle x r) (hf : ∀ a, Idle (f a) (.ok b)) : Idle (x >>= f) (r.map fun _ => b) := by
  have hmap : r.map (fun _ => b) = r >>= fun _ => .ok b := by
    cases r <;> rfl
  rw [hmap]
  exact idle_bind hx hf

theorem idle_reads (stage : Stage) (text : Text) : Idle (reads stage text) (.ok ()) :=
  fun _ _ => ⟨rfl, rfl, rfl⟩

theorem idle_refuse : Idle refuse (.ok ()) :=
  fun s _ => ⟨rfl, .exhaust s _⟩

theorem spend_of_spent {s : State} (hs : s.Spent) :
    spend s = .ok false (s.exhaust (.substitutionLimit s.limits.maxSubstitutions)) :=
  spend_of_not_lt (Nat.not_lt.mpr hs)

/-- A substitution is refused, and the run goes on from there. -/
theorem idle_spend_bind {f : Bool → Render α} {r : Except Failure α} (h : Idle (f false) r) :
    Idle (spend >>= f) r := by
  intro s hs
  have hrun := spend_of_spent hs
  have hsame : s.SameBudget (s.exhaust (.substitutionLimit s.limits.maxSubstitutions)) :=
    .exhaust s _
  obtain ⟨hout, hsame'⟩ := h _ (hsame.spent hs)
  rw [bind_of_ok hrun, endState_bind_of_ok hrun]
  exact ⟨hout, hsame.trans hsame'⟩

theorem idle_deeper {work : Render α} {r : Except Failure α} (h : Idle work r) :
    Idle (deeper work) r := by
  intro s hs
  obtain ⟨hout, hsame⟩ := h s.enter hs
  have hend : s.SameBudget (work.endState s.enter).leave := ⟨hsame.limits, hsame.substitutions⟩
  rw [endState_deeper]
  refine ⟨?_, hend⟩
  rw [← hout]
  unfold deeper
  cases work s.enter <;> rfl

/-- A run that always comes to the same, if it returns, returns where something else does. -/
theorem exists_ok_iff_of_outcome {x : Render α} {a : α} {r : Except Failure β}
    {s : State} (h : outcome (x s) = r.map fun _ => a) :
    (∃ after, x s = .ok a after) ↔ ∃ b, r = .ok b := by
  cases r with
  | ok b => exact iff_of_true ⟨_, eq_ok_of_outcome h⟩ ⟨b, rfl⟩
  | error e =>
    apply iff_of_false
    · rintro ⟨after, hrun⟩
      rw [hrun] at h
      cases h
    · rintro ⟨b, hb⟩
      cases hb

end Render

/-! ## Edits

The text in a place is settled by the place alone, once something about it has been looked up.
-/

/-- All that has been found is looked up, in order. -/
def lookUpAll {α β : Type} (lookup : α → Except Failure β) (found : List (Occurrence α)) :
    Except Failure (List β) :=
  found.mapM fun o => lookup o.item

theorem lookUpAll_cons {α β : Type} (lookup : α → Except Failure β) (o : Occurrence α)
    (os : List (Occurrence α)) : lookUpAll lookup (o :: os) = do
      let v ← lookup o.item
      let vs ← lookUpAll lookup os
      return v :: vs :=
  List.mapM_cons

section
variable {α β : Type} {newText : α → Render (Option Text)} {check : α → Except Failure β}
  {answer : α → Option Text}

/-- Everything is looked up, in order, before it is known which edits there are. -/
theorem idle_edits (h : ∀ a, Idle (newText a) ((check a).map fun _ => answer a))
    (found : List (Occurrence α)) : Idle (edits newText found)
      ((lookUpAll check found).map fun _ =>
        found.filterMap fun o => o.edit? (answer o.item)) := by
  induction found with
  | nil => exact idle_pure []
  | cons o os ih =>
    generalize hrest : ((lookUpAll check os).map fun _ =>
      os.filterMap fun o => o.edit? (answer o.item)) = rest at ih
    have hresult : (do
          let text ← (check o.item).map fun _ => answer o.item
          let es ← rest
          return (o.edit? text).toList ++ es)
        = (lookUpAll check (o :: os)).map fun _ =>
          (o :: os).filterMap fun o => o.edit? (answer o.item) := by
      rw [lookUpAll_cons, ← hrest, List.filterMap_cons]
      cases check o.item with
      | error e => rfl
      | ok b =>
        cases lookUpAll check os with
        | error e => rfl
        | ok bs => cases answer o.item <;> rfl
    rw [← hresult, edits_cons]
    apply idle_bind (h o.item)
    intro text
    exact idle_bind ih fun es => idle_pure _

theorem idle_substitute (h : ∀ a, Idle (newText a) ((check a).map fun _ => answer a))
    {found : List (Occurrence α)} {template : Text} (hfound : InOrder 0 found template.length) :
    Idle (substitute found newText template) ((lookUpAll check found).map fun _ =>
      template.edited 0 (found.filterMap fun o => o.edit? (answer o.item))) := by
  intro s hs
  obtain ⟨hout, hsame⟩ := idle_edits h found s hs
  cases hcheck : lookUpAll check found with
  | ok bs =>
    rw [hcheck] at hout
    have hrun := (substitute_eq_ok_iff hfound).mpr ⟨_, eq_ok_of_outcome hout, rfl⟩
    rw [hrun, endState_of_ok hrun]
    exact ⟨rfl, hsame⟩
  | error e =>
    rw [hcheck] at hout
    have hrun : substitute found newText template s = _ := bind_of_error (eq_error_of_outcome hout)
    rw [hrun, endState_of_error hrun]
    exact ⟨rfl, hsame⟩

/-- Where the new texts come about alike once no substitution is left, so do the edits. -/
theorem edits_eq_of_spent {newText' : α → Render (Option Text)}
    (h : ∀ a, Idle (newText a) ((check a).map fun _ => answer a))
    (heq : ∀ a s, s.Spent → newText a s = newText' a s) (found : List (Occurrence α)) {s : State}
    (hs : s.Spent) : edits newText found s = edits newText' found s := by
  induction found generalizing s with
  | nil => rfl
  | cons o os ih =>
    rw [edits_cons, edits_cons]
    have hfirst := heq o.item s hs
    obtain ⟨hout, hsame⟩ := h o.item s hs
    cases hcheck : check o.item with
    | error e =>
      rw [hcheck] at hout
      have hrun := eq_error_of_outcome hout
      rw [bind_of_error hrun, bind_of_error (hfirst.symm.trans hrun)]
    | ok b =>
      rw [hcheck] at hout
      have hrun := eq_ok_of_outcome hout
      rw [bind_of_ok hrun, bind_of_ok (hfirst.symm.trans hrun)]
      exact bind_congr_left (ih (hsame.spent hs)) _

end

/-! ## Placeholders -/

theorem idle_payAndDisplay (value : Option Value) : Idle (payAndDisplay value) (.ok none) := by
  cases value with
  | none => exact idle_pure none
  | some v => exact idle_spend_bind (idle_pure none)

section
variable {α : Type} {look : α → Render (Option Value)} {lookup : α → Except Failure (Option Value)}

/-- What is looked up is not written. -/
theorem idle_fill (hlook : ∀ a, Finds (look a) (lookup a)) (a : α) :
    Idle (look a >>= payAndDisplay) ((lookup a).map fun _ => none) :=
  idle_bind_const (idle_of_finds (hlook a)) idle_payAndDisplay

end

/-! ## Loops -/

namespace Block

/-- The header of a loop, if a block is one and has one. -/
def header? (b : Block) : Option LoopHeader :=
  if b.kind = .loop then LoopHeader.ofArgument? b.argument else none

/-- What the header of a loop names. -/
def target (scope : Scope) (b : Block) : Except Failure (Option Value) :=
  match b.header? with
  | none => .ok none
  | some header => scope.resolve header.path

end Block

/-- A template without its outermost loops.  Those without a header stay. -/
def withoutLoops (template : Text) : Text :=
  template.edited 0 ((blocks template).filterMap fun b =>
    b.occurrence.edit? (b.header?.map fun _ => []))

section
variable (scope : Scope) (template : Text)

theorem idle_turns (turn : Scope → Render Text) (name : Text) (items : List Value) :
    Idle (turns turn name scope items) (.ok []) := by
  cases items with
  | nil => exact idle_pure []
  | cons item items => exact idle_spend_bind (idle_pure [])

/-- The first turn is refused, whatever it would be. -/
theorem turns_eq_of_spent (turn turn' : Scope → Render Text) (name : Text) (items : List Value)
    {s : State} (hs : s.Spent) :
    turns turn name scope items s = turns turn' name scope items s := by
  cases items with
  | nil => rfl
  | cons item items =>
    have hrun := spend_of_spent hs
    rw [turns, turns, bind_of_ok hrun, bind_of_ok hrun]
    rfl

/-- A loop gives nothing, whether or not there is a level left. -/
theorem idle_descend_turns (inner : Option BodyRenderer) (body name : Text) (items : List Value) :
    Idle (descend (inner.map fun render => turns (render body) name scope items)) (.ok []) := by
  cases inner with
  | none => exact idle_bind idle_refuse fun _ => idle_pure []
  | some render => exact idle_deeper (idle_turns scope (render body) name items)

theorem idle_expandBlock (inner : Option BodyRenderer) (b : Block) :
    Idle (expandBlock inner scope template b)
      ((b.target scope).map fun _ => b.header?.map fun _ => []) := by
  unfold expandBlock Block.target Block.header?
  by_cases hkind : b.kind = .loop
  · rw [if_pos hkind, if_pos hkind, expandLoop]
    cases LoopHeader.ofArgument? b.argument with
    | none => exact idle_bind (idle_of_finds (finds_note _)) fun _ => idle_pure none
    | some header =>
      apply idle_bind_const (idle_of_finds (finds_ofExcept (scope.resolve header.path)))
      intro value
      split
      · exact idle_bind (idle_descend_turns scope inner _ _ _) fun text => idle_pure (some text)
      · exact idle_bind (idle_of_finds (finds_note _)) fun _ => idle_pure (some [])
  · rw [if_neg hkind, if_neg hkind]
    exact idle_pure none

/-- The text in place of a block does not depend on how bodies are rendered. -/
theorem expandBlock_eq_of_spent (render render' : BodyRenderer) (b : Block) {s : State}
    (hs : s.Spent) : expandBlock (some render) scope template b s
      = expandBlock (some render') scope template b s := by
  have hdescend (body name : Text) (items : List Value) :
      descend (some (turns (render body) name scope items)) s
        = descend (some (turns (render' body) name scope items)) s := by
    have henter : s.enter.Spent := hs
    show deeper (turns (render body) name scope items) s
      = deeper (turns (render' body) name scope items) s
    unfold deeper
    rw [turns_eq_of_spent scope (render body) (render' body) name items henter]
  unfold expandBlock
  by_cases hkind : b.kind = .loop
  · rw [if_pos hkind, if_pos hkind]
    exact expandLoop_congr b.argument fun name items => hdescend _ name items
  · rw [if_neg hkind, if_neg hkind]

end

/-- No body is rendered: the stage of loops does the same with any two renderers. -/
theorem loopStage_eq_of_spent (render render' : BodyRenderer) (template : Text) (scope : Scope)
    {s : State} (hs : s.Spent) :
    loopStage render template scope s = loopStage render' template scope s := by
  show expandLoops (if s.room = 0 then none else some render) scope template s
    = expandLoops (if s.room = 0 then none else some render') scope template s
  by_cases hroom : s.room = 0
  · rw [if_pos hroom, if_pos hroom]
  · have hread : (s.record (.reads .loops template)).Spent := hs
    rw [if_neg hroom, if_neg hroom]
    show substitute _ _ template (s.record (.reads .loops template))
      = substitute _ _ template (s.record (.reads .loops template))
    exact bind_congr_left (edits_eq_of_spent (idle_expandBlock scope template (some render))
      (fun b _ hs => expandBlock_eq_of_spent scope template render render' b hs) _ hread) _

/-! ## Stages -/

/-- From a state, a stage looks up all that it has found.  If that can be done a certain text comes
out, and else the first failure.  No substitution is taken. -/
structure OnlyLooksUp {α : Type} (lookup : α → Except Failure (Option Value))
    (found : List (Occurrence α)) (out : Text) (stage : Render Text) (s : State) : Prop where
  outcome : Render.outcome (stage s) = (lookUpAll lookup found).map fun _ => out
  returns : (∃ after, stage s = .ok out after) ↔ ∀ o ∈ found, ∃ v, lookup o.item = .ok v
  substitutions : (stage.endState s).substitutions = s.substitutions

section
variable {α : Type} {lookup : α → Except Failure (Option Value)} {found : List (Occurrence α)}
  {out : Text} {stage : Render Text}

theorem exists_lookUpAll_iff : (∃ vs, lookUpAll lookup found = .ok vs) ↔
    ∀ o ∈ found, ∃ v, lookup o.item = .ok v := by
  induction found with
  | nil => exact iff_of_true ⟨[], rfl⟩ nofun
  | cons o os ih =>
    rw [List.forall_mem_cons, lookUpAll_cons, ← ih]
    cases lookup o.item with
    | error e =>
      apply iff_of_false
      · rintro ⟨vs, h⟩
        cases h
      · rintro ⟨⟨v, h⟩, -⟩
        cases h
    | ok v =>
      rw [and_iff_right ⟨v, rfl⟩]
      cases lookUpAll lookup os with
      | error e =>
        apply iff_of_false
        · rintro ⟨vs, h⟩
          cases h
        · rintro ⟨vs, h⟩
          cases h
      | ok vs => exact iff_of_true ⟨v :: vs, rfl⟩ ⟨vs, rfl⟩

theorem onlyLooksUp_of_idle (h : Idle stage ((lookUpAll lookup found).map fun _ => out)) {s : State}
    (hs : s.Spent) : OnlyLooksUp lookup found out stage s := by
  obtain ⟨hout, hsame⟩ := h s hs
  have hreturns := exists_ok_iff_of_outcome hout
  rw [exists_lookUpAll_iff] at hreturns
  exact ⟨hout, hreturns, hsame.substitutions⟩

end

theorem idle_placeholders {α : Type} {look : α → Render (Option Value)}
    {lookup : α → Except Failure (Option Value)} (hlook : ∀ a, Finds (look a) (lookup a))
    (r : Recogniser α) (stage : Stage) (template : Text) :
    Idle (do
      Render.reads stage template
      substitute (occurrences r template) (fun a => look a >>= payAndDisplay) template)
      ((lookUpAll lookup (occurrences r template)).map fun _ => template) := by
  have hnone : (occurrences r template).filterMap (fun o => o.edit? none) = [] :=
    List.filterMap_eq_nil_iff.mpr fun _ _ => rfl
  have hstay := idle_substitute (idle_fill hlook) (occurrences_inOrder r template)
  rw [hnone] at hstay
  exact idle_bind (idle_reads stage template) fun _ => hstay

section
variable (filters : Registry) (template : Text) (scope : Scope)

theorem idle_plainStage : Idle (plainStage template scope)
    ((lookUpAll scope.resolve (occurrences plainAt template)).map fun _ => template) :=
  idle_placeholders (fun path => finds_ofExcept (scope.resolve path)) plainAt .plain template

theorem idle_filteredStage : Idle (filteredStage filters template scope)
    ((lookUpAll (Filtered.value filters scope) (occurrences filteredAt template)).map
      fun _ => template) := by
  unfold filteredStage
  rw [fillFiltered_eq]
  exact idle_placeholders (finds_lookUp filters scope) filteredAt .filtered template

theorem idle_loopStage (render : BodyRenderer) : Idle (loopStage render template scope)
    ((lookUpAll (Block.target scope) ((blocks template).map Block.occurrence)).map
      fun _ => withoutLoops template) := by
  intro s hs
  have hgone := idle_substitute (idle_expandBlock scope template
    (if s.room = 0 then none else some render)) (blocks_laid template).inOrder
  rw [List.filterMap_map] at hgone
  exact idle_bind (idle_reads .loops template) (fun _ => hgone) s hs

/-- What has been made by then comes out of the stages of placeholders, if neither fails. -/
theorem placeholderStages_return_of_spent {s : State} (hs : s.Spent) :
    (∃ after, (plainStage template scope >>= fun t => filteredStage filters t scope) s
        = .ok template after) ↔
      (∀ o ∈ occurrences plainAt template, ∃ v, scope.resolve o.item = .ok v) ∧
        ∀ o ∈ occurrences filteredAt template, ∃ v, o.item.value filters scope = .ok v := by
  have hidle := idle_bind (idle_plainStage template scope) fun t =>
    idle_filteredStage filters t scope
  rw [← exists_lookUpAll_iff, ← exists_lookUpAll_iff]
  cases hplain : lookUpAll scope.resolve (occurrences plainAt template) with
  | ok vs =>
    rw [hplain] at hidle
    rw [and_iff_right ⟨vs, rfl⟩]
    exact exists_ok_iff_of_outcome (hidle s hs).1
  | error e =>
    rw [hplain] at hidle
    apply iff_of_false
    · rintro ⟨after, hrun⟩
      have hout := (hidle s hs).1
      rw [hrun] at hout
      cases hout
    · rintro ⟨⟨vs, h⟩, -⟩
      cases h

end

/-- **Once the budget is spent, nothing is left but to look up.**  Placeholders stay and loops give
nothing; no substitution is taken and no body rendered.  A stage fails only where one of its paths
cannot be followed, or a filter cannot be applied to what it has found.  Where none does, a text
that has been made by then comes out of the stages of placeholders. -/
theorem stages_of_spent_budget (filters : Registry) (template : Text) (scope : Scope) (s : State)
    (h : s.limits.maxSubstitutions ≤ s.substitutions) :
    OnlyLooksUp scope.resolve (occurrences plainAt template) template
      (plainStage template scope) s ∧
    OnlyLooksUp (Filtered.value filters scope) (occurrences filteredAt template) template
      (filteredStage filters template scope) s ∧
    ((∃ after, (plainStage template scope >>= fun t => filteredStage filters t scope) s
        = .ok template after) ↔
      (∀ o ∈ occurrences plainAt template, ∃ v, scope.resolve o.item = .ok v) ∧
        ∀ o ∈ occurrences filteredAt template, ∃ v, o.item.value filters scope = .ok v) ∧
    ∀ render,
      OnlyLooksUp (Block.target scope) ((blocks template).map Block.occurrence)
        (withoutLoops template) (loopStage render template scope) s ∧
      ∀ render', loopStage render' template scope s = loopStage render template scope s := by
  refine ⟨?_, ?_, ?_, ?_⟩
  · exact onlyLooksUp_of_idle (idle_plainStage template scope) h
  · exact onlyLooksUp_of_idle (idle_filteredStage filters template scope) h
  · exact placeholderStages_return_of_spent filters template scope h
  · intro render
    refine ⟨onlyLooksUp_of_idle (idle_loopStage template scope render) h, ?_⟩
    intro render'
    exact loopStage_eq_of_spent render' render template scope h

/-- A value that cannot be written, behind a budget of one: it is looked up, given to a filter that
does not write it, and looped over, with a renderer that fails. -/
theorem stages_of_spent_budget_of_broken :
    let placeholders : Text := "{{ b }}{{ b | default(1) }}".toList
    let template : Text := placeholders ++ "{% for x in xs %}{{ x }}{% endfor %}".toList
    let b : Value := .broken "boom".toList
    let scope : Scope := [(.text "b".toList, b), (.text "xs".toList, .sequence .list [b])]
    let s : State := { limits := ⟨32, 1⟩, substitutions := 1 }
    let render : BodyRenderer := fun _ _ => throw (.unwritable "boom".toList)
    (s.limits.maxSubstitutions ≤ s.substitutions ∧
      (outcome (plainStage template scope s)).toOption = some template ∧
      (outcome (filteredStage .standard template scope s)).toOption = some template ∧
      (outcome (loopStage render template scope s)).toOption = some placeholders) ∧
    OnlyLooksUp (Filtered.value .standard scope) (occurrences filteredAt template) template
      (filteredStage .standard template scope) s := by
  intro placeholders template b scope s render
  exact ⟨by decide +kernel, (stages_of_spent_budget .standard template scope s (by decide)).2.1⟩

/-- A filter writes its value although no substitution is left, and where that fails the output so
far is lost.  Without the filter the value is not written. -/
theorem filteredStage_of_spent_budget_fails :
    let scope : Scope :=
      [(.text "a".toList, .text "A".toList), (.text "b".toList, .broken "boom".toList)]
    let spent : State := { limits := ⟨32, 0⟩ }
    let template : Text := "{{ a }} {{ b | upper }}".toList
    spent.limits.maxSubstitutions ≤ spent.substitutions ∧
      (∃ after, filteredStage .standard "{{ b | upper }}".toList scope spent
        = .error (.unwritable "boom".toList) after) ∧
      (render .standard ⟨32, 1⟩ template scope).output = template ∧
      (render .standard ⟨32, 1⟩ "{{ a }} {{ b }}".toList scope).output = "A {{ b }}".toList := by
  intro scope spent template
  have hfails : outcome (filteredStage .standard "{{ b | upper }}".toList scope spent)
      = .error (.unwritable "boom".toList) := by
    decide +kernel
  exact ⟨by decide, ⟨_, eq_error_of_outcome hfails⟩, by decide +kernel, by decide +kernel⟩

end Stencil
