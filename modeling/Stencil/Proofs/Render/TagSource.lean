import Stencil.Proofs.Render.Invariant

/-!
# Where tags come from

Tags are read from the template and never from a value: whatever text a stage scans for tags, at any
depth of a render, consists of characters of the template in their order
(`scanned_sublist_template`).  A tag in the text of a value comes out as it is.

Conditionals are resolved first, and what comes out is a subsequence of what went in, for branches
stand in the place of their blocks (`resolveConditionals_sublist`).  Loops read that, and hand bodies
to the whole pipeline.  What the turns give holds text of values, but it goes to the stages of
placeholders only, which look for no tags.
-/

namespace Stencil

open Render

/-- Between two states, all that has been scanned for tags are subsequences of a template. -/
def ScansOnly (template : Text) (before after : State) : Prop :=
  ∃ new, after.history = new ++ before.history ∧
    ∀ stage t, stage.scansTags = true → .reads stage t ∈ new → t.Sublist template

namespace ScansOnly

variable {template : Text} {s t u : State}

theorem trans (h : ScansOnly template s t) (g : ScansOnly template t u) : ScansOnly template s u := by
  obtain ⟨new1, h1, s1⟩ := h
  obtain ⟨new2, h2, s2⟩ := g
  refine ⟨new2 ++ new1, by rw [h2, h1, List.append_assoc], fun stage text hs ht => ?_⟩
  rcases List.mem_append.mp ht with ht | ht
  · exact s2 stage text hs ht
  · exact s1 stage text hs ht

/-- A step that puts nothing on record. -/
theorem of_history_eq (h : t.history = s.history) : ScansOnly template s t :=
  ⟨[], h, nofun⟩

/-- A step that puts one event on record. -/
theorem of_record {e : Event} (h : t.history = e :: s.history)
    (he : ∀ stage text, stage.scansTags = true → e = .reads stage text → text.Sublist template) :
    ScansOnly template s t := by
  refine ⟨[e], h, fun stage text hs ht => ?_⟩
  rw [List.mem_singleton] at ht
  exact he stage text hs ht.symm

theorem of_depth {n : Nat} (h : t.history = .depth n :: s.history) : ScansOnly template s t :=
  of_record h nofun

end ScansOnly

/-- That a limit is reached is no event. -/
theorem Render.history_exhaust (s : State) (n : Notice) : (s.exhaust n).history = s.history := by
  unfold State.exhaust
  split <;> rfl

/-- Programs that scan only subsequences of a template keep to that. -/
theorem kept_scansOnly (template : Text) :
    Kept (.itself fun t => t.Sublist template) fun _ => ScansOnly template where
  refl _ _ := .of_history_eq rfl
  trans := .trans
  note _ _ _ _ := .of_history_eq rfl
  pay _ _ := .of_history_eq rfl
  spent _ s := .of_history_eq (history_exhaust s _)
  reads h _ := by
    refine .of_record rfl fun stage t hs he => ?_
    cases he
    obtain ⟨_, -, ht⟩ := h hs
    exact ht
  refuse _ s := .of_history_eq (history_exhaust s _)
  enter h := (ScansOnly.of_depth rfl).trans (h.trans (.of_depth rfl))

/-! ## Top theorem -/

/-- **Tags are read from the template only.**  Whatever the scope, the filters and the state to start
from, every text that a stage of a render scans for tags, at whatever depth and however the render
ends, is a subsequence of the template; and so is what the stage of conditionals returns, which is
therefore never longer than the template. -/
theorem scanned_sublist_template (filters : Registry) (template : Text) (scope : Scope) (s : State) :
    ScansOnly template s ((renderStages filters template scope).endState s) ∧
      ∀ u t, conditionalStage template scope s = .ok u t →
        u.Sublist template ∧ u.length ≤ template.length := by
  have halike : Alike (.itself fun t => t.Sublist template) True s.room s.room
      (renderWithin filters s.room template scope) (renderWithin filters s.room template scope) :=
    alike_renderWithin (Comparison.itself_lawful (fun _ _ ht hu => hu.trans ht) filters) rfl
      ⟨rfl, .refl template⟩
  refine ⟨(halike.keeps (kept_scansOnly template) s rfl).2, fun u t hu => ?_⟩
  have hsub : u.Sublist template := resolveConditionals_sublist hu
  exact ⟨hsub, hsub.length_le⟩

/-- A value with tags in its text goes through two turns of a loop, and what is scanned for tags is
the template, the body of the loop, and the branch in it. -/
theorem scanned_sublist_template_of_value_with_tags :
    let template := "{% for x in a %}{% if x %}{{ x }}{% endif %}{% endfor %}".toList
    let value := Value.text "{% if b %}{{ c }}{% endif %}".toList
    let scope : Scope := [(.text "a".toList, .sequence .list [value, value])]
    let final := (renderStages .standard template scope).endState {}
    ScansOnly template {} final ∧
      .reads .conditionals "{% if x %}{{ x }}{% endif %}".toList ∈ final.history ∧
      .reads .filtered "{% if b %}{{ c }}{% endif %}".toList ∈ final.history := by
  refine ⟨(scanned_sublist_template _ _ _ _).1, ?_, ?_⟩
  · decide +kernel
  · decide +kernel

end Stencil
