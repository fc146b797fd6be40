import Stencil.Proofs.Markup.Escaping
import Stencil.Proofs.Markup.Mention
import Stencil.Proofs.Markup.Written
import Stencil.Proofs.Render.Invariant
import Stencil.Proofs.Text.Part

/-!
# Texts that a render leaves alone

A text without markup comes out of every stage as it went in, and leaves the state as it was
(`untouched_of_not_hasMarkup`).

Whether a text holds markup is asked by one scan (`hasMarkup`), and the stages look for three other
things: tags, plain placeholders and filtered ones.  Each of the three begins with a mark that opens
markup and ends with the mark that closes it, whatever is in between, and so is markup in the sense
of the first scan too (`opensMarkup_of_tagAt`, `opensMarkup_of_plainAt`, `opensMarkup_of_filteredAt`).

    hasMarkup t = false → tags t = [] ∧ blocks t = []
    hasMarkup t = false → render filters limits t scope = ⟨t, []⟩
-/

namespace Stencil

open Render

/-! ## Markup -/

theorem opensMarkup_brace {t : Text} (h : ['}', '}'] <:+: t) :
    opensMarkup ('{' :: '{' :: t) = true :=
  Text.isSome_before?_of_isInfix h

theorem opensMarkup_percent {t : Text} (h : ['%', '}'] <:+: t) :
    opensMarkup ('{' :: '%' :: t) = true :=
  Text.isSome_before?_of_isInfix h

/-- Markup that opens anywhere in a text is markup of the text. -/
theorem hasMarkup_of_isSuffix {t u : Text} (h : u <:+ t) (hu : opensMarkup u = true) :
    hasMarkup t = true := by
  induction t with
  | nil =>
    rw [List.suffix_nil.mp h] at hu
    cases hu
  | cons c t ih =>
    rw [hasMarkup, Bool.or_eq_true]
    rcases List.suffix_cons_iff.mp h with rfl | h
    · exact .inl hu
    · exact .inr (ih h)

/-! ## What the stages look for -/

theorem opensMarkup_of_tagAt {t rest : Text} {tag : Tag} (h : tagAt t = some (tag, rest)) :
    opensMarkup t = true := by
  unfold tagAt at h
  split at h
  · rename_i t
    obtain ⟨⟨word, v⟩, hword, h⟩ := Option.bind_eq_some_iff.mp h
    obtain ⟨name, -, h⟩ := Option.bind_eq_some_iff.mp h
    obtain ⟨⟨argument, u⟩, hbefore, h⟩ := Option.bind_eq_some_iff.mp h
    have hv : v <:+ t := (Text.run?_isInfix hword).2.trans (Text.stripStart_isSuffix t)
    obtain ⟨rfl, -⟩ := Text.before?_eq_some_iff.mp hbefore
    have hclose : ['%', '}'] <:+: argument ++ '%' :: '}' :: u := ⟨argument, u, by simp⟩
    exact opensMarkup_percent (hclose.trans hv.isInfix)
  · cases h

/-- Behind the path of a placeholder is a part of what stands behind its first mark. -/
theorem eq_of_placeholderPathAt {t path v : Text} (h : placeholderPathAt t = some (path, v)) :
    ∃ u, t = '{' :: '{' :: u ∧ v <:+ u := by
  unfold placeholderPathAt at h
  split at h
  · rename_i u
    obtain ⟨⟨w, x⟩, hrun, h⟩ := Option.bind_eq_some_iff.mp h
    cases h
    refine ⟨u, rfl, ?_⟩
    have hx : x <:+ u := (Text.run?_isInfix hrun).2.trans (Text.stripStart_isSuffix u)
    exact (Text.stripStart_isSuffix x).trans hx
  · cases h

/-- A placeholder whose end stands anywhere behind its path is markup. -/
theorem opensMarkup_of_placeholder {t path u v rest : Text}
    (h : placeholderPathAt t = some (path, u)) (hv : v <:+ u)
    (hend : placeholderEnd? v = some rest) : opensMarkup t = true := by
  obtain ⟨w, rfl, hu⟩ := eq_of_placeholderPathAt h
  unfold placeholderEnd? at hend
  split at hend
  · rename_i x
    have hclose : ['}', '}'] <:+: '}' :: '}' :: x := ⟨[], x, rfl⟩
    exact opensMarkup_brace (hclose.trans (hv.trans hu).isInfix)
  · cases hend

theorem opensMarkup_of_plainAt {t path rest : Text} (h : plainAt t = some (path, rest)) :
    opensMarkup t = true := by
  obtain ⟨⟨path, u⟩, hpath, h⟩ := Option.bind_eq_some_iff.mp h
  obtain ⟨v, hend, -⟩ := Option.bind_eq_some_iff.mp h
  exact opensMarkup_of_placeholder hpath (List.suffix_refl u) hend

/-- What is recognised again and again leaves the end of a text. -/
theorem repeatedFrom_isSuffix {α : Type} (r : Recogniser α) (skip : Nat) (t : Text) :
    (repeatedFrom r skip t).2 <:+ t := by
  induction t generalizing skip with
  | nil => exact List.suffix_refl []
  | cons c t ih =>
    unfold repeatedFrom
    cases skip with
    | succ skip => exact (ih skip).trans (List.suffix_cons c t)
    | zero =>
      dsimp only
      split
      · exact (ih _).trans (List.suffix_cons c t)
      · exact List.suffix_refl _

theorem opensMarkup_of_filteredAt {t rest : Text} {f : Filtered}
    (h : filteredAt t = some (f, rest)) : opensMarkup t = true := by
  obtain ⟨⟨path, u⟩, hpath, h⟩ := Option.bind_eq_some_iff.mp h
  obtain ⟨v, hend, -⟩ := Option.bind_eq_some_iff.mp h
  exact opensMarkup_of_placeholder hpath (repeatedFrom_isSuffix segmentAt 0 u) hend

/-! ## Texts without markup -/

/-- What opens markup wherever it is recognised is found in no text without markup. -/
theorem occurrences_of_not_hasMarkup {α : Type} {r : Recogniser α} {t : Text}
    (hr : ∀ u a rest, r u = some (a, rest) → opensMarkup u = true) (h : hasMarkup t = false) :
    occurrences r t = [] := by
  refine occurrences_eq_nil fun u hu => ?_
  cases hru : r u with
  | none => rfl
  | some found =>
    rw [hasMarkup_of_isSuffix hu (hr u found.1 found.2 hru)] at h
    cases h

theorem blocks_of_not_hasMarkup {t : Text} (h : hasMarkup t = false) : blocks t = [] := by
  have htags : tags t = [] := occurrences_of_not_hasMarkup (fun _ _ _ => opensMarkup_of_tagAt) h
  unfold blocks
  rw [htags]
  rfl

variable {t : Text}

theorem resolveConditionals_of_not_hasMarkup (h : hasMarkup t = false) (scope : Scope)
    (room : Nat) (s : State) :
    resolveConditionals scope room t s = .ok t (s.record (.reads .conditionals t)) := by
  rw [resolveConditionals_eq]
  unfold chooseBranches
  rw [blocks_of_not_hasMarkup h]
  rfl

theorem expandLoops_of_not_hasMarkup (h : hasMarkup t = false) (inner : Option BodyRenderer)
    (scope : Scope) (s : State) :
    expandLoops inner scope t s = .ok t (s.record (.reads .loops t)) := by
  unfold expandLoops
  rw [blocks_of_not_hasMarkup h]
  rfl

theorem plainStage_of_not_hasMarkup (h : hasMarkup t = false) (scope : Scope) (s : State) :
    plainStage t scope s = .ok t (s.record (.reads .plain t)) := by
  unfold plainStage
  rw [occurrences_of_not_hasMarkup (fun _ _ _ => opensMarkup_of_plainAt) h]
  rfl

theorem filteredStage_of_not_hasMarkup (h : hasMarkup t = false) (filters : Registry)
    (scope : Scope) (s : State) :
    filteredStage filters t scope s = .ok t (s.record (.reads .filtered t)) := by
  unfold filteredStage
  rw [occurrences_of_not_hasMarkup (fun _ _ _ => opensMarkup_of_filteredAt) h]
  rfl

/-! ## Top theorem -/

/-- The pipeline gives the text back, and puts on record that each stage has read it. -/
theorem renderStages_of_not_hasMarkup (h : hasMarkup t = false) (filters : Registry)
    (scope : Scope) (s : State) :
    renderStages filters t scope s = .ok t { s with history :=
      [.reads .filtered t, .reads .plain t, .reads .loops t, .reads .conditionals t]
        ++ s.history } := by
  show renderWithin filters s.room t scope s = _
  rw [renderWithin_eq]
  unfold renderLevel
  rw [bind_of_ok (resolveConditionals_of_not_hasMarkup h scope s.room s),
    bind_of_ok (expandLoops_of_not_hasMarkup h _ scope _),
    bind_of_ok (plainStage_of_not_hasMarkup h scope _)]
  exact filteredStage_of_not_hasMarkup h filters scope _

theorem render_of_not_hasMarkup (h : hasMarkup t = false) (filters : Registry) (limits : Limits)
    (scope : Scope) : render filters limits t scope = ⟨t, []⟩ := by
  unfold render
  rw [show (renderStages filters t scope).run { limits := limits } = _ from
    renderStages_of_not_hasMarkup h filters scope { limits := limits }]
  rfl

/-- **Text without markup is left alone.**  Whatever the scope, the filters and the state: every
stage gives such a text back, loops with whatever renderer for their bodies, and so do the four
together; nothing changes in the state but that the text is on record as read, and there is no
notice.  So a render changes a text only if there is markup in it, and leaves escaped texts as they
are. -/
theorem untouched_of_not_hasMarkup (filters : Registry) (scope : Scope) (s : State)
    (limits : Limits) :
    (∀ t, hasMarkup t = false →
      (∀ stage : Stage, stage.run filters t scope s = .ok t (s.record (.reads stage t))) ∧
      (∀ body, loopStage body t scope s = .ok t (s.record (.reads .loops t))) ∧
      renderStages filters t scope s = .ok t { s with history :=
        [.reads .filtered t, .reads .plain t, .reads .loops t, .reads .conditionals t]
          ++ s.history } ∧
      render filters limits t scope = ⟨t, []⟩) ∧
    (∀ t, (render filters limits t scope).output ≠ t → hasMarkup t = true) ∧
    ∀ u, render filters limits (escape u) scope = ⟨escape u, []⟩ := by
  refine ⟨fun t h => ?_, fun t hne => ?_, fun u => ?_⟩
  · have hloops (body : BodyRenderer) :
        loopStage body t scope s = .ok t (s.record (.reads .loops t)) :=
      expandLoops_of_not_hasMarkup h _ scope s
    refine ⟨fun stage => ?_, hloops, renderStages_of_not_hasMarkup h filters scope s,
      render_of_not_hasMarkup h filters limits scope⟩
    cases stage with
    | conditionals => exact resolveConditionals_of_not_hasMarkup h scope s.room s
    | loops => exact hloops _
    | plain => exact plainStage_of_not_hasMarkup h scope s
    | filtered => exact filteredStage_of_not_hasMarkup h filters scope s
  · by_contra hmarkup
    apply hne
    rw [render_of_not_hasMarkup (eq_false_of_ne_true hmarkup) filters limits scope]
  · exact render_of_not_hasMarkup (markFree_escapeAfter none u).hasMarkup_eq_false filters limits
      scope

/-- Braces alone are no markup, nor is markup that is never closed. -/
theorem untouched_of_not_hasMarkup_of_braces :
    let text : Text := ['{', '{'] ++ " a ".toList ++ '{' :: "% if a %".toList ++ ['{', ' ', '}']
    hasMarkup text = false ∧ render .standard {} text [] = ⟨text, []⟩ := by
  intro text
  have h : hasMarkup text = false := by decide +kernel
  exact ⟨h, ((untouched_of_not_hasMarkup .standard [] {} {}).1 _ h).2.2.2⟩

end Stencil
