import Mathlib.Data.List.Forall2
import Stencil.Proofs.Markup.PlaceholderSpelling
import Stencil.Proofs.Render.Edited
import Stencil.Render.Pipeline

/-!
# What a stage of placeholders replaces

The placeholders of a text are the leftmost pieces that are spelled like one.  Of those that name a
value, the first few are replaced by its text, as many as the budget allows; all else stays as it is
(`placeholderStages_substitute_once`).

The stage looks a placeholder up before it asks for a substitution, and the lookup leaves the
counters alone (`Render.Finds`).  So each placeholder that names a value is charged for, and no other
(`exists_edits_iff`).
-/

namespace Stencil

open Render

/-! ## Lookups -/

/-- What becomes of a value in one segment of a chain.  An unknown filter changes nothing. -/
def Registry.pass (filters : Registry) (value : Option Value) (segment : Segment) :
    Except Failure (Option Value) :=
  match filters.find? segment.filter with
  | none => .ok value
  | some filter => filter.apply value (readArguments segment.arguments)

/-- The value that a filtered placeholder names, if any: that of the path, passed from segment to
segment. -/
def Filtered.value (filters : Registry) (scope : Scope) (placeholder : Filtered) :
    Except Failure (Option Value) := do
  (segments placeholder.chain).foldlM filters.pass (← scope.resolve placeholder.path)

theorem finds_applySegment (filters : Registry) (value : Option Value) (segment : Segment) :
    Finds (applySegment filters value segment) (filters.pass value segment) := by
  unfold applySegment Registry.pass
  cases filters.find? segment.filter with
  | none => exact finds_bind (finds_note _) fun _ => finds_pure value
  | some filter => exact finds_ofExcept _

theorem finds_applySegments (filters : Registry) (value : Option Value) (list : List Segment) :
    Finds (list.foldlM (applySegment filters) value) (list.foldlM filters.pass value) := by
  induction list generalizing value with
  | nil => exact finds_pure value
  | cons segment rest ih =>
    rw [List.foldlM_cons, List.foldlM_cons]
    exact finds_bind (finds_applySegment filters value segment) ih

/-- The lookup of a filtered placeholder in a render. -/
def Filtered.lookUp (filters : Registry) (scope : Scope) (placeholder : Filtered) :
    Render (Option Value) := do
  applyChain filters (← Render.ofExcept (scope.resolve placeholder.path)) placeholder.chain

theorem finds_lookUp (filters : Registry) (scope : Scope) (placeholder : Filtered) :
    Finds (placeholder.lookUp filters scope) (placeholder.value filters scope) :=
  finds_bind (finds_ofExcept _) fun value => finds_applySegments filters value _

theorem fillFiltered_eq (filters : Registry) (scope : Scope) :
    fillFiltered filters scope = fun placeholder =>
      placeholder.lookUp filters scope >>= payAndDisplay := by
  funext placeholder
  unfold fillFiltered Filtered.lookUp
  rw [bind_assoc]

/-! ## Replacements -/

section
variable {α : Type} (lookup : α → Except Failure (Option Value))

/-- The occurrences that name a value, with the value. -/
def resolved (found : List (Occurrence α)) : List (Occurrence α × Value) :=
  found.filterMap fun o =>
    match lookup o.item with
    | .ok (some value) => some (o, value)
    | _ => none

/-- An edit puts the text of a value in the place of an occurrence. -/
def Replaces (p : Occurrence α × Value) (e : Edit) : Prop :=
  e.start = p.1.start ∧ e.stop = p.1.stop ∧ p.2.display = .ok e.text

variable {lookup} {o : Occurrence α} {os : List (Occurrence α)}

theorem resolved_of_some {v : Value} (h : lookup o.item = .ok (some v)) :
    resolved lookup (o :: os) = (o, v) :: resolved lookup os :=
  List.filterMap_cons_some (by rw [h])

theorem resolved_of_none (h : lookup o.item = .ok none) :
    resolved lookup (o :: os) = resolved lookup os :=
  List.filterMap_cons_none (by rw [h])

/-- A value is asked for, and written if that is granted. -/
theorem exists_payAndDisplay_iff {v : Value} {s : State} {es : List Edit} {c : Counters} :
    (∃ text t, payAndDisplay (some v) s = .ok text t ∧ t.counters = c ∧
        es = (o.edit? text).toList) ↔
      List.Forall₂ Replaces ([(o, v)].take s.counters.left) es ∧ c = s.counters.charge 1 := by
  obtain ⟨t, hspend, hcounters⟩ := exists_spend s
  rw [payAndDisplay, bind_of_ok hspend, ← hcounters]
  by_cases hleft : 0 < s.counters.left
  · rw [decide_eq_true hleft, List.take_of_length_le hleft]
    constructor
    · rintro ⟨text, t', h, rfl, rfl⟩
      cases hv : v.display with
      | ok u =>
        rw [hv] at h
        cases h
        exact ⟨.cons ⟨rfl, rfl, hv⟩ .nil, rfl⟩
      | error e =>
        rw [hv] at h
        cases h
    · rintro ⟨hes, rfl⟩
      obtain _ | @⟨_, ⟨start, stop, u⟩, _, _, ⟨rfl, rfl, hu⟩, _ | _⟩ := hes
      have hu : v.display = .ok u := hu
      rw [hu]
      exact ⟨some u, t, rfl, rfl, rfl⟩
  · have hspent : s.counters.left = 0 := by omega
    rw [decide_eq_false hleft, hspent, List.take_zero, List.forall₂_nil_left_iff]
    constructor
    · rintro ⟨text, t', h, rfl, rfl⟩
      cases h
      exact ⟨rfl, rfl⟩
    · rintro ⟨rfl, rfl⟩
      exact ⟨none, t, rfl, rfl, rfl⟩

/-- What one occurrence is replaced by.  If it names a value, that is asked for, and else nothing. -/
theorem exists_fill_iff {look : α → Render (Option Value)} (hlook : ∀ a, Finds (look a) (lookup a))
    {s : State} {es : List Edit} {c : Counters} :
    (∃ text t, (look o.item >>= payAndDisplay) s = .ok text t ∧ t.counters = c ∧
        es = (o.edit? text).toList) ↔
      (∃ v, lookup o.item = .ok v) ∧
        List.Forall₂ Replaces ((resolved lookup [o]).take s.counters.left) es ∧
        c = s.counters.charge (resolved lookup [o]).length := by
  cases hv : lookup o.item with
  | error e =>
    obtain ⟨t, ht, -⟩ := (hv ▸ hlook o.item).exists_error s
    rw [bind_of_error ht]
    constructor
    · rintro ⟨text, t', h, -⟩
      cases h
    · rintro ⟨⟨v, h⟩, -⟩
      cases h
  | ok value =>
    obtain ⟨t, ht, hcounters⟩ := (hv ▸ hlook o.item).exists_ok s
    rw [bind_of_ok ht, ← hcounters]
    cases value with
    | none =>
      have hnone : resolved lookup [o] = [] := resolved_of_none hv
      rw [hnone, List.take_nil, List.length_nil, Counters.charge_zero, List.forall₂_nil_left_iff]
      constructor
      · rintro ⟨text, t', h, rfl, rfl⟩
        cases h
        exact ⟨⟨none, rfl⟩, rfl, rfl⟩
      · rintro ⟨-, rfl, rfl⟩
        exact ⟨none, t, rfl, rfl, rfl⟩
    | some v =>
      have hsome : resolved lookup [o] = [(o, v)] := resolved_of_some hv
      rw [hsome, exists_payAndDisplay_iff]
      exact (and_iff_right ⟨some v, rfl⟩).symm

/-- **The course of a stage.**  It returns if every lookup does and the texts of the values can be
written as far as the budget goes.  Each value is asked for, and nothing else. -/
theorem exists_edits_iff {look : α → Render (Option Value)}
    (hlook : ∀ a, Finds (look a) (lookup a)) (found : List (Occurrence α)) (s : State)
    (es : List Edit) (c : Counters) :
    (∃ after, edits (fun a => look a >>= payAndDisplay) found s = .ok es after ∧
        after.counters = c) ↔
      (∀ o ∈ found, ∃ v, lookup o.item = .ok v) ∧
        List.Forall₂ Replaces ((resolved lookup found).take s.counters.left) es ∧
        c = s.counters.charge (resolved lookup found).length := by
  induction found generalizing s es c with
  | nil =>
    have hnil : resolved lookup [] = [] := rfl
    rw [hnil, List.take_nil, List.length_nil, Counters.charge_zero, List.forall₂_nil_left_iff]
    constructor
    · rintro ⟨after, h, rfl⟩
      cases h
      exact ⟨nofun, rfl, rfl⟩
    · rintro ⟨-, rfl, rfl⟩
      exact ⟨s, rfl, rfl⟩
  | cons o os ih =>
    -- what the first one names is asked for first, and then what the others do
    have hsplit : resolved lookup (o :: os) = resolved lookup [o] ++ resolved lookup os :=
      List.filterMap_append (l := [o])
    rw [exists_edits_cons_iff, List.forall_mem_cons, hsplit, List.take_append, List.length_append,
      ← Counters.charge_charge, ← Counters.left_charge]
    simp only [ih]
    constructor
    · rintro ⟨text, between, rest, hfill, ⟨hos, hes, hc⟩, rfl⟩
      obtain ⟨ho, hfirst, hpaid⟩ := (exists_fill_iff hlook).mp ⟨text, between, hfill, rfl, rfl⟩
      rw [hpaid] at hes hc
      exact ⟨⟨ho, hos⟩, List.rel_append hfirst hes, hc⟩
    · rintro ⟨⟨ho, hos⟩, hes, hc⟩
      have hfirst := (List.forall₂_take_append _ _ _ hes.flip).flip
      have hrest := (List.forall₂_drop_append _ _ _ hes.flip).flip
      obtain ⟨text, between, hfill, hpaid, he⟩ := (exists_fill_iff hlook).mpr ⟨ho, hfirst, rfl⟩
      rw [← hpaid] at hrest hc
      exact ⟨text, between, _, hfill, ⟨hos, hrest, hc⟩, by rw [← he, List.take_append_drop]⟩

/-! ## Stages -/

/-- A stage replaces the occurrences that name a value, as many of them as the budget allows, and
leaves all else. -/
structure ReplacesResolved (lookup : α → Except Failure (Option Value)) (template : Text)
    (found : List (Occurrence α)) (stage : Render Text) : Prop where
  /-- It returns if every lookup does, and the values for which there is a substitution left can be
  written. -/
  returns : ∀ s, (∃ out after, stage s = .ok out after) ↔
    (∀ o ∈ found, ∃ v, lookup o.item = .ok v) ∧
      ∀ p ∈ (resolved lookup found).take (s.limits.maxSubstitutions - s.substitutions),
        ∃ u, p.2.display = .ok u
  output : ∀ s out after, stage s = .ok out after → ∃ es,
    List.Forall₂ Replaces
      ((resolved lookup found).take (s.limits.maxSubstitutions - s.substitutions)) es ∧
      out = template.edited 0 es
  substitutions : ∀ s out after, stage s = .ok out after → after.substitutions
    = s.substitutions
      + min (s.limits.maxSubstitutions - s.substitutions) (resolved lookup found).length
  exhausted : ∀ s out after, stage s = .ok out after → (after.exhausted = true ↔
    s.exhausted = true ∨
      s.limits.maxSubstitutions - s.substitutions < (resolved lookup found).length)
  depth : ∀ s out after, stage s = .ok out after → after.depth = s.depth

/-- The values of a list of replacements can be written. -/
theorem exists_replaces_iff (ps : List (Occurrence α × Value)) :
    (∃ es, List.Forall₂ Replaces ps es) ↔ ∀ p ∈ ps, ∃ u, p.2.display = .ok u := by
  induction ps with
  | nil => exact ⟨fun _ => nofun, fun _ => ⟨[], .nil⟩⟩
  | cons p ps ih =>
    rw [List.forall_mem_cons, ← ih]
    constructor
    · rintro ⟨es, h⟩
      cases h with
      | cons hp hps => exact ⟨⟨_, hp.2.2⟩, _, hps⟩
    · rintro ⟨⟨u, hu⟩, es, hes⟩
      exact ⟨⟨p.1.start, p.1.stop, u⟩ :: es, .cons ⟨rfl, rfl, hu⟩ hes⟩

theorem replacesResolved {look : α → Render (Option Value)}
    (hlook : ∀ a, Finds (look a) (lookup a)) (r : Recogniser α) (stage : Stage) (template : Text) :
    ReplacesResolved lookup template (occurrences r template) (do
      Render.reads stage template
      substitute (occurrences r template) (fun a => look a >>= payAndDisplay) template) := by
  have hrun (s after : State) (out : Text) :
      substitute (occurrences r template) (fun a => look a >>= payAndDisplay) template
          (s.record (.reads stage template)) = .ok out after ↔
        ∃ es, edits (fun a => look a >>= payAndDisplay) (occurrences r template)
          (s.record (.reads stage template)) = .ok es after ∧ out = template.edited 0 es :=
    substitute_eq_ok_iff (occurrences_inOrder r template)
  have hedits (s : State) := exists_edits_iff hlook (occurrences r template)
    (s.record (.reads stage template))
  have hcounters {s after : State} {out : Text}
      (h : substitute (occurrences r template) (fun a => look a >>= payAndDisplay) template
        (s.record (.reads stage template)) = .ok out after) :
      after.counters
        = s.counters.charge (resolved lookup (occurrences r template)).length := by
    obtain ⟨es, hes, -⟩ := (hrun s after out).mp h
    exact ((hedits s es _).mp ⟨after, hes, rfl⟩).2.2
  refine ⟨fun s => ?_, fun s out after h => ?_, fun s out after h => ?_, fun s out after h => ?_,
    fun s out after h => ?_⟩
  · rw [← exists_replaces_iff]
    constructor
    · rintro ⟨out, after, h⟩
      obtain ⟨es, hes, -⟩ := (hrun s after out).mp h
      obtain ⟨hfound, hreplaces, -⟩ := (hedits s es _).mp ⟨after, hes, rfl⟩
      exact ⟨hfound, es, hreplaces⟩
    · rintro ⟨hfound, es, hreplaces⟩
      obtain ⟨after, hes, -⟩ := (hedits s es _).mpr ⟨hfound, hreplaces, rfl⟩
      exact ⟨_, after, (hrun s after _).mpr ⟨es, hes, rfl⟩⟩
  · obtain ⟨es, hes, hout⟩ := (hrun s after out).mp h
    exact ⟨es, ((hedits s es _).mp ⟨after, hes, rfl⟩).2.1, hout⟩
  · exact congrArg Counters.substitutions (hcounters h)
  · have hexhausted : after.exhausted = (s.exhausted || decide
        (s.counters.left < (resolved lookup (occurrences r template)).length)) :=
      congrArg Counters.exhausted (hcounters h)
    rw [hexhausted, Bool.or_eq_true, decide_eq_true_iff]
    rfl
  · exact congrArg Counters.depth (hcounters h)

end

/-- **The stages of placeholders substitute once, from left to right, within the budget.**  The
placeholders of a template are the leftmost pieces that are spelled like one, each behind the one
before it.  Where a stage returns, the first of those that name a value give way to its text, as
many as there are substitutions left, and the rest of the template is as it was.  The substitutions
made are counted, and the limit is on record as reached if there were too few. -/
theorem placeholderStages_substitute_once (filters : Registry) (template : Text) (scope : Scope) :
    (∃ found, (∀ os, Leftmost PlainSpelled template 0 os ↔ os = found) ∧
      ReplacesResolved scope.resolve template found (plainStage template scope)) ∧
    ∃ found, (∀ os, Leftmost Filtered.Spelled template 0 os ↔ os = found) ∧
      ReplacesResolved (Filtered.value filters scope) template found
        (filteredStage filters template scope) := by
  refine ⟨⟨_, leftmost_iff plainAt_takes template, ?_⟩,
    ⟨_, leftmost_iff filteredAt_takes template, ?_⟩⟩
  · exact replacesResolved (fun path => finds_ofExcept (scope.resolve path)) plainAt .plain template
  · unfold filteredStage
    rw [fillFiltered_eq]
    exact replacesResolved (finds_lookUp filters scope) filteredAt .filtered template

/-- A brace before a placeholder, one that names nothing, a value that is written as a placeholder,
and a budget of two. -/
example :
    let scope : Scope :=
      [(.text "a".toList, .text "{{ c }}".toList), (.text "c".toList, .text "d".toList)]
    let stage := plainStage "{{{ a }}} {{ b }} {{ a }} {{ a }}".toList scope
    let s : State := { limits := ⟨32, 2⟩ }
    (outcome (stage s)).toOption = some "{{{ c }}} {{ b }} {{ c }} {{ a }}".toList ∧
      (stage.endState s).substitutions = 2 ∧ (stage.endState s).exhausted = true := by
  decide +kernel

end Stencil
