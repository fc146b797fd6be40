import Stencil.Proofs.Filter.Registration
import Stencil.Proofs.Template.Residue

/-!
# Placeholders that stay

A filtered placeholder gives way to a value, if there is one at the end of its chain.  Of the
filters that are always there, two make a value where there is none, and none takes one away:

    {{ nothing | upper | shout | join(" ") }}     stays
    {{ nothing | upper | default("-") | shout }}  gives way
    {{ nothing | length | upper }}                gives way

One step of a chain leaves nothing if it finds nothing and does not make a value
(`Registry.pass_standard_eq_none_iff`).  By induction that holds of chains of any length, and so it
says which placeholders of a template the stage replaces (`unresolved_placeholders_stay`).
-/

namespace Stencil

open Render

/-- The segments whose filter makes a value where there is none. -/
def Segment.supplies (segment : Segment) : Bool :=
  segment.filter == "default".toList || segment.filter == "length".toList

/-- A placeholder stays if its path names nothing and no filter of its chain supplies a value. -/
def Filtered.stays (placeholder : Filtered) (scope : Scope) : Bool :=
  (match scope.resolve placeholder.path with
    | .ok none => true
    | _ => false) &&
  (segments placeholder.chain).all fun segment => !segment.supplies

/-! ## One filter -/

/-- Where there is nothing, two filters make a value, and the others leave it so. -/
theorem Builtin.apply_none (b : Builtin) (args : List Value) (list : Option Text) :
    b.apply none args = .ok none ↔ (⟨b.name, list⟩ : Segment).supplies = false := by
  cases b with
  | default => exact ⟨nofun, fun h => Bool.noConfusion h⟩
  | length => exact ⟨nofun, fun h => Bool.noConfusion h⟩
  | upper => exact ⟨fun _ => rfl, fun _ => rfl⟩
  | lower => exact ⟨fun _ => rfl, fun _ => rfl⟩
  | capitalize => exact ⟨fun _ => rfl, fun _ => rfl⟩
  | join => exact ⟨fun _ => rfl, fun _ => rfl⟩

/-- One step of a chain leaves nothing if it finds nothing and supplies nothing. -/
theorem Registry.pass_standard_eq_none_iff (value : Option Value) (segment : Segment) :
    Registry.standard.pass value segment = .ok none ↔
      value = none ∧ segment.supplies = false := by
  unfold Registry.pass
  cases hfind : Registry.standard.find? segment.filter with
  | none =>
    -- a name that is not known is neither of the two
    have hunknown (b : Builtin) : segment.filter ≠ b.name := by
      intro hname
      have hknown := find?_standard_eq_some_iff.mpr ⟨b, hname.symm, rfl⟩
      rw [hfind] at hknown
      cases hknown
    have hsupplies : segment.supplies = false := by
      unfold Segment.supplies
      rw [Bool.or_eq_false_iff]
      exact ⟨beq_false_of_ne (hunknown .default), beq_false_of_ne (hunknown .length)⟩
    show Except.ok value = .ok none ↔ _
    rw [Except.ok.injEq, hsupplies]
    simp
  | some filter =>
    obtain ⟨b, hname, rfl⟩ := find?_standard_eq_some_iff.mp hfind
    obtain ⟨name, list⟩ := segment
    obtain rfl : b.name = name := hname
    show b.apply value (readArguments list) = .ok none ↔ _
    cases value with
    | none => rw [b.apply_none _ list, eq_self, true_and]
    | some v =>
      constructor
      · intro h
        cases b.isSome_of_apply h
      · rintro ⟨h, -⟩
        cases h

/-! ## A chain -/

/-- A chain leaves nothing if it starts from nothing and no segment of it supplies a value. -/
theorem Registry.foldlM_standard_eq_none_iff (list : List Segment) (value : Option Value) :
    list.foldlM Registry.standard.pass value = .ok none ↔
      value = none ∧ ∀ segment ∈ list, segment.supplies = false := by
  induction list generalizing value with
  | nil =>
    show Except.ok value = .ok none ↔ _
    rw [Except.ok.injEq]
    simp
  | cons segment rest ih =>
    rw [List.foldlM_cons, List.forall_mem_cons, ← and_assoc, ← pass_standard_eq_none_iff]
    cases hpass : Registry.standard.pass value segment with
    | error e => exact ⟨nofun, fun h => nomatch h.1⟩
    | ok next =>
      rw [Except.ok.injEq]
      exact ih next

theorem Filtered.stays_iff (placeholder : Filtered) (scope : Scope) :
    placeholder.stays scope = true ↔ scope.resolve placeholder.path = .ok none ∧
      ∀ segment ∈ segments placeholder.chain, segment.supplies = false := by
  unfold stays
  rw [Bool.and_eq_true, List.all_eq_true]
  simp only [Bool.not_eq_true']
  refine and_congr_left fun _ => ?_
  split
  · rename_i h
    simp [h]
  · rename_i h
    exact ⟨nofun, fun hnone => absurd hnone h⟩

/-- What stays is what names no value, and nothing fails on the way to that. -/
theorem Filtered.value_eq_none_iff (placeholder : Filtered) (scope : Scope) :
    placeholder.value .standard scope = .ok none ↔ placeholder.stays scope = true := by
  rw [stays_iff]
  unfold value
  cases scope.resolve placeholder.path with
  | error e => exact ⟨nofun, fun h => nomatch h.1⟩
  | ok value =>
    rw [Except.ok.injEq]
    exact Registry.foldlM_standard_eq_none_iff _ value

/-! ## A stage -/

/-- An edit puts the text of what a placeholder names in its place. -/
def Fills (filters : Registry) (scope : Scope) (o : Occurrence Filtered) (e : Edit) : Prop :=
  e.start = o.start ∧ e.stop = o.stop ∧
    ∃ v, o.item.value filters scope = .ok (some v) ∧ v.display = .ok e.text

/-- The placeholders that name a value are those that do not stay. -/
theorem map_fst_resolved {scope : Scope} {found : List (Occurrence Filtered)}
    (h : ∀ o ∈ found, ∃ v, o.item.value .standard scope = .ok v) :
    (resolved (Filtered.value .standard scope) found).map Prod.fst
      = found.filter fun o => !o.item.stays scope := by
  induction found with
  | nil => rfl
  | cons o os ih =>
    obtain ⟨⟨value, hvalue⟩, hos⟩ := List.forall_mem_cons.mp h
    have hstays := o.item.value_eq_none_iff scope
    cases value with
    | none =>
      rw [resolved_of_none hvalue, ih hos, List.filter_cons_of_neg]
      simp [hstays.mp hvalue]
    | some v =>
      have hfalse : o.item.stays scope = false := by
        rw [← Bool.not_eq_true, ← hstays, hvalue]
        nofun
      rw [resolved_of_some hvalue, List.map_cons, ih hos, List.filter_cons_of_pos]
      rw [hfalse]
      rfl

theorem value_of_mem_resolved {α : Type} {lookup : α → Except Failure (Option Value)}
    {found : List (Occurrence α)} {p : Occurrence α × Value} (h : p ∈ resolved lookup found) :
    lookup p.1.item = .ok (some p.2) := by
  obtain ⟨o, -, ho⟩ := List.mem_filterMap.mp h
  split at ho
  · rename_i hvalue
    cases ho
    exact hvalue
  · cases ho

/-- To fill the placeholders that do not stay is to replace those that name a value. -/
theorem forall₂_fills_iff {scope : Scope} {found : List (Occurrence Filtered)}
    (h : ∀ o ∈ found, ∃ v, o.item.value .standard scope = .ok v) (n : Nat) (es : List Edit) :
    List.Forall₂ (Fills .standard scope) ((found.filter fun o => !o.item.stays scope).take n) es ↔
      List.Forall₂ Replaces ((resolved (Filtered.value .standard scope) found).take n) es := by
  have hvalue : ∀ p ∈ (resolved (Filtered.value .standard scope) found).take n,
      p.1.item.value .standard scope = .ok (some p.2) :=
    fun p hp => value_of_mem_resolved (List.mem_of_mem_take hp)
  rw [← map_fst_resolved h, ← List.map_take, List.forall₂_map_left_iff]
  constructor
  · intro hes
    refine ((List.forall₂_and_left _ _).mpr ⟨hvalue, hes⟩).imp fun p e hp => ?_
    obtain ⟨hnamed, hstart, hstop, v, hv, htext⟩ := hp
    rw [hnamed] at hv
    cases hv
    exact ⟨hstart, hstop, htext⟩
  · intro hes
    refine ((List.forall₂_and_left _ _).mpr ⟨hvalue, hes⟩).imp fun p e hp => ?_
    obtain ⟨hnamed, hstart, hstop, htext⟩ := hp
    exact ⟨hstart, hstop, p.2, hnamed, htext⟩

theorem replaces_unique {α : Type} : Relator.RightUnique (Replaces (α := α)) := by
  rintro p ⟨start, stop, text⟩ ⟨start', stop', text'⟩ ⟨hstart, hstop, htext⟩
    ⟨hstart', hstop', htext'⟩
  rw [htext] at htext'
  cases htext'
  cases hstart.trans hstart'.symm
  cases hstop.trans hstop'.symm
  rfl

/-- The stage returns a text if every lookup returns, and the text is the template in which the
first placeholders that do not stay have given way, as many as there are substitutions left. -/
theorem filteredStage_standard_iff {template out : Text} {scope : Scope} {s : State} :
    (∃ after, filteredStage .standard template scope s = .ok out after) ↔
      (∀ o ∈ occurrences filteredAt template, ∃ v, o.item.value .standard scope = .ok v) ∧
      ∃ es, List.Forall₂ (Fills .standard scope)
          (((occurrences filteredAt template).filter fun o => !o.item.stays scope).take
            (s.limits.maxSubstitutions - s.substitutions)) es ∧
        out = template.edited 0 es := by
  have hstage := replacesResolved (finds_lookUp .standard scope) filteredAt .filtered template
  unfold filteredStage
  rw [fillFiltered_eq]
  constructor
  · rintro ⟨after, h⟩
    obtain ⟨hfound, -⟩ := (hstage.returns s).mp ⟨out, after, h⟩
    obtain ⟨es, hes, hout⟩ := hstage.output s out after h
    exact ⟨hfound, es, (forall₂_fills_iff hfound _ es).mpr hes, hout⟩
  · rintro ⟨hfound, es, hes, rfl⟩
    have hreplaces := (forall₂_fills_iff hfound _ es).mp hes
    obtain ⟨out, after, h⟩ :=
      (hstage.returns s).mpr ⟨hfound, (exists_replaces_iff _).mp ⟨es, hreplaces⟩⟩
    obtain ⟨es', hes', rfl⟩ := hstage.output s out after h
    obtain rfl := Relator.RightUnique.forall₂ replaces_unique hreplaces hes'
    exact ⟨after, h⟩

/-- **Which filtered placeholders stay.**  Under the filters that are always there, a chain leaves
nothing if there was nothing before it and none of its segments is called `default` or `length`, and
only then; so a value that any filter has made stays through all that follow.  In a template just
the placeholders of that kind stay as they are, and of the others as many give way as there are
substitutions left. -/
theorem unresolved_placeholders_stay :
    (∀ (value : Option Value) (chain : Text) (s : State),
      (∃ t, applyChain .standard value chain s = .ok none t) ↔
        value = none ∧ ∀ segment ∈ segments chain,
          segment.filter ≠ "default".toList ∧ segment.filter ≠ "length".toList) ∧
    (∀ (value : Option Value) (chain : Text) (first rest : List Segment) (v : Value)
        (last : Option Value) (s between t : State), segments chain = first ++ rest →
      first.foldlM (applySegment .standard) value s = .ok (some v) between →
      applyChain .standard value chain s = .ok last t → last ≠ none) ∧
    ∀ (template out : Text) (scope : Scope) (s : State),
      (∃ after, filteredStage .standard template scope s = .ok out after) ↔
        (∀ o ∈ occurrences filteredAt template, ∃ v, o.item.value .standard scope = .ok v) ∧
        ∃ es, List.Forall₂ (Fills .standard scope)
            (((occurrences filteredAt template).filter fun o => !o.item.stays scope).take
              (s.limits.maxSubstitutions - s.substitutions)) es ∧
          out = template.edited 0 es := by
  refine ⟨fun value chain s => ?_, ?_, fun template out scope s => filteredStage_standard_iff⟩
  · have hsupplies (segment : Segment) : segment.supplies = false ↔
        segment.filter ≠ "default".toList ∧ segment.filter ≠ "length".toList := by
      unfold Segment.supplies
      rw [Bool.or_eq_false_iff, beq_eq_false_iff_ne, beq_eq_false_iff_ne]
    have hreturns := (appliesInOrder_foldlM .standard (segments chain) value).returns s none
    simp only [← hsupplies, ← Registry.foldlM_standard_eq_none_iff]
    constructor
    · rintro ⟨t, h⟩
      exact ((hreturns t).mp h).1
    · intro h
      exact ⟨_, (hreturns _).mpr ⟨h, rfl⟩⟩
  · rintro value chain first rest v last s between t hchain hfirst h rfl
    unfold applyChain at h
    rw [hchain, List.foldlM_append, bind_of_ok hfirst] at h
    obtain ⟨hrest, -⟩ := ((appliesInOrder_foldlM .standard rest (some v)).returns _ _ _).mp h
    cases ((Registry.foldlM_standard_eq_none_iff rest (some v)).mp hrest).1

/-- One that stays, two that give way, and a budget for one of them. -/
example :
    let template : Text := "{{ n | upper | shout }} {{ n | length }} {{ n | default }}".toList
    let s : State := { limits := ⟨32, 1⟩ }
    (outcome (filteredStage .standard template [] s)).toOption
      = some "{{ n | upper | shout }} 0 {{ n | default }}".toList := by
  decide +kernel

end Stencil
