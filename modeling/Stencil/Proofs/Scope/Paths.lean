import Stencil.Proofs.Render.Course
import Stencil.Proofs.Scope.Within

/-!
# Where a path leads

From a value a path goes on to parts of it (`Value.Leads`), one for each of its segments: to the
entry of a mapping whose key the segment is, or to the item of a sequence whose index the segment
writes in decimal, an index within the sequence.

A numeral of more than `maxDigits` digits is not read as an index.  A path that comes to a sequence
and goes on with one (`Value.Overindexed`) cannot be looked up, nor can a condition be judged that
looks it up (`lookups_return_iff`).  Every other path can, and what it leads to is found.
-/

namespace Stencil

namespace Value

/-- A segment of a path leads from a value to a part of it. -/
inductive Part (segment : Text) : Value → Value → Prop
  | entry {entries : List (Key × Value)} {v : Value}
      (found : Scope.find? segment entries = some v) : Part segment (.mapping entries) v
  | item {kind : SequenceKind} {items : List Value} (numeral : segment.isNumeral = true)
      (lt : segment.numeralValue < items.length) :
      Part segment (.sequence kind items) items[segment.numeralValue]

/-- A path leads from a value to a part of a part of it, and so on. -/
inductive Leads : Value → List Text → Value → Prop
  | here (v : Value) : Leads v [] v
  | step {v w u : Value} {segment : Text} {path : List Text} (part : Part segment v w)
      (rest : Leads w path u) : Leads v (segment :: path) u

/-- A segment is to index a sequence, but it is a numeral that is too long to be read. -/
def Overlong (segment : Text) (v : Value) : Prop :=
  v.isSequence = true ∧ segment.isNumeral = true ∧ maxDigits < segment.length

/-- Somewhere a path indexes a sequence by an overlong numeral. -/
inductive Overindexed : Value → List Text → Prop
  | here {v : Value} {segment : Text} {path : List Text} (overlong : Overlong segment v) :
      Overindexed v (segment :: path)
  | step {v w : Value} {segment : Text} {path : List Text} (part : Part segment v w)
      (rest : Overindexed w path) : Overindexed v (segment :: path)

variable {v w : Value} {segment : Text} {path : List Text}

/-! ## One segment -/

theorem part?_of_overlong (h : Overlong segment v) :
    v.part? segment = .error (.indexTooLong segment.length) := by
  obtain ⟨hsequence, hnumeral, hlong⟩ := h
  cases v with
  | sequence kind items =>
    unfold part?
    dsimp only
    rw [if_pos hnumeral, if_neg (by omega)]
  | _ => cases hsequence

theorem overlong_of_part? {e : Failure} (h : v.part? segment = .error e) : Overlong segment v := by
  obtain ⟨kind, items, rfl, hnumeral, hlong, -⟩ := exists_index_of_part? h
  exact ⟨rfl, hnumeral, hlong⟩

theorem part?_of_part (h : Part segment v w) (hshort : ¬ Overlong segment v) :
    v.part? segment = .ok (some w) := by
  cases h with
  | entry found => exact congrArg Except.ok found
  | item numeral lt =>
    have hlength : segment.length ≤ maxDigits := by
      apply Nat.le_of_not_lt
      intro hlong
      exact hshort ⟨rfl, numeral, hlong⟩
    unfold part?
    dsimp only
    rw [if_pos numeral, if_pos hlength, List.getElem?_eq_getElem lt]

theorem part_of_part? (h : v.part? segment = .ok (some w)) : Part segment v w := by
  cases v with
  | mapping entries => exact .entry (Except.ok.inj h)
  | sequence kind items =>
    unfold part? at h
    dsimp only at h
    split at h
    · rename_i hnumeral
      split at h
      · obtain ⟨hlt, rfl⟩ := List.getElem?_eq_some_iff.mp (Except.ok.inj h)
        exact .item hnumeral hlt
      · cases h
    · cases h
  | _ => cases h

/-! ## All segments -/

/-- **A path fails where it overindexes**, and only there. -/
theorem follow_fails_iff : (∃ e, v.follow path = .error e) ↔ v.Overindexed path := by
  induction path generalizing v with
  | nil =>
    constructor
    · rintro ⟨e, h⟩
      cases h
    · intro h
      cases h
  | cons segment path ih =>
    unfold follow
    cases hpart : v.part? segment with
    | error e => exact iff_of_true ⟨e, rfl⟩ (.here (overlong_of_part? hpart))
    | ok found =>
      have hshort : ¬ Overlong segment v := by
        intro hlong
        rw [part?_of_overlong hlong] at hpart
        cases hpart
      cases found with
      | none =>
        apply iff_of_false
        · rintro ⟨e, h⟩
          cases h
        · intro h
          cases h with
          | here overlong => exact hshort overlong
          | step part rest =>
            rw [part?_of_part part hshort] at hpart
            cases hpart
      | some w =>
        refine Iff.trans ih ⟨.step (part_of_part? hpart), ?_⟩
        intro h
        cases h with
        | here overlong => exact absurd overlong hshort
        | step part rest =>
          rw [part?_of_part part hshort] at hpart
          cases hpart
          exact rest

theorem leads_of_follow (h : v.follow path = .ok (some w)) : v.Leads path w := by
  induction path generalizing v with
  | nil =>
    cases h
    exact .here _
  | cons segment path ih =>
    obtain ⟨found, hpart, h⟩ := exists_of_bind_ok h
    cases found with
    | none => cases h
    | some u => exact .step (part_of_part? hpart) (ih h)

/-- Where it does not fail, a path finds what it leads to. -/
theorem follow_eq_some_iff (hshort : ¬ v.Overindexed path) :
    v.follow path = .ok (some w) ↔ v.Leads path w := by
  refine ⟨leads_of_follow, ?_⟩
  intro h
  induction h with
  | here v => rfl
  | step part rest ih =>
    rw [follow_of_part? (part?_of_part part fun overlong => hshort (.here overlong))]
    exact ih fun hrest => hshort (.step part hrest)

end Value

/-! ## Lookups -/

/-- A lookup returns unless the path overindexes. -/
theorem resolve_returns_iff (scope : Scope) (path : Text) :
    (∃ found, scope.resolve path = .ok found) ↔
      ¬ (Value.mapping scope).Overindexed (path.strip.splitOn '.') := by
  rw [← Value.follow_fails_iff]
  unfold Scope.resolve
  cases (Value.mapping scope).follow (path.strip.splitOn '.') <;> simp

/-- A condition is judged unless what it looks up cannot be. -/
theorem holds_returns_iff (scope : Scope) (condition : Condition) :
    (∃ truth, condition.holds scope = .ok truth) ↔
      ∀ named, condition.path? = some named → ∃ found, scope.resolve named = .ok found := by
  have hpath (named : Text) (f : Option Value → Bool) :
      (∃ truth, (scope.resolve named >>= fun value => pure (f value)) = .ok truth) ↔
        ∀ named', some named = some named' → ∃ found, scope.resolve named' = .ok found := by
    constructor
    · rintro ⟨truth, h⟩ named' hnamed
      cases hnamed
      obtain ⟨found, hfound, -⟩ := exists_of_bind_ok h
      exact ⟨found, hfound⟩
    · intro h
      obtain ⟨found, hfound⟩ := h named rfl
      rw [hfound]
      exact ⟨f found, rfl⟩
  cases condition with
  | path named => exact hpath named _
  | comparison named negated literal => exact hpath named _
  | negation named => exact hpath named _
  | unsupported t => exact iff_of_true ⟨false, rfl⟩ nofun

theorem judge_returns_iff (scope : Scope) (condition : Text) (s : State) :
    (∃ truth after, judge scope condition s = .ok truth after) ↔
      ∃ truth, (Condition.ofText condition).holds scope = .ok truth := by
  have hofExcept (r : Except Failure Bool) (s : State) :
      (∃ truth after, Render.ofExcept r s = .ok truth after) ↔ ∃ truth, r = .ok truth := by
    cases r with
    | ok truth => exact iff_of_true ⟨truth, s, rfl⟩ ⟨truth, rfl⟩
    | error e =>
      apply iff_of_false
      · rintro ⟨truth, after, h⟩
        cases h
      · rintro ⟨truth, h⟩
        cases h
  unfold judge
  cases Condition.ofText condition with
  | unsupported t =>
    exact hofExcept ((Condition.unsupported t).holds scope) (s.note (.unsupportedCondition t))
  | path named => exact hofExcept _ s
  | comparison named negated literal => exact hofExcept _ s
  | negation named => exact hofExcept _ s

/-- **A lookup fails where its path overindexes, and nowhere else.**  Every other path finds what it
leads to, and nothing if it leads nowhere; what it finds at an index is an item of the sequence.  A
condition fails only where the path that it looks up does. -/
theorem lookups_return_iff (scope : Scope) :
    (∀ path,
      ((∃ found, scope.resolve path = .ok found) ↔
        ¬ (Value.mapping scope).Overindexed (path.strip.splitOn '.')) ∧
      (∀ found, scope.resolve path = .ok found → ∀ v,
        found = some v ↔ (Value.mapping scope).Leads (path.strip.splitOn '.') v) ∧
      ∀ e, scope.resolve path = .error e → ∃ digits, maxDigits < digits ∧ e = .indexTooLong digits) ∧
    ∀ condition s, (∃ truth after, judge scope condition s = .ok truth after) ↔
      ∀ named, (Condition.ofText condition).path? = some named →
        ¬ (Value.mapping scope).Overindexed (named.strip.splitOn '.') := by
  refine ⟨?_, ?_⟩
  · intro path
    refine ⟨resolve_returns_iff scope path, ?_, ?_⟩
    · intro found hfound v
      have hshort := (resolve_returns_iff scope path).mp ⟨found, hfound⟩
      rw [← Value.follow_eq_some_iff hshort]
      unfold Scope.resolve at hfound
      rw [hfound, Except.ok.injEq]
    · intro e h
      obtain ⟨front, segment, rest, kind, items, -, -, -, hlong, rfl⟩ := exists_index_of_follow h
      exact ⟨segment.length, hlong, rfl⟩
  · intro condition s
    rw [judge_returns_iff, holds_returns_iff]
    simp only [resolve_returns_iff]

/-- A list indexed by more nines than are read. -/
theorem resolve_fails_of_nines {nines : Text} (hnines : ∀ c ∈ nines, c = '9')
    (hlong : maxDigits < nines.length) :
    let scope : Scope := [(.text "xs".toList, .sequence .list [])]
    let path : Text := "xs".toList ++ '.' :: nines
    path.isPath = true ∧ ¬ ∃ found, scope.resolve path = .ok found := by
  intro scope path
  have hpath : path.isPath = true := by
    have hname : Text.isPath "xs".toList = true := by decide +kernel
    refine Text.isPath_iff.mpr ⟨List.cons_ne_nil _ _, ?_⟩
    intro c hc
    rcases List.mem_append.mp hc with hc | hc
    · exact (Text.isPath_iff.mp hname).2 c hc
    · rcases List.mem_cons.mp hc with rfl | hc
      · decide +kernel
      · rw [hnines c hc]
        decide +kernel
  have hsegments : path.splitOn '.' = ["xs".toList, nines] := by
    have hdot : ('.' : Char) ∉ nines := by
      intro hc
      have := hnines '.' hc
      cases this
    rw [List.splitOn_eq_splitOnP, List.splitOnP_append_cons _ _ (by decide),
      ← List.splitOn_eq_splitOnP, ← List.splitOn_eq_splitOnP, List.splitOn_eq_singleton hdot]
    rfl
  have hnumeral : nines.isNumeral = true := by
    have hne : nines.isEmpty = false := by
      cases nines with
      | nil => cases hlong
      | cons c t => rfl
    have hdigits : nines.all isDigit = true := by
      rw [List.all_eq_true]
      intro c hc
      rw [hnines c hc]
      decide
    unfold Text.isNumeral
    rw [hne, hdigits]
    rfl
  have hover : (Value.mapping scope).Overindexed (path.strip.splitOn '.') := by
    rw [Text.strip_of_isPath hpath, hsegments]
    exact .step (.entry rfl) (.here ⟨rfl, hnumeral, hlong⟩)
  rw [resolve_returns_iff]
  exact ⟨hpath, not_not_intro hover⟩

/-- An index of more digits than are read, into a sequence, does not just find nothing: the lookup
fails, and so does the condition that makes it. -/
theorem lookups_fail_of_overlong_index :
    let scope : Scope := [(.text "xs".toList, .sequence .list [])]
    let path : Text := "xs".toList ++ '.' :: List.replicate (maxDigits + 1) '9'
    ¬ (∃ found, scope.resolve path = .ok found) ∧
      ¬ ∃ truth after, judge scope path {} = .ok truth after := by
  have hnines : ∀ c ∈ List.replicate (maxDigits + 1) '9', c = '9' := by
    intro c hc
    exact List.eq_of_mem_replicate hc
  have hlong : maxDigits < (List.replicate (maxDigits + 1) '9').length := by
    rw [List.length_replicate]
    omega
  generalize List.replicate (maxDigits + 1) '9' = nines at hnines hlong
  intro scope path
  obtain ⟨hpath, hfails⟩ := resolve_fails_of_nines hnines hlong
  have hlookup : (Condition.ofText path).path? = some path := by
    unfold Condition.ofText
    dsimp only
    rw [Text.strip_of_isPath hpath, if_pos hpath]
    rfl
  refine ⟨hfails, ?_⟩
  rw [judge_returns_iff, holds_returns_iff]
  intro h
  exact hfails (h path hlookup)

end Stencil
