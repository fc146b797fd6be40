import Mathlib.Data.List.Basic
import Stencil.Proofs.Render.Causes
import Stencil.Proofs.Render.Placeholders

/-!
# Where a render fails

Every failure of a render has a cause, and a render that does not fail notices no error
(`renderStages_fails_only`).

No error is noticed because no operation does so (`kept_noErrors`).  A failure is that of a lookup,
in the scope of some turn, or of a value that is written; what has become of the value since it was
looked up is followed through the chain of filters (`failsOnly_value`).  The texts that a cause is
looked for in are those on record when the run is over, since a stage reads what the ones before it
have made, out of values too.  So the comparison that accounts for failures (`Comparison.accounting`)
is about the texts that are read.
-/

namespace Stencil

open Render

variable {reads : Stage → Text → Prop} {scope inner : Scope}

/-! ## Notices of errors -/

/-- Between two states, no error has been noticed. -/
def NoErrors (before after : State) : Prop :=
  ∃ new, after.notices = new ++ before.notices ∧ ∀ n ∈ new, n.level ≠ .error

namespace NoErrors

theorem of_notices_eq {s t : State} (h : t.notices = s.notices) : NoErrors s t :=
  ⟨[], h, nofun⟩

theorem trans {s t u : State} (h : NoErrors s t) (g : NoErrors t u) : NoErrors s u := by
  obtain ⟨new1, h1, e1⟩ := h
  obtain ⟨new2, h2, e2⟩ := g
  refine ⟨new2 ++ new1, by rw [h2, h1, List.append_assoc], fun n hn => ?_⟩
  rcases List.mem_append.mp hn with hn | hn
  · exact e2 n hn
  · exact e1 n hn

theorem note (s : State) {n : Notice} (hn : n.level ≠ .error) : NoErrors s (s.note n) :=
  ⟨[n], rfl, fun _ h => by cases List.mem_singleton.mp h; exact hn⟩

theorem exhaust (s : State) {n : Notice} (hn : n.level ≠ .error) : NoErrors s (s.exhaust n) := by
  unfold State.exhaust
  split
  · exact of_notices_eq rfl
  · exact note s hn

end NoErrors

/-- No operation of a render notices an error. -/
theorem kept_noErrors (c : Comparison) : Kept c fun _ => NoErrors where
  refl _ _ := .of_notices_eq rfl
  trans := .trans
  note _ _ hn s := .note s (by rw [hn]; nofun)
  pay _ _ := .of_notices_eq rfl
  spent _ s := .exhaust s nofun
  reads _ _ := .of_notices_eq rfl
  refuse _ s := .exhaust s nofun
  enter h := h

/-! ## Filters -/

/-- All filters that are known are among those that are always there. -/
def Registry.OnlyBuiltins (filters : Registry) : Prop :=
  ∀ name filter, filters.find? name = some filter → ∃ b, filter = .builtin b

theorem onlyBuiltins_standard : Registry.standard.OnlyBuiltins := by
  intro name
  suffices h : ∀ (bs : List Builtin) (es : List (Text × Filter)),
      (∀ filter, es.lookup name = some filter → ∃ b, filter = .builtin b) →
      ∀ filter, (bs.foldl (fun es b => Registry.insert b.name (.builtin b) es) es).lookup name
        = some filter → ∃ b, filter = .builtin b from h Builtin.all [] nofun
  intro bs
  induction bs with
  | nil => exact fun _ h => h
  | cons b bs ih =>
    refine fun es hes => ih _ fun filter hfilter => ?_
    rw [Registry.lookup_insert] at hfilter
    split at hfilter
    · cases hfilter
      exact ⟨b, rfl⟩
    · exact hes filter hfilter

/-- What a segment calls, if it is known. -/
def Registry.call? (filters : Registry) (segment : Segment) : Option Call :=
  match filters.find? segment.filter with
  | some (.builtin b) => some ⟨b, segment.arguments⟩
  | _ => none

/-- What the filtered placeholders of a text count can be written as a number, in the scope of any
turn. -/
def Text.Counted (filters : Registry) (scope : Scope) (t : Text) : Prop :=
  ∀ o ∈ occurrences filteredAt t, ∀ inner, scope.Derived inner →
    ∀ value, inner.resolve o.item.path = .ok value →
      CallsCounted ((segments o.item.chain).filterMap filters.call?) value

/-- Where a placeholder calls one filter at most, it is enough that the data can be counted. -/
theorem Text.counted_of_single_calls {filters : Registry} {t : Text}
    (hcount : ∀ v : Value, v.Within (.mapping scope) → v.count < Nat.pow 10 maxDigits)
    (hsingle : ∀ o ∈ occurrences filteredAt t,
      ((segments o.item.chain).filterMap filters.call?).length ≤ 1) : t.Counted filters scope := by
  intro o ho inner hinner value hvalue
  have hlength := hsingle o ho
  generalize (segments o.item.chain).filterMap filters.call? = calls at hlength ⊢
  match calls, hlength with
  | [], _ => exact trivial
  | [call], _ =>
    refine ⟨fun _ v hv => ?_, fun _ _ => trivial⟩
    cases hv
    exact hcount v (hinner.resolve_within hvalue)

/-- What there is to go by in a render of which some texts are read. -/
structure Premises (filters : Registry) (reads : Stage → Text → Prop) (scope : Scope) : Prop where
  builtins : filters.OnlyBuiltins
  short : (Value.mapping scope).ShortIntegers
  counted : ∀ t, reads .filtered t → t.Counted filters scope

variable {filters : Registry}

theorem sourcedIn_of_resolve (hs : (Value.mapping scope).ShortIntegers)
    (hinner : scope.Derived inner) {path : Text} {value : Option Value}
    (h : inner.resolve path = .ok value) : SourcedIn scope value := by
  intro v hv
  cases hv
  exact .of_within hs (hinner.resolve_within h)

/-- One segment of a chain leaves a value for the others to be applied to. -/
theorem failsOnly_pass (hf : filters.OnlyBuiltins) {segment : Segment} {rest : List Segment}
    {value : Option Value} (hv : SourcedIn scope value)
    (hc : CallsCounted ((segment :: rest).filterMap filters.call?) value) :
    FailsOnly (Cause reads scope) (filters.pass value segment) fun next =>
      SourcedIn scope next ∧ CallsCounted (rest.filterMap filters.call?) next := by
  unfold Registry.pass
  cases hfind : filters.find? segment.filter with
  | none =>
    have hcall : filters.call? segment = none := by
      unfold Registry.call?
      rw [hfind]
    rw [List.filterMap_cons_none hcall] at hc
    exact ⟨hv, hc⟩
  | some filter =>
    obtain ⟨b, rfl⟩ := hf segment.filter filter hfind
    have hcall : filters.call? segment = some ⟨b, segment.arguments⟩ := by
      unfold Registry.call?
      rw [hfind]
    rw [List.filterMap_cons_some hcall] at hc
    have happly : FailsOnly (Cause reads scope) (b.apply value (readArguments segment.arguments))
        (SourcedIn scope) :=
      b.failsOnly_apply writingFails_sourced hv (writable_readArguments segment.arguments) hc.1
    exact happly.and_eq.imp fun next h => ⟨h.1, hc.2 next h.2⟩

theorem failsOnly_passes (hf : filters.OnlyBuiltins) {list : List Segment} {value : Option Value}
    (hv : SourcedIn scope value) (hc : CallsCounted (list.filterMap filters.call?) value) :
    FailsOnly (Cause reads scope) (list.foldlM filters.pass value) (SourcedIn scope) := by
  induction list generalizing value with
  | nil => exact hv
  | cons segment rest ih =>
    rw [List.foldlM_cons]
    exact (failsOnly_pass hf hv hc).bind fun next h => ih h.1 h.2

/-! ## Placeholders -/

/-- A path that stands in a text that has been read is looked up. -/
theorem failsOnly_resolve (hs : (Value.mapping scope).ShortIntegers) (hinner : scope.Derived inner)
    {stage : Stage} {text path : Text} (hread : reads stage text) (hpath : path <:+: text) :
    FailsOnly (Cause reads scope) (inner.resolve path) fun value =>
      SourcedIn scope value ∧ inner.resolve path = .ok value :=
  (failsOnly_of_error fun _ => cause_of_resolve hinner hread hpath).imp fun _ hvalue =>
    ⟨sourcedIn_of_resolve hs hinner hvalue, hvalue⟩

theorem failsOnly_value (h : Premises filters reads scope) (hinner : scope.Derived inner)
    {text : Text} (hread : reads .filtered text) {o : Occurrence Filtered}
    (ho : o ∈ occurrences filteredAt text) :
    FailsOnly (Cause reads scope) (o.item.value filters inner) (SourcedIn scope) := by
  refine (failsOnly_resolve h.short hinner hread (filtered_isInfix text o ho)).bind
    fun value hvalue => ?_
  exact failsOnly_passes h.builtins hvalue.1 (h.counted text hread o ho inner hinner value hvalue.2)

/-- A placeholder fails where its lookup does, or where its value cannot be written. -/
theorem cause_of_fill {lookUp : Render (Option Value)} {r : Except Failure (Option Value)}
    (hfinds : Finds lookUp r) (hr : FailsOnly (Cause reads scope) r (SourcedIn scope))
    {s after : State} {e : Failure} (h : (lookUp >>= payAndDisplay) s = .error e after) :
    Cause reads scope e := by
  cases r with
  | error d =>
    obtain ⟨t, ht, -⟩ := hfinds.exists_error s
    rw [bind_of_error ht] at h
    cases h
    exact hr
  | ok value =>
    obtain ⟨t, ht, -⟩ := hfinds.exists_ok s
    rw [bind_of_ok ht] at h
    cases value with
    | none => cases h
    | some v =>
      obtain ⟨u, hspend, -⟩ := exists_spend t
      rw [payAndDisplay, bind_of_ok hspend] at h
      have hdisplay : FailsOnly (Cause reads scope) v.display fun _ => True := (hr v rfl).display
      split at h
      · cases hv : v.display with
        | ok text =>
          rw [hv] at h
          cases h
        | error d =>
          rw [hv] at h hdisplay
          cases h
          exact hdisplay
      · cases h

/-! ## The comparison -/

/-- A render is compared with itself, in the scopes of turns, and failures have a cause in the texts
that are read. -/
def Comparison.accounting (reads : Stage → Text → Prop) (scope : Scope) : Comparison where
  scopes s₁ s₂ := s₁ = s₂ ∧ scope.Derived s₁
  scans room room' _ := room = room'
  refuses room' := room' = 0
  reads := reads
  fails := Cause reads scope

theorem Comparison.accounting_lawful (h : Premises filters reads scope) :
    (accounting reads scope).Lawful filters where
  bind := by
    rintro s₁ _ path kind items item ⟨rfl, hinner⟩ hvalue hitem name
    exact ⟨rfl, hinner.bind hvalue hitem name⟩
  sublist ht _ := ht
  level ht _ := ⟨_, ht.symm, rfl, rfl⟩
  stop ht _ := ht.symm
  resolve := by
    rintro s₁ _ stage t path ⟨rfl, hinner⟩ hread hpath
    exact ⟨rfl, fun _ => cause_of_resolve hinner hread (Stage.isInfix_of_mem_paths hpath)⟩
  plain := by
    rintro s₁ _ t o ⟨rfl, hinner⟩ hread ho s e after he
    exact cause_of_fill (finds_ofExcept _)
      ((failsOnly_resolve h.short hinner hread (plain_isInfix t o ho)).imp fun _ hv => hv.1) he
  filtered := by
    rintro s₁ _ t o ⟨rfl, hinner⟩ hread ho s e after he
    rw [fillFiltered_eq] at he
    exact cause_of_fill (finds_lookUp filters s₁ o.item) (failsOnly_value h hinner hread ho) he

/-! ## Top theorem -/

/-- **Where a render can fail.**  With the filters that are always there a render of any template, in
any state, takes one of two courses.  Either it fails, and the failure is that of a part of the data
which cannot be written, or of a numeral too long for an index by which a path, in a text that the
render reads, indexes a sequence.  Or it returns, and no error is noticed; from a fresh state, what
comes out is then what the stages have made of the template, and not the template as it went in.

The integers in the data can be written, and so can what the filters count, as it can unless it is
more than any memory would hold. -/
theorem renderStages_fails_only (template : Text) (scope : Scope) (s : State)
    (hshort : (Value.mapping scope).ShortIntegers)
    (hcounted : ∀ t, ReadBetween s ((renderStages .standard template scope).endState s) .filtered t →
      t.Counted .standard scope) :
    (∃ e after, renderStages .standard template scope s = .error e after ∧
      Cause (ReadBetween s after) scope e) ∨
    ∃ output after, renderStages .standard template scope s = .ok output after ∧
      NoErrors s after ∧
      ∀ limits, s = { limits := limits } →
        render .standard limits template scope = ⟨output, after.log⟩ ∧
          ∀ n ∈ after.log, n.level ≠ .error := by
  have hpremises : Premises .standard
      (ReadBetween s ((renderStages .standard template scope).endState s)) scope :=
    ⟨onlyBuiltins_standard, hshort, hcounted⟩
  have halike : Alike (.accounting _ scope) True s.room s.room
      (renderWithin .standard s.room template scope) (renderWithin .standard s.room template scope) :=
    alike_renderWithin (Comparison.accounting_lawful hpremises) ⟨rfl, .refl⟩ rfl
  have hnone : NoErrors s ((renderStages .standard template scope).endState s) :=
    (halike.keeps (kept_noErrors _) s rfl).2
  have hcause : ∀ e after, renderStages .standard template scope s = .error e after →
      Cause (ReadBetween s ((renderStages .standard template scope).endState s)) scope e :=
    (halike.sameCourse (m := s.limits) trivial s rfl (fun _ _ h => h)
      (.same rfl fun _ hroom => ⟨hroom, rfl⟩)).2
  cases hr : renderStages .standard template scope s with
  | error e after =>
    rw [endState_of_error hr] at hcause
    exact .inl ⟨e, after, rfl, hcause e after hr⟩
  | ok output after =>
    rw [endState_of_ok hr] at hnone
    refine .inr ⟨output, after, rfl, hnone, fun limits hs => ?_⟩
    subst hs
    obtain ⟨new, hnew, hlevels⟩ := hnone
    have hnotices : after.notices = new := hnew.trans (List.append_nil new)
    refine ⟨?_, fun n hn => ?_⟩
    · unfold render
      rw [show (renderStages .standard template scope).run { limits := limits } = _ from hr]
    · rw [State.log, hnotices, List.mem_reverse] at hn
      exact hlevels n hn

/-- The length of a sequence is written though an item cannot be; that the text of the sequence cannot
be written is the fault of the item. -/
theorem renderStages_fails_only_at_broken_item :
    let scope : Scope := [(.text "x".toList, .sequence .list [.broken "boom".toList])]
    let template := "{{ x | length }}{{ x | upper }}".toList
    (Value.mapping scope).ShortIntegers ∧
      (∀ t, ReadBetween {} ((renderStages .standard template scope).endState {}) .filtered t →
        t.Counted .standard scope) ∧
      ∃ after, renderStages .standard template scope {}
          = .error (.unwritable "boom".toList) after ∧
        Cause (ReadBetween {} after) scope (.unwritable "boom".toList) := by
  intro scope template
  have hparts (v : Value) (hv : v.Within (.mapping scope)) : v = .mapping scope ∨
      v = .sequence .list [.broken "boom".toList] ∨ v = .broken "boom".toList := by
    rcases Value.within_mapping_iff.mp hv with h | ⟨e, he, hv⟩
    · exact .inl h
    · cases List.mem_singleton.mp he
      rcases Value.within_sequence_iff.mp hv with h | ⟨w, hw, hv⟩
      · exact .inr (.inl h)
      · cases List.mem_singleton.mp hw
        cases hv
        exact .inr (.inr rfl)
  have hshort : (Value.mapping scope).ShortIntegers := by
    refine ⟨fun n hn => ?_, fun n entries hentries hn => ?_⟩
    · rcases hparts _ hn with h | h | h <;> cases h
    · rcases hparts _ hentries with h | h | h <;> cases h
      cases List.mem_singleton.mp hn
  have hcounted (t : Text)
      (ht : ReadBetween {} ((renderStages .standard template scope).endState {}) .filtered t) :
      t.Counted .standard scope := by
    have hhistory : ((renderStages .standard template scope).endState {}).history
        = [.reads .filtered template, .reads .plain template, .reads .loops template,
          .reads .conditionals template] := by decide +kernel
    obtain ⟨new, hnew, hmem⟩ := ht
    have hnew : new = _ := (List.append_nil new).symm.trans (hnew.symm.trans hhistory)
    obtain rfl : t = template := by simpa [hnew] using hmem
    refine Text.counted_of_single_calls (fun v hv => ?_) (by decide +kernel)
    have hfew (k : Nat) (hk : k ≠ 0) : 1 < Nat.pow 10 k := Nat.one_lt_pow hk (by decide)
    have hcount : v.count ≤ 1 := by
      rcases hparts v hv with rfl | rfl | rfl <;> decide
    exact Nat.lt_of_le_of_lt hcount (hfew maxDigits (by decide))
  have houtcome : outcome (renderStages .standard template scope {})
      = .error (.unwritable "boom".toList) := by decide +kernel
  rcases renderStages_fails_only template scope {} hshort hcounted with
    ⟨e, after, hrun, hcause⟩ | ⟨output, after, hrun, -⟩
  · rw [hrun] at houtcome
    cases houtcome
    exact ⟨hshort, hcounted, after, hrun, hcause⟩
  · rw [hrun] at houtcome
    cases houtcome

end Stencil
