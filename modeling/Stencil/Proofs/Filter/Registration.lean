import Stencil.Proofs.Render.Chains
import Stencil.Proofs.Template.Reading

/-!
# Registering filters

A run of registrations, from the filters that are always there.  A call whose name is no word is
refused and changes nothing.  Any other binds its name, in place of the filter that had it
(`Registry.find?_run`), and the names stay in the order of their code points, each listed once
(`Registry.sorted_run`).

What a word is matters in three places: where a name is registered, where a placeholder is found,
and where its chain is cut.  These agree, so that a template can name every filter that is
registered (`Registry.reaches_of_find?`):

    {{ path | name }}      the filter of that name, without arguments
-/

namespace Stencil

open Render

/-- A call to register a filter. -/
structure Registration where
  name : Text
  filter : Filter

/-- Whether a call binds a name: it is the name of the call, and a word. -/
def Registration.binds (call : Registration) (name : Text) : Bool :=
  call.name.isWord && call.name == name

/-- The registrations of the filters that are always there. -/
def Registration.builtins : List Registration :=
  Builtin.all.map fun b => ⟨b.name, .builtin b⟩

theorem Registration.binds_iff {call : Registration} {name : Text} :
    call.binds name = true ↔ call.name.isWord = true ∧ call.name = name := by
  simp [binds]

namespace Registry

/-- The registry after a call.  A refused one leaves it as it is. -/
def afterCall (r : Registry) (call : Registration) : Registry :=
  (r.register call.name call.filter).toOption.getD r

/-- The registry after a run of calls. -/
def run (r : Registry) (calls : List Registration) : Registry :=
  calls.foldl afterCall r

/-! ## One call -/

theorem register_of_isWord (r : Registry) {call : Registration} (h : call.name.isWord = true) :
    r.register call.name call.filter = .ok ⟨insert call.name call.filter r.entries⟩ :=
  if_pos h

theorem register_of_not_isWord (r : Registry) {call : Registration}
    (h : ¬ call.name.isWord = true) :
    r.register call.name call.filter = .error ⟨call.name⟩ :=
  if_neg h

theorem afterCall_of_ok {r after : Registry} {call : Registration}
    (h : r.register call.name call.filter = .ok after) : r.afterCall call = after := by
  unfold afterCall
  rw [h]
  rfl

theorem afterCall_of_error {r : Registry} {call : Registration} {e : InvalidName}
    (h : r.register call.name call.filter = .error e) : r.afterCall call = r := by
  unfold afterCall
  rw [h]
  rfl

/-- A call is refused if its name is no word, and only then; the refusal names it. -/
theorem register_eq_error_iff (r : Registry) (call : Registration) (e : InvalidName) :
    r.register call.name call.filter = .error e ↔
      ¬ (call.name ≠ [] ∧ ∀ c ∈ call.name, isWordChar c = true) ∧ e = ⟨call.name⟩ := by
  rw [← Text.isWord_iff]
  by_cases h : call.name.isWord = true
  · rw [r.register_of_isWord h]
    simp [h]
  · rw [r.register_of_not_isWord h, Except.error.injEq]
    simp [h, eq_comm]

/-- A call binds its name, and no other. -/
theorem find?_afterCall (r : Registry) (call : Registration) (name : Text) :
    (r.afterCall call).find? name
      = if call.binds name = true then some call.filter else r.find? name := by
  by_cases h : call.name.isWord = true
  · rw [afterCall_of_ok (r.register_of_isWord h)]
    show (insert call.name call.filter r.entries).lookup name = _
    rw [lookup_insert]
    by_cases hname : call.name = name
    · rw [if_pos hname.symm, if_pos (Registration.binds_iff.mpr ⟨h, hname⟩)]
    · rw [if_neg (Ne.symm hname), if_neg fun hbinds => hname (Registration.binds_iff.mp hbinds).2]
      rfl
  · rw [afterCall_of_error (r.register_of_not_isWord h),
      if_neg fun hbinds => h (Registration.binds_iff.mp hbinds).1]

/-! ## The order of the names -/

theorem mem_insert {name : Text} {filter : Filter} {es : List (Text × Filter)} {e : Text × Filter}
    (h : e ∈ insert name filter es) : e = (name, filter) ∨ e ∈ es := by
  induction es with
  | nil => exact .inl (List.mem_singleton.mp h)
  | cons e' es ih =>
    obtain ⟨n, f⟩ := e'
    rw [insert] at h
    split at h
    · rcases List.mem_cons.mp h with h | h
      · exact .inl h
      · exact .inr (List.mem_cons_of_mem _ h)
    · split at h
      · exact List.mem_cons.mp h
      · rcases List.mem_cons.mp h with h | h
        · exact .inr (h ▸ List.mem_cons_self)
        · exact (ih h).imp_right (List.mem_cons_of_mem _)

/-- Entries stay in ascending order. -/
theorem sorted_insert (name : Text) (filter : Filter) {es : List (Text × Filter)}
    (h : es.Pairwise fun a b => a.1 < b.1) :
    (insert name filter es).Pairwise fun a b => a.1 < b.1 := by
  induction es with
  | nil => exact List.pairwise_singleton _ _
  | cons e es ih =>
    obtain ⟨n, f⟩ := e
    obtain ⟨hfirst, hes⟩ := List.pairwise_cons.mp h
    rw [insert]
    split
    · rename_i hname
      exact List.pairwise_cons.mpr ⟨fun b hb => hname ▸ hfirst b hb, hes⟩
    · rename_i hne
      split
      · rename_i hlt
        refine List.pairwise_cons.mpr ⟨fun b hb => ?_, h⟩
        rcases List.mem_cons.mp hb with rfl | hb
        · exact hlt
        · exact List.lt_trans hlt (hfirst b hb)
      · rename_i hnlt
        refine List.pairwise_cons.mpr ⟨fun b hb => ?_, ih hes⟩
        rcases mem_insert hb with rfl | hb
        · show n < name
          by_cases hlt : n < name
          · exact hlt
          · exact absurd (List.le_antisymm (List.not_lt.mp hlt) (List.not_lt.mp hnlt)) hne
        · exact hfirst b hb

theorem sorted_run {r : Registry} (h : r.entries.Pairwise fun a b => a.1 < b.1)
    (calls : List Registration) : (r.run calls).entries.Pairwise fun a b => a.1 < b.1 := by
  induction calls generalizing r with
  | nil => exact h
  | cons call calls ih =>
    refine ih (r := r.afterCall call) ?_
    by_cases hword : call.name.isWord = true
    · rw [afterCall_of_ok (r.register_of_isWord hword)]
      exact sorted_insert call.name call.filter h
    · rw [afterCall_of_error (r.register_of_not_isWord hword)]
      exact h

/-- A name is listed if it has a filter. -/
theorem mem_names_iff (r : Registry) (name : Text) :
    name ∈ r.names ↔ ∃ filter, r.find? name = some filter := by
  rw [← Option.isSome_iff_exists]
  unfold find? names
  rw [List.lookup_isSome_iff, List.mem_map]
  constructor
  · rintro ⟨e, he, rfl⟩
    exact ⟨e, he, beq_self_eq_true _⟩
  · rintro ⟨e, he, hname⟩
    exact ⟨e, he, (eq_of_beq hname).symm⟩

/-! ## A run -/

/-- A name has the filter of the last call that binds it, if any call does. -/
theorem find?_run (r : Registry) (calls : List Registration) (name : Text) :
    (r.run calls).find? name
      = ((calls.filter fun call => call.binds name).getLast?.map Registration.filter).or
          (r.find? name) := by
  induction calls generalizing r with
  | nil => rfl
  | cons call calls ih =>
    show ((r.afterCall call).run calls).find? name = _
    rw [ih, find?_afterCall]
    by_cases hcall : call.binds name = true
    · simp only [List.filter_cons, if_pos hcall, List.getLast?_cons]
      cases (calls.filter fun call => call.binds name).getLast? <;> rfl
    · simp only [List.filter_cons, if_neg hcall]

/-- The filters that are always there have been registered one after the other. -/
theorem standard_eq_run : standard = run ⟨[]⟩ Registration.builtins := by
  suffices h : ∀ (bs : List Builtin) (es : List (Text × Filter)),
      run ⟨es⟩ (bs.map fun b => ⟨b.name, .builtin b⟩)
        = ⟨bs.foldl (fun es b => insert b.name (.builtin b) es) es⟩ from (h Builtin.all []).symm
  intro bs
  induction bs with
  | nil => exact fun _ => rfl
  | cons b bs ih =>
    intro es
    show run (afterCall ⟨es⟩ ⟨b.name, .builtin b⟩) _ = _
    rw [afterCall_of_ok (register_of_isWord _ (isWord_name b))]
    exact ih _

theorem run_standard (calls : List Registration) :
    standard.run calls = run ⟨[]⟩ (Registration.builtins ++ calls) := by
  rw [standard_eq_run]
  unfold run
  rw [List.foldl_append]

/-- Where there was nothing before, only words are bound. -/
theorem isWord_of_find?_run {calls : List Registration} {name : Text} {filter : Filter}
    (h : (run ⟨[]⟩ calls).find? name = some filter) : name.isWord = true := by
  rw [find?_run] at h
  cases hlast : (calls.filter fun call => call.binds name).getLast? with
  | none =>
    rw [hlast] at h
    cases h
  | some call =>
    have hcall := List.mem_of_getLast? hlast
    obtain ⟨hword, rfl⟩ := Registration.binds_iff.mp (List.mem_filter.mp hcall).2
    exact hword

/-- Under which names the filters that are always there are found. -/
theorem find?_standard_eq_some_iff {name : Text} {filter : Filter} :
    standard.find? name = some filter ↔ ∃ b : Builtin, b.name = name ∧ filter = .builtin b := by
  constructor
  · intro h
    rw [standard_eq_run, find?_run] at h
    cases hlast : (Registration.builtins.filter fun call => call.binds name).getLast? with
    | none =>
      rw [hlast] at h
      cases h
    | some call =>
      rw [hlast] at h
      cases h
      obtain ⟨hcall, hbinds⟩ := List.mem_filter.mp (List.mem_of_getLast? hlast)
      obtain ⟨b, -, rfl⟩ := List.mem_map.mp hcall
      exact ⟨b, (Registration.binds_iff.mp hbinds).2, rfl⟩
  · rintro ⟨b, rfl, rfl⟩
    cases b <;> rfl

/-! ## Filters in templates -/

/-- A template reaches a filter by its name: the placeholder is found, and the filter is applied to
what the path names, without arguments. -/
def Reaches (r : Registry) (name : Text) (filter : Filter) : Prop :=
  ∀ path : Text, path.isPath = true →
    let text : Text :=
      ['{', '{', ' '] ++ path ++ " | ".toList ++ name ++ [' ', '}', '}']
    occurrences filteredAt text
      = [⟨⟨path, "| ".toList ++ name ++ " ".toList⟩, 0, text.length⟩] ∧
    ∀ scope, filteredStage r text scope = (do
      Render.reads .filtered text
      let value ← Render.ofExcept (scope.resolve path)
      let value ← Render.ofExcept (filter.apply value [])
      return (← payAndDisplay value).getD text)

/-- A word that has a filter is all that a template needs. -/
theorem reaches_of_find? {r : Registry} {name : Text} {filter : Filter} (hword : name.isWord = true)
    (hfind : r.find? name = some filter) : r.Reaches name filter := by
  intro path hpath text
  let chain : Text := "| ".toList ++ name ++ " ".toList
  have hsegment : Segment.Spelled chain ⟨name, none⟩ :=
    ⟨[' '], [], [], [' '], Text.allBlank_blank, nofun, Text.allBlank_blank, hword, .none,
      List.append_assoc _ _ _⟩
  have htext : text = '{' :: '{' :: ([' '] ++ (path ++ ([' '] ++ (chain ++ ['}', '}'])))) := by
    show ['{', '{', ' '] ++ path ++ [' ', '|', ' '] ++ name ++ [' ', '}', '}'] = _
    simp [chain]
  obtain ⟨hspelled, hsegments⟩ := spelled_of_segment hpath hsegment
  rw [← htext] at hspelled
  have happlied (value : Option Value) :
      applyChain r value chain = Render.ofExcept (filter.apply value []) :=
    applyChain_of_segment hsegments hfind value
  refine ⟨occurrences_filteredAt_of_spelled hspelled, fun scope => ?_⟩
  rw [filteredStage_of_spelled hspelled]
  unfold fillFiltered
  simp only [happlied, bind_assoc]

/-- What holds of a registry after a run of calls, those that are always made among them. -/
structure Current (calls : List Registration) (r : Registry) : Prop where
  /-- Every name has the filter of the last call that was accepted for it. -/
  find? : ∀ name, r.find? name
    = (calls.filter fun call => call.binds name).getLast?.map Registration.filter
  /-- The names are in the order of their code points, none of them twice. -/
  sorted : r.names.Pairwise (List.Lex fun c d => c.toNat < d.toNat)
  mem_names : ∀ name, name ∈ r.names ↔ ∃ filter, r.find? name = some filter
  reaches : ∀ name filter, r.find? name = some filter → r.Reaches name filter

theorem current_run (calls : List Registration) : (run ⟨[]⟩ calls).Current calls where
  find? name := by
    rw [find?_run]
    exact Option.or_none
  sorted := by
    have hsorted := sorted_run (r := ⟨[]⟩) List.Pairwise.nil calls
    exact List.pairwise_map.mpr (hsorted.imp fun hlt => hlt)
  mem_names := mem_names_iff _
  reaches name filter hfind := reaches_of_find? (isWord_of_find?_run hfind) hfind

end Registry

/-- **A registry over a run of registrations.**  Each call is refused if its name is no word, and
only then; a refused call leaves the registry as it is, and any other makes the next one.  After
the run every name has the filter of the last call that was accepted for it, where those that are
always there count as registered first; the names are listed in strictly ascending order; and a
template reaches every filter by its name. -/
theorem registrations_over_run (calls : List Registration) :
    (∀ before call later, calls = before ++ call :: later →
      let now := Registry.standard.run before
      let next := Registry.standard.run (before ++ [call])
      (∀ e, now.register call.name call.filter = .error e ↔
        ¬ (call.name ≠ [] ∧ ∀ c ∈ call.name, isWordChar c = true) ∧ e = ⟨call.name⟩) ∧
      (∀ e, now.register call.name call.filter = .error e → next = now) ∧
      ∀ r, now.register call.name call.filter = .ok r → next = r) ∧
    (Registry.standard.run calls).Current (Registration.builtins ++ calls) := by
  constructor
  · intro before call later hcalls now next
    have hnext : next = now.afterCall call := List.foldl_append
    rw [hnext]
    exact ⟨now.register_eq_error_iff call, fun e h => Registry.afterCall_of_error h,
      fun r h => Registry.afterCall_of_ok h⟩
  · rw [Registry.run_standard]
    exact Registry.current_run _

/-- Names that are refused, one that is taken twice, and capitals before small letters. -/
example :
    let calls : List Registration :=
      [⟨"trim".toList, .builtin .upper⟩, ⟨"two words".toList, .builtin .lower⟩,
        ⟨[], .builtin .lower⟩, ⟨"Trim".toList, .builtin .upper⟩, ⟨"trim".toList, .builtin .lower⟩]
    (Registry.standard.run calls).names = ["Trim".toList, "capitalize".toList, "default".toList,
      "join".toList, "length".toList, "lower".toList, "trim".toList, "upper".toList] := by
  decide +kernel

end Stencil
