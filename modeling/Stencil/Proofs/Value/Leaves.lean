import Stencil.Filter.Basic
import Stencil.Proofs.Scope.Within

/-!
# The leaves of a value, and the first that cannot be written

The leaves of a value are the plain values in it, at any depth, from left to right (`Value.leaves`):

    [a, {k: b, l: [c]}, d]      a, b, c, d

A value is written in the order of its leaves.  If each of them can be written it can be written, and
if not, the first one that cannot is why (`FailsFirst`, `failsFirst_display`).  To join the items of a
sequence with no separator of one's own is to write the sequence, with the same text and the same
failures (`display_fails_at_first_broken`).
-/

namespace Stencil

namespace Value

/-! ## Leaves -/

mutual

/-- The plain values in a value, from left to right.  Keys are no leaves. -/
def leaves : Value → List Value
  | sequence _ items => leavesOfItems items
  | mapping entries => leavesOfEntries entries
  | v => [v]

/-- The leaves of each item. -/
def leavesOfItems : List Value → List Value
  | [] => []
  | v :: vs => leaves v ++ leavesOfItems vs

/-- The leaves of the value of each entry. -/
def leavesOfEntries : List (Key × Value) → List Value
  | [] => []
  | (_, v) :: es => leaves v ++ leavesOfEntries es

end

theorem leavesOfItems_eq (items : List Value) : leavesOfItems items = items.flatMap leaves := by
  induction items with
  | nil => rfl
  | cons v vs ih =>
    rw [List.flatMap_cons, ← ih]
    rfl

theorem leavesOfEntries_eq (entries : List (Key × Value)) :
    leavesOfEntries entries = entries.flatMap fun e => e.2.leaves := by
  induction entries with
  | nil => rfl
  | cons e es ih =>
    rw [List.flatMap_cons, ← ih]
    rfl

/-- The leaves of a part are leaves of the whole. -/
theorem Within.leaves_subset {v w : Value} (h : v.Within w) : v.leaves ⊆ w.leaves := by
  induction h with
  | refl => exact List.Subset.refl _
  | @item w kind items mem _ ih =>
    intro leaf hleaf
    show leaf ∈ leavesOfItems items
    rw [leavesOfItems_eq]
    exact List.mem_flatMap.mpr ⟨w, mem, ih hleaf⟩
  | @entry entries e mem _ ih =>
    intro leaf hleaf
    show leaf ∈ leavesOfEntries entries
    rw [leavesOfEntries_eq]
    exact List.mem_flatMap.mpr ⟨e, mem, ih hleaf⟩

mutual

/-- A leaf is a part. -/
theorem within_of_mem_leaves : ∀ (v : Value) {leaf : Value}, leaf ∈ v.leaves → leaf.Within v
  | sequence kind items, _, h => by
    obtain ⟨w, mem, within⟩ := within_of_mem_leavesOfItems items h
    exact .item mem within
  | mapping entries, _, h => by
    obtain ⟨e, mem, within⟩ := within_of_mem_leavesOfEntries entries h
    exact .entry mem within
  | null, _, h | bool _, _, h | int _, _, h | float _, _, h | text _, _, h | bytes _, _, h
  | broken _, _, h => by
    rw [List.mem_singleton.mp h]
    exact .refl _

theorem within_of_mem_leavesOfItems : ∀ (items : List Value) {leaf : Value},
    leaf ∈ leavesOfItems items → ∃ w ∈ items, leaf.Within w
  | v :: vs, _, h => by
    rcases List.mem_append.mp h with h | h
    · exact ⟨v, List.mem_cons_self, within_of_mem_leaves v h⟩
    · obtain ⟨w, mem, within⟩ := within_of_mem_leavesOfItems vs h
      exact ⟨w, List.mem_cons_of_mem v mem, within⟩

theorem within_of_mem_leavesOfEntries : ∀ (entries : List (Key × Value)) {leaf : Value},
    leaf ∈ leavesOfEntries entries → ∃ e ∈ entries, leaf.Within e.2
  | (k, v) :: es, _, h => by
    rcases List.mem_append.mp h with h | h
    · exact ⟨(k, v), List.mem_cons_self, within_of_mem_leaves v h⟩
    · obtain ⟨e, mem, within⟩ := within_of_mem_leavesOfEntries es h
      exact ⟨e, List.mem_cons_of_mem (k, v) mem, within⟩

end

/-- What cannot be written in a value is a leaf of it. -/
theorem broken_mem_leaves_iff {v : Value} {reason : Text} :
    broken reason ∈ v.leaves ↔ (broken reason).Within v := by
  constructor
  · exact within_of_mem_leaves v
  · intro h
    exact h.leaves_subset (List.mem_singleton_self _)

/-! ## The first that cannot be written -/

/-- Why a leaf cannot be written, if it cannot. -/
def reason? : Value → Option Text
  | broken reason => some reason
  | _ => none

end Value

theorem Value.reason?_eq_some_iff {v : Value} {reason : Text} :
    v.reason? = some reason ↔ v = .broken reason := by
  cases v <;> simp [reason?]

theorem Value.reason?_eq_none_iff {v : Value} : v.reason? = none ↔ ∀ r, v ≠ .broken r := by
  cases v <;> simp [reason?]

/-- What goes through leaves in their order returns, unless one of them cannot be written; then it
fails for the first one that cannot. -/
def FailsFirst {α : Type} (leaves : List Value) (r : Except Failure α) : Prop :=
  match leaves.findSome? Value.reason? with
  | none => ∃ a, r = .ok a
  | some reason => r = .error (.unwritable reason)

section
variable {α β : Type} {leaves more : List Value} {r : Except Failure α}

theorem failsFirst_of_ok (a : α) : FailsFirst [] (.ok a : Except Failure α) :=
  ⟨a, rfl⟩

theorem FailsFirst.bind {f : α → Except Failure β} (hr : FailsFirst leaves r)
    (hf : ∀ a, FailsFirst more (f a)) : FailsFirst (leaves ++ more) (r >>= f) := by
  unfold FailsFirst at hr ⊢
  rw [List.findSome?_append]
  cases hleaves : leaves.findSome? Value.reason? with
  | none =>
    rw [hleaves] at hr
    obtain ⟨a, rfl⟩ := hr
    exact hf a
  | some reason =>
    rw [hleaves] at hr
    rw [hr]
    rfl

/-- What is done with the outcome, if it cannot fail, changes nothing. -/
theorem FailsFirst.map {f : α → β} (hr : FailsFirst leaves r) :
    FailsFirst leaves (r >>= fun a => .ok (f a)) := by
  have := hr.bind fun a => failsFirst_of_ok (f a)
  rwa [List.append_nil] at this

/-- **The failure is that of the first leaf that cannot be written**, whatever comes after it. -/
theorem FailsFirst.error_iff (hr : FailsFirst leaves r) {e : Failure} :
    r = .error e ↔ ∃ before reason after, leaves = before ++ .broken reason :: after ∧
      (∀ other, Value.broken other ∉ before) ∧ e = .unwritable reason := by
  unfold FailsFirst at hr
  cases hfirst : leaves.findSome? Value.reason? with
  | none =>
    rw [hfirst] at hr
    obtain ⟨a, rfl⟩ := hr
    constructor
    · rintro ⟨⟩
    · rintro ⟨before, reason, after, rfl, -, -⟩
      cases List.findSome?_eq_none_iff.mp hfirst (.broken reason) (by simp)
  | some reason =>
    rw [hfirst] at hr
    subst hr
    constructor
    · rintro ⟨⟩
      obtain ⟨before, leaf, after, hleaves, hreason, hbefore⟩ := List.findSome?_eq_some_iff.mp hfirst
      rw [Value.reason?_eq_some_iff.mp hreason] at hleaves
      refine ⟨before, reason, after, hleaves, ?_, rfl⟩
      intro other hother
      exact Value.reason?_eq_none_iff.mp (hbefore _ hother) other rfl
    · rintro ⟨before, first, after, rfl, hbefore, rfl⟩
      have hnone : before.findSome? Value.reason? = none := by
        refine List.findSome?_eq_none_iff.mpr fun leaf hleaf => Value.reason?_eq_none_iff.mpr ?_
        rintro other rfl
        exact hbefore other hleaf
      rw [List.findSome?_append, hnone] at hfirst
      cases hfirst
      rfl

/-- There is a failure exactly if there is a leaf that cannot be written. -/
theorem FailsFirst.exists_error_iff (hr : FailsFirst leaves r) :
    (∃ e, r = .error e) ↔ ∃ reason, Value.broken reason ∈ leaves := by
  unfold FailsFirst at hr
  cases hfirst : leaves.findSome? Value.reason? with
  | none =>
    rw [hfirst] at hr
    obtain ⟨a, rfl⟩ := hr
    constructor
    · rintro ⟨_, ⟨⟩⟩
    · rintro ⟨reason, hmem⟩
      cases List.findSome?_eq_none_iff.mp hfirst _ hmem
  | some reason =>
    rw [hfirst] at hr
    obtain ⟨leaf, hleaf, hreason⟩ := List.exists_of_findSome?_eq_some hfirst
    rw [Value.reason?_eq_some_iff.mp hreason] at hleaf
    exact ⟨fun _ => ⟨reason, hleaf⟩, fun _ => ⟨_, hr⟩⟩

end

mutual

theorem failsFirst_display : ∀ (v : Value), v.ShortIntegers → FailsFirst v.leaves v.display
  | .null, _ => ⟨_, rfl⟩
  | .bool _, _ => ⟨_, rfl⟩
  | .int n, hv => ⟨_, displayInteger_of_short (hv.integer n (.refl _))⟩
  | .float _, _ => ⟨_, rfl⟩
  | .text _, _ => ⟨_, rfl⟩
  | .bytes _, _ => ⟨_, rfl⟩
  | .sequence _ items, hv => by
    have hitems := failsFirst_displayItems items fun v hmem => hv.within (.item hmem (.refl v))
    exact hitems.map
  | .mapping entries, hv => by
    have hentries := failsFirst_displayEntries entries (fun n hn => hv.key n entries (.refl _) hn)
      fun e hmem => hv.within (.entry hmem (.refl e.2))
    exact hentries.map
  | .broken _, _ => rfl

theorem failsFirst_displayItems : ∀ (vs : List Value), (∀ v ∈ vs, v.ShortIntegers) →
    FailsFirst (Value.leavesOfItems vs) (Value.displayItems vs)
  | [], _ => failsFirst_of_ok []
  | v :: vs, hvs => by
    obtain ⟨hv, hvs⟩ := List.forall_mem_cons.mp hvs
    exact (failsFirst_display v hv).bind fun _ => (failsFirst_displayItems vs hvs).map

theorem failsFirst_displayEntries : ∀ (es : List (Key × Value)),
    (∀ n : Int, .int n ∈ es.map Prod.fst → (Nat.toDigits 10 n.natAbs).length ≤ maxDigits) →
    (∀ e ∈ es, e.2.ShortIntegers) →
    FailsFirst (Value.leavesOfEntries es) (Value.displayEntries es)
  | [], _, _ => failsFirst_of_ok []
  | (k, v) :: es, hkeys, hvs => by
    obtain ⟨hv, hvs⟩ := List.forall_mem_cons.mp hvs
    obtain ⟨name, hname⟩ := exists_keyDisplay (k := k) fun n hk => hkeys n (by simp [hk])
    have hes := failsFirst_displayEntries es (fun n hn => hkeys n (List.mem_cons_of_mem _ hn)) hvs
    unfold Value.displayEntries
    rw [hname]
    exact (failsFirst_display v hv).bind fun _ => hes.map

end

/-- **Where writing fails there is a part that cannot be written**, and the failure is its reason. -/
theorem exists_broken_of_display (v : Value) (hv : v.ShortIntegers) (e : Failure)
    (h : v.display = .error e) : ∃ reason, e = .unwritable reason ∧ (Value.broken reason).Within v := by
  obtain ⟨before, reason, after, hleaves, -, he⟩ := (failsFirst_display v hv).error_iff.mp h
  refine ⟨reason, he, Value.broken_mem_leaves_iff.mp ?_⟩
  rw [hleaves]
  exact List.mem_append_right before List.mem_cons_self

theorem exists_broken_of_displayItems (vs : List Value) (hvs : ∀ v ∈ vs, v.ShortIntegers)
    (e : Failure) (h : Value.displayItems vs = .error e) :
    ∃ v ∈ vs, ∃ reason, e = .unwritable reason ∧ (Value.broken reason).Within v := by
  obtain ⟨before, reason, after, hleaves, -, he⟩ := (failsFirst_displayItems vs hvs).error_iff.mp h
  have hmem : Value.broken reason ∈ Value.leavesOfItems vs := by
    rw [hleaves]
    exact List.mem_append_right before List.mem_cons_self
  obtain ⟨v, hv, within⟩ := Value.within_of_mem_leavesOfItems vs hmem
  exact ⟨v, hv, reason, he, within⟩

/-! ## The two ways to write a sequence -/

/-- Joined with no separator of one's own, a value has the text that it has, and fails where it
fails. -/
theorem display_applyJoin (v : Value) {args : List Value}
    (hargs : ∀ a ∈ args.head?, a.display = .ok []) :
    (do let found ← Builtin.applyJoin (some v) args; found.mapM Value.display)
      = some <$> v.display := by
  cases v with
  | sequence kind items =>
    have hjoin : Builtin.applyJoin (some (.sequence kind items)) args
        = (do return some (Value.text (itemSeparator.intercalate (← Value.displayItems items)))) := by
      cases args with
      | nil => rfl
      | cons a rest =>
        show (do
          let separator ← a.display
          let separator := if separator.isEmpty then itemSeparator else separator
          return some (Value.text (separator.intercalate (← Value.displayItems items)))) = _
        rw [hargs a rfl]
        rfl
    rw [hjoin]
    show _ = some <$> (do return itemSeparator.intercalate (← Value.displayItems items))
    cases Value.displayItems items with
    | error e => rfl
    | ok ts => rfl
  | _ => rfl

/-- **A value fails to be written exactly if something in it cannot be written, and then for the first
such thing**, from left to right and at any depth.  To write a value and to join it, with an empty
separator or none, is the same, whether it fails or not. -/
theorem display_fails_at_first_broken (v : Value) :
    (v.ShortIntegers →
      ((∃ e, v.display = .error e) ↔ ∃ reason, (Value.broken reason).Within v) ∧
        ∀ e, v.display = .error e ↔ ∃ before reason after,
          v.leaves = before ++ .broken reason :: after ∧
            (∀ other, Value.broken other ∉ before) ∧ e = .unwritable reason) ∧
      ∀ args : List Value, (∀ a ∈ args.head?, a.display = .ok []) →
        (do let found ← Builtin.join.apply (some v) args; found.mapM Value.display)
          = some <$> v.display := by
  refine ⟨?_, ?_⟩
  · intro hv
    have hfails := failsFirst_display v hv
    refine ⟨?_, ?_⟩
    · rw [hfails.exists_error_iff]
      exact exists_congr fun reason => Value.broken_mem_leaves_iff
    · exact fun e => hfails.error_iff
  · intro args hargs
    exact display_applyJoin v hargs

/-- Two things that cannot be written, the first of them deeper than the other. -/
theorem display_fails_at_first_broken_of_nested :
    let v : Value := .sequence .list [.mapping [(.null, .text "a".toList),
      (.text "k".toList, .sequence .tuple [.broken "deep".toList])], .broken "last".toList]
    v.ShortIntegers ∧ v.display = .error (.unwritable "deep".toList) ∧
      Value.display (.text []) = .ok [] ∧
      (do let found ← Builtin.join.apply (some v) [.text []]; found.mapM Value.display)
        = .error (.unwritable "deep".toList) := by
  intro v
  have hv : v.ShortIntegers := by
    have hbroken (reason : Text) : ∀ w ∈ [Value.broken reason], w.ShortIntegers :=
      List.forall_mem_singleton.mpr (Value.shortIntegers_broken reason)
    refine .sequence (List.forall_mem_cons.mpr ⟨.mapping (by simp) ?_, hbroken _⟩)
    refine List.forall_mem_cons.mpr ⟨Value.Writable.shortIntegers ⟨_, rfl⟩, ?_⟩
    exact List.forall_mem_singleton.mpr (.sequence (hbroken _))
  have hdisplay : v.display = .error (.unwritable "deep".toList) :=
    (((display_fails_at_first_broken v).1 hv).2 _).mpr
      ⟨[.text "a".toList], "deep".toList, [.broken "last".toList], rfl, by simp, rfl⟩
  refine ⟨hv, hdisplay, rfl, ?_⟩
  rw [(display_fails_at_first_broken v).2 [.text []] (by simp [Value.display]), hdisplay]
  rfl

end Stencil
