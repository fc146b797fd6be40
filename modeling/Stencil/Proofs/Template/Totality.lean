import Stencil.Proofs.Scope.Agreement
import Stencil.Proofs.Template.NoBrace

/-!
# Walks that return

Three things can make a walk fail: a value that cannot be written, a numeral that is too long for an
index, and a count that is too long to be written.  Where none of them is at hand the walk returns
a text (`Tree.exists_walk_eq_ok`).  The literals in argument lists are always writable
(`writable_readArguments`), for those that are too long are read as texts.  So a filter fails only
where its value cannot be written (`Builtin.failsOnly_apply`).
-/

namespace Stencil

/-- The value can be written as text. -/
def Value.Writable (v : Value) : Prop :=
  ∃ t, v.display = .ok t

/-- No name is bound to a value that cannot be written; so there is none further inside either. -/
def Scope.Writable (scope : Scope) : Prop :=
  ∀ e ∈ scope, e.2.Writable

/-- No numeral in the path is too long for an index. -/
def ShortIndices (path : Text) : Prop :=
  ∀ segment ∈ path.strip.splitOn '.', Text.isNumeral segment = true → segment.length ≤ maxDigits

instance (v : Value) : Decidable v.Writable :=
  match h : v.display with
  | .ok t => isTrue ⟨t, h⟩
  | .error _ => isFalse fun ⟨_, ht⟩ => by cases h.symm.trans ht

instance (scope : Scope) : Decidable scope.Writable :=
  inferInstanceAs (Decidable (∀ e ∈ scope, e.2.Writable))

instance (path : Text) : Decidable (ShortIndices path) :=
  inferInstanceAs (Decidable (∀ segment ∈ path.strip.splitOn '.', _ → _))

/-- How much there is to count in a value. -/
def Value.count : Value → Nat
  | .text t => t.length
  | .sequence _ items => items.length
  | _ => 0

/-- What the filters of a chain count can be written as a number, as it can unless it is more than
any memory would hold. -/
def CallsCounted : List Call → Option Value → Prop
  | [], _ => True
  | c :: calls, value =>
    (c.filter = .length → ∀ v ∈ value, v.count < Nat.pow 10 maxDigits) ∧
      ∀ next, c.filter.apply value (readArguments c.arguments) = .ok next →
        CallsCounted calls next

def Piece.Counted (scope : Scope) : Piece → Prop
  | filtered path calls => ∀ value, scope.resolve path = .ok value → CallsCounted calls value
  | _ => True

/-- Wherever the walk comes to a chain of filters, what they count can be written as a number. -/
def Tree.Counted : Tree → Scope → Prop
  | done, _ => True
  | piece p rest, scope => p.Counted scope ∧ rest.Counted scope
  | conditional condition body rest, scope =>
    ((Condition.ofText condition).holds scope = .ok true → body.Counted scope) ∧
      rest.Counted scope
  | either condition body other rest, scope =>
    ((Condition.ofText condition).holds scope = .ok true → body.Counted scope) ∧
      ((Condition.ofText condition).holds scope = .ok false → other.Counted scope) ∧
      rest.Counted scope
  | loop name path body rest, scope =>
    (∀ value, scope.resolve path = .ok value → ∀ item ∈ itemsOf value,
      body.Counted (scope.bind name item)) ∧ rest.Counted scope

instance decidableCallsCounted :
    (calls : List Call) → (value : Option Value) → Decidable (CallsCounted calls value)
  | [], _ => isTrue trivial
  | c :: calls, value =>
    have := decidableCallsCounted calls
    inferInstanceAs (Decidable ((c.filter = .length → ∀ v ∈ value, _) ∧
      ∀ next, c.filter.apply value (readArguments c.arguments) = .ok next →
        CallsCounted calls next))

instance (scope : Scope) : (p : Piece) → Decidable (p.Counted scope)
  | .filtered path calls => inferInstanceAs
    (Decidable (∀ value, scope.resolve path = .ok value → CallsCounted calls value))
  | .literal _ | .plain _ => isTrue trivial

instance Tree.decidableCounted : (tree : Tree) → (scope : Scope) → Decidable (tree.Counted scope)
  | done, _ => isTrue trivial
  | piece p rest, scope =>
    have := rest.decidableCounted scope
    inferInstanceAs (Decidable (p.Counted scope ∧ rest.Counted scope))
  | conditional _ body rest, scope =>
    have := body.decidableCounted scope
    have := rest.decidableCounted scope
    inferInstanceAs (Decidable ((_ → body.Counted scope) ∧ rest.Counted scope))
  | either _ body other rest, scope =>
    have := body.decidableCounted scope
    have := other.decidableCounted scope
    have := rest.decidableCounted scope
    inferInstanceAs (Decidable ((_ → body.Counted scope) ∧ (_ → other.Counted scope) ∧
      rest.Counted scope))
  | loop name path body rest, scope =>
    have := body.decidableCounted
    have := rest.decidableCounted scope
    inferInstanceAs (Decidable ((∀ value, scope.resolve path = .ok value →
      ∀ item ∈ itemsOf value, body.Counted (scope.bind name item)) ∧ rest.Counted scope))

/-- The paths that a tree looks up. -/
def Tree.paths : Tree → List Text
  | done => []
  | piece p rest => p.path?.toList ++ rest.paths
  | conditional condition body rest =>
    (Condition.ofText condition).path?.toList ++ body.paths ++ rest.paths
  | either condition body other rest =>
    (Condition.ofText condition).path?.toList ++ body.paths ++ other.paths ++ rest.paths
  | loop _ path body rest => path :: body.paths ++ rest.paths

/-! ## Literals -/

theorem length_toDigits_le {n k : Nat} (hk : 0 < k) (h : n < Nat.pow 10 k) :
    (Nat.toDigits 10 n).length ≤ k :=
  (Nat.length_toDigits_le_iff (by decide) hk).mpr h

theorem writable_int {n : Int} (h : n.natAbs < Nat.pow 10 maxDigits) : (Value.int n).Writable := by
  refine ⟨integerText n, ?_⟩
  unfold Value.display displayInteger
  rw [if_pos (length_toDigits_le (by decide) h)]

theorem digitValue_lt (c : Char) : (digitValue? c).getD 0 < 10 := by
  unfold digitValue?
  cases List.find? _ digitRanges with
  | none => exact Nat.zero_lt_succ 9
  | some range => exact Nat.mod_lt _ (by decide)

/-- A numeral is below the power of ten that has one digit more. -/
theorem numeralValue_lt {t : Text} {k : Nat} (h : t.length ≤ k) : t.numeralValue < Nat.pow 10 k := by
  have hfold (n : Nat) : t.foldl (fun n c => 10 * n + (digitValue? c).getD 0) n
      < (n + 1) * 10 ^ t.length := by
    clear h
    induction t generalizing n with
    | nil => exact Nat.lt_of_lt_of_eq (Nat.lt_succ_self n) (Nat.mul_one _).symm
    | cons c t ih =>
      have hc := digitValue_lt c
      refine Nat.lt_of_lt_of_le (ih _) ?_
      rw [List.length_cons, Nat.pow_succ, Nat.mul_comm _ 10, ← Nat.mul_assoc]
      refine Nat.mul_le_mul_right _ ?_
      show 10 * n + (digitValue? c).getD 0 + 1 ≤ (n + 1) * 10
      omega
  refine Nat.lt_of_lt_of_le (hfold 0) ?_
  rw [Nat.zero_add, Nat.one_mul]
  exact Nat.pow_le_pow_right (by decide) h

theorem writable_readInteger? {token : Text} {n : Int} (h : readInteger? token = some n) :
    (Value.int n).Writable := by
  unfold readInteger? at h
  dsimp only at h
  split at h
  · cases h
  · rename_i digits hdigits
    split at h
    · rename_i hlen
      have hlt := numeralValue_lt hlen
      cases h
      refine writable_int ?_
      split <;> omega
    · cases h

theorem writable_wordValue? {word : Text} {v : Value} (h : wordValue? word = some v) :
    v.Writable := by
  unfold wordValue? at h
  split at h
  · cases h
    exact ⟨_, rfl⟩
  · split at h
    · cases h
      exact ⟨_, rfl⟩
    · split at h
      · cases h
        exact ⟨_, rfl⟩
      · cases h

/-- What a literal writes can be written again. -/
theorem writable_readLiteral (token : Text) : (readLiteral token).Writable := by
  unfold readLiteral
  dsimp only
  split
  · exact ⟨_, rfl⟩
  · split
    · rename_i hword
      exact writable_wordValue? hword
    · split
      · rename_i hinteger
        exact writable_readInteger? hinteger
      · split <;> exact ⟨_, rfl⟩

theorem writable_readArguments (list : Option Text) : ∀ v ∈ readArguments list, v.Writable := by
  intro v hv
  unfold readArguments at hv
  split at hv
  · cases hv
  · split at hv
    · cases hv
    · obtain ⟨o, -, rfl⟩ := List.mem_map.mp hv
      exact writable_readLiteral o.item

/-! ## Parts of values -/

theorem writable_of_displayItems {items : List Value} {ts : List Text}
    (h : Value.displayItems items = .ok ts) : ∀ v ∈ items, v.Writable := by
  induction items generalizing ts with
  | nil => exact fun _ h => by cases h
  | cons v vs ih =>
    obtain ⟨t, ht, hrest⟩ := exists_of_bind_ok h
    obtain ⟨us, hus, -⟩ := exists_of_bind_ok hrest
    exact List.forall_mem_cons.mpr ⟨⟨t, ht⟩, ih hus⟩

theorem writable_of_displayEntries {entries : List (Key × Value)} {ts : List Text}
    (h : Value.displayEntries entries = .ok ts) : ∀ e ∈ entries, e.2.Writable := by
  induction entries generalizing ts with
  | nil => exact fun _ h => by cases h
  | cons e es ih =>
    obtain ⟨name, -, h⟩ := exists_of_bind_ok h
    obtain ⟨t, ht, hrest⟩ := exists_of_bind_ok h
    obtain ⟨us, hus, -⟩ := exists_of_bind_ok hrest
    exact List.forall_mem_cons.mpr ⟨⟨t, ht⟩, ih hus⟩

theorem Value.Writable.exists_displayItems {kind : SequenceKind} {items : List Value}
    (h : (Value.sequence kind items).Writable) : ∃ ts, Value.displayItems items = .ok ts := by
  obtain ⟨t, ht⟩ := h
  obtain ⟨ts, hts, -⟩ := exists_of_bind_ok ht
  exact ⟨ts, hts⟩

/-- There is a result, and it is nothing or a value that can be written. -/
def Reaches (r : Except Failure (Option Value)) : Prop :=
  ∃ value, r = .ok value ∧ ∀ v ∈ value, v.Writable

theorem reaches_none : Reaches (.ok none) :=
  ⟨none, rfl, fun _ h => by cases h⟩

theorem reaches_some {v : Value} (h : v.Writable) : Reaches (.ok (some v)) :=
  ⟨some v, rfl, fun _ hv => by cases hv; exact h⟩

theorem writable_find? {entries : List (Key × Value)} (h : ∀ e ∈ entries, e.2.Writable)
    (name : Text) : ∀ v ∈ Scope.find? name entries, v.Writable := by
  intro v hv
  obtain ⟨k, hk⟩ := Scope.exists_mem_of_find? hv
  exact h _ hk

theorem reaches_part? {v : Value} (h : v.Writable) {segment : Text}
    (hshort : Text.isNumeral segment = true → segment.length ≤ maxDigits) :
    Reaches (v.part? segment) := by
  cases v with
  | mapping entries =>
    obtain ⟨t, ht⟩ := h
    obtain ⟨ts, hts, -⟩ := exists_of_bind_ok ht
    exact ⟨_, rfl, writable_find? (writable_of_displayEntries hts) segment⟩
  | sequence kind items =>
    obtain ⟨ts, hts⟩ := h.exists_displayItems
    unfold Value.part?
    dsimp only
    split
    · rename_i hnumeral
      rw [if_pos (hshort hnumeral)]
      exact ⟨_, rfl, fun v hv => writable_of_displayItems hts v (List.mem_of_getElem? hv)⟩
    · exact reaches_none
  | _ => exact reaches_none

theorem reaches_follow {path : List Text}
    (hshort : ∀ segment ∈ path, Text.isNumeral segment = true → segment.length ≤ maxDigits) {v : Value}
    (h : v.Writable) : Reaches (v.follow path) := by
  induction path generalizing v with
  | nil => exact reaches_some h
  | cons segment path ih =>
    obtain ⟨hsegment, hpath⟩ := List.forall_mem_cons.mp hshort
    obtain ⟨value, hvalue, hwritable⟩ := reaches_part? h hsegment
    unfold Value.follow
    rw [hvalue]
    cases value with
    | none => exact reaches_none
    | some part => exact ih hpath (hwritable part rfl)

namespace Scope

variable {scope : Scope}

/-- In a scope without anything unwritable, a path comes to a value that can be written or to none. -/
theorem reaches_resolve (hs : scope.Writable) {path : Text} (hp : ShortIndices path) :
    Reaches (scope.resolve path) := by
  obtain ⟨rest, hsegments, hresolve⟩ := resolve_eq path
  rw [hresolve scope]
  have hrest : ∀ segment ∈ rest, Text.isNumeral segment = true → segment.length ≤ maxDigits :=
    fun segment hmem => hp segment (hsegments ▸ List.mem_cons_of_mem _ hmem)
  have hfind := writable_find? hs path.pathHead
  cases hv : find? path.pathHead scope with
  | none => exact reaches_none
  | some v => exact reaches_follow hrest (hfind v hv)

theorem writable_bind (hs : scope.Writable) (name : Text) {v : Value} (hv : v.Writable) :
    (scope.bind name v).Writable := by
  intro e he
  rcases mem_of_mem_bind he with rfl | he
  · exact hv
  · exact hs e he

theorem exists_holds (hs : scope.Writable) {c : Condition}
    (hp : ∀ path ∈ c.path?, ShortIndices path) : ∃ truth, c.holds scope = .ok truth := by
  cases c with
  | path p =>
    obtain ⟨value, hvalue, -⟩ := reaches_resolve hs (hp p rfl)
    exact ⟨_, by rw [Condition.holds, hvalue]; rfl⟩
  | comparison p negated literal =>
    obtain ⟨value, hvalue, -⟩ := reaches_resolve hs (hp p rfl)
    exact ⟨_, by rw [Condition.holds, hvalue]; rfl⟩
  | negation p =>
    obtain ⟨value, hvalue, -⟩ := reaches_resolve hs (hp p rfl)
    exact ⟨_, by rw [Condition.holds, hvalue]; rfl⟩
  | unsupported t => exact ⟨false, rfl⟩

end Scope

/-! ## Results that may be failures -/

/-- A result is as stated, or a failure that has a cause. -/
def FailsOnly {α : Type} (cause : Failure → Prop) (r : Except Failure α) (post : α → Prop) : Prop :=
  match r with
  | .ok a => post a
  | .error e => cause e

section

variable {α β : Type} {cause : Failure → Prop} {r : Except Failure α} {post : α → Prop}

theorem FailsOnly.bind {f : α → Except Failure β} {post' : β → Prop} (hr : FailsOnly cause r post)
    (hf : ∀ a, post a → FailsOnly cause (f a) post') : FailsOnly cause (r >>= f) post' := by
  cases r with
  | ok a => exact hf a hr
  | error e => exact hr

theorem FailsOnly.imp {post' : α → Prop} (hr : FailsOnly cause r post)
    (h : ∀ a, post a → post' a) : FailsOnly cause r post' := by
  cases r with
  | ok a => exact h a hr
  | error e => exact hr

/-- What is stated of the result is stated of what comes out. -/
theorem FailsOnly.and_eq (hr : FailsOnly cause r post) :
    FailsOnly cause r fun a => post a ∧ r = .ok a := by
  cases r with
  | ok a => exact ⟨hr, rfl⟩
  | error e => exact hr

theorem failsOnly_of_error (h : ∀ e, r = .error e → cause e) :
    FailsOnly cause r fun a => r = .ok a := by
  cases r with
  | ok a => exact rfl
  | error e => exact h e rfl

end

/-! ## Filters -/

/-- A class of values of which it is known why they cannot be written.  All that can be written
belong to it. -/
structure WritingFails (cause : Failure → Prop) (P : Value → Prop) : Prop where
  of_writable : ∀ v : Value, v.Writable → P v
  display : ∀ v, P v → FailsOnly cause v.display fun _ => True
  displayItems : ∀ kind items, P (.sequence kind items) →
    FailsOnly cause (Value.displayItems items) fun _ => True

section

variable {cause : Failure → Prop} {P : Value → Prop}

theorem forall_mem_some {v : Value} (h : P v) : ∀ w ∈ some v, P w := by
  intro w hw
  cases hw
  exact h

theorem failsOnly_applyToText (hP : WritingFails cause P) (change : Text → Text)
    {value : Option Value} (hv : ∀ v ∈ value, P v) (args : List Value) :
    FailsOnly cause (Builtin.applyToText change value args) fun result => ∀ v ∈ result, P v := by
  cases value with
  | none => exact hv
  | some v =>
    exact (hP.display v (hv v rfl)).bind fun t _ => forall_mem_some (hP.of_writable _ ⟨_, rfl⟩)

/-- **A filter fails where its value does**, if what it counts can be written as a number: it stays in
the class, and fails only where a value of the class, or an item of one, cannot be written. -/
theorem Builtin.failsOnly_apply (hP : WritingFails cause P) (b : Builtin) {value : Option Value}
    {args : List Value} (hv : ∀ v ∈ value, P v) (ha : ∀ v ∈ args, v.Writable)
    (hcount : b = length → ∀ v ∈ value, v.count < Nat.pow 10 maxDigits) :
    FailsOnly cause (b.apply value args) fun result => ∀ v ∈ result, P v := by
  have hwritable {v : Value} (h : v.Writable) : ∀ w ∈ some v, P w :=
    forall_mem_some (hP.of_writable v h)
  cases b with
  | default =>
    have hsubstitute : (args.head?.getD (.text [])).Writable := by
      cases args with
      | nil => exact ⟨_, rfl⟩
      | cons a args => exact ha a List.mem_cons_self
    unfold apply applyDefault
    dsimp only
    split
    · exact hwritable hsubstitute
    · exact hwritable hsubstitute
    · exact hwritable hsubstitute
    · exact hv
  | upper => exact failsOnly_applyToText hP _ hv args
  | lower => exact failsOnly_applyToText hP _ hv args
  | capitalize => exact failsOnly_applyToText hP _ hv args
  | length =>
    have hcounted := hcount rfl
    unfold apply applyLength
    dsimp only
    split
    · exact hwritable (writable_int (hcounted _ rfl))
    · exact hwritable (writable_int (hcounted _ rfl))
    · exact hwritable ⟨_, rfl⟩
  | join =>
    unfold apply applyJoin
    dsimp only
    split
    · rename_i kind items
      have hitems := hP.displayItems kind items (hv _ rfl)
      cases args with
      | nil => exact hitems.bind fun _ _ => hwritable ⟨_, rfl⟩
      | cons a args =>
        obtain ⟨separator, hseparator⟩ := ha a List.mem_cons_self
        dsimp only
        rw [hseparator]
        exact hitems.bind fun _ _ => hwritable ⟨_, rfl⟩
    · exact hv

end

/-- Where everything can be written there is nothing that could fail. -/
theorem writingFails_writable : WritingFails (fun _ => False) Value.Writable where
  of_writable _ h := h
  display v h := by
    obtain ⟨t, ht⟩ := h
    rw [ht]
    exact trivial
  displayItems kind items h := by
    obtain ⟨ts, hts⟩ := h.exists_displayItems
    rw [hts]
    exact trivial

/-- A filter that is always there makes of what can be written something that can be written. -/
theorem Builtin.reaches_apply (b : Builtin) {value : Option Value} {args : List Value}
    (hv : ∀ v ∈ value, v.Writable) (ha : ∀ v ∈ args, v.Writable)
    (hcount : b = length → ∀ v ∈ value, v.count < Nat.pow 10 maxDigits) :
    Reaches (b.apply value args) := by
  have h := b.failsOnly_apply writingFails_writable hv ha hcount
  cases hr : b.apply value args with
  | ok result =>
    rw [hr] at h
    exact ⟨result, rfl, h⟩
  | error e =>
    rw [hr] at h
    exact h.elim

theorem reaches_applyCalls {calls : List Call} {value : Option Value}
    (hv : ∀ v ∈ value, v.Writable) (hc : CallsCounted calls value) :
    Reaches (applyCalls calls value) := by
  induction calls generalizing value with
  | nil => exact ⟨value, rfl, hv⟩
  | cons c calls ih =>
    obtain ⟨next, hnext, hwritable⟩ :=
      c.filter.reaches_apply hv (writable_readArguments c.arguments) hc.1
    unfold applyCalls
    rw [List.foldlM_cons, hnext]
    exact ih hwritable (hc.2 next hnext)

/-! ## Trees -/

theorem exists_displayed {value : Option Value} (hv : ∀ v ∈ value, v.Writable) :
    ∃ filled, displayed value = .ok filled := by
  cases value with
  | none => exact ⟨none, rfl⟩
  | some v =>
    obtain ⟨t, ht⟩ := hv v rfl
    exact ⟨some t, by rw [displayed, ht]; rfl⟩

theorem Piece.exists_fill {p : Piece} {scope : Scope} (hs : scope.Writable)
    (hp : ∀ path ∈ p.path?, ShortIndices path) (hc : p.Counted scope) :
    ∃ filled, p.fill scope = .ok filled := by
  cases p with
  | literal t => exact ⟨none, rfl⟩
  | plain path =>
    obtain ⟨value, hvalue, hv⟩ := Scope.reaches_resolve hs (hp path rfl)
    rw [fill, hvalue]
    exact exists_displayed hv
  | filtered path calls =>
    obtain ⟨value, hvalue, hv⟩ := Scope.reaches_resolve hs (hp path rfl)
    obtain ⟨result, hresult, hr⟩ := reaches_applyCalls hv (hc value hvalue)
    rw [fill, hvalue]
    show ∃ filled, (applyCalls calls value >>= displayed) = .ok filled
    rw [hresult]
    exact exists_displayed hr

theorem exists_mapM {f : Value → Except Failure Text} {items : List Value}
    (h : ∀ item ∈ items, ∃ t, f item = .ok t) : ∃ ts, items.mapM f = .ok ts := by
  induction items with
  | nil => exact ⟨[], rfl⟩
  | cons item items ih =>
    obtain ⟨⟨t, ht⟩, hitems⟩ := List.forall_mem_cons.mp h
    obtain ⟨ts, hts⟩ := ih hitems
    exact ⟨t :: ts, by rw [List.mapM_cons, ht, hts]; rfl⟩

theorem writable_itemsOf {value : Option Value} (hv : ∀ v ∈ value, v.Writable) :
    ∀ item ∈ itemsOf value, item.Writable := by
  unfold itemsOf
  split
  · obtain ⟨ts, hts⟩ := (hv _ rfl).exists_displayItems
    exact writable_of_displayItems hts
  · exact fun _ h => by cases h

/-- **Walks return.**  A walk over a tree whose paths have no overlong numerals returns a text, in a
scope where everything can be written, and if everything that is counted can be counted. -/
theorem Tree.exists_walk_eq_ok {tree : Tree} {scope : Scope} (hs : scope.Writable)
    (hp : ∀ path ∈ tree.paths, ShortIndices path) (hc : tree.Counted scope) :
    ∃ t, tree.walk scope = .ok t := by
  induction tree generalizing scope with
  | done => exact ⟨[], rfl⟩
  | piece p rest ih =>
    obtain ⟨hpiece, hrest⟩ := List.forall_mem_append.mp hp
    obtain ⟨filled, hfilled⟩ := Piece.exists_fill hs (by simpa using hpiece) hc.1
    obtain ⟨u, hu⟩ := ih hs hrest hc.2
    rw [walk, hfilled, hu]
    exact ⟨_, rfl⟩
  | conditional condition body rest ihb ihr =>
    obtain ⟨hp, hrest⟩ := List.forall_mem_append.mp hp
    obtain ⟨hcondition, hbody⟩ := List.forall_mem_append.mp hp
    obtain ⟨truth, htruth⟩ := Scope.exists_holds hs (by simpa using hcondition)
    obtain ⟨u, hu⟩ := ihr hs hrest hc.2
    rw [walk, htruth, hu]
    cases truth with
    | true =>
      obtain ⟨t, ht⟩ := ihb hs hbody (hc.1 htruth)
      rw [ht]
      exact ⟨_, rfl⟩
    | false => exact ⟨_, rfl⟩
  | either condition body other rest ihb iho ihr =>
    obtain ⟨hp, hrest⟩ := List.forall_mem_append.mp hp
    obtain ⟨hp, hother⟩ := List.forall_mem_append.mp hp
    obtain ⟨hcondition, hbody⟩ := List.forall_mem_append.mp hp
    obtain ⟨truth, htruth⟩ := Scope.exists_holds hs (by simpa using hcondition)
    obtain ⟨u, hu⟩ := ihr hs hrest hc.2.2
    rw [walk, htruth, hu]
    cases truth with
    | true =>
      obtain ⟨t, ht⟩ := ihb hs hbody (hc.1 htruth)
      rw [ht]
      exact ⟨_, rfl⟩
    | false =>
      obtain ⟨t, ht⟩ := iho hs hother (hc.2.1 htruth)
      rw [ht]
      exact ⟨_, rfl⟩
  | loop name path body rest ihb ihr =>
    obtain ⟨hp, hrest⟩ := List.forall_mem_append.mp hp
    obtain ⟨hpath, hbody⟩ := List.forall_mem_cons.mp hp
    obtain ⟨value, hvalue, hv⟩ := Scope.reaches_resolve hs hpath
    obtain ⟨ts, hts⟩ := exists_mapM fun item hitem =>
      ihb (Scope.writable_bind hs name (writable_itemsOf hv item hitem)) hbody
        (hc.1 value hvalue item hitem)
    obtain ⟨u, hu⟩ := ihr hs hrest hc.2
    rw [walk, hvalue, hu]
    show ∃ t, ((itemsOf value).mapM (fun item => body.walk (scope.bind name item)) >>= _) = .ok t
    rw [hts]
    exact ⟨_, rfl⟩

end Stencil
