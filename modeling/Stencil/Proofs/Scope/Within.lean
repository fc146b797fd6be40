import Stencil.Proofs.Template.Totality

/-!
# Parts of values, and where a path fails

Whatever a path comes to is a part of the data that it starts from (`within_of_follow`), and what the
turns of a loop bind is one too (`Scope.Derived.within`).  A path fails at a part as well: at a
sequence, indexed by an overlong numeral (`exists_index_of_follow`).

A value whose integers are short enough to be written (`Value.ShortIntegers`) can be written unless a
part of it cannot, for which see the leaves of values.
-/

namespace Stencil

namespace Value

/-- One value is, or is contained in, another one, at any depth. -/
inductive Within : Value → Value → Prop
  | refl (v : Value) : Within v v
  | item {v w : Value} {kind : SequenceKind} {items : List Value} (mem : w ∈ items)
      (within : Within v w) : Within v (.sequence kind items)
  | entry {v : Value} {entries : List (Key × Value)} {e : Key × Value} (mem : e ∈ entries)
      (within : Within v e.2) : Within v (.mapping entries)

theorem Within.trans {u v w : Value} (h : u.Within v) (g : v.Within w) : u.Within w := by
  induction g with
  | refl => exact h
  | item mem _ ih => exact .item mem ih
  | entry mem _ ih => exact .entry mem ih

theorem within_sequence_iff {v : Value} {kind : SequenceKind} {items : List Value} :
    v.Within (.sequence kind items) ↔ v = .sequence kind items ∨ ∃ w ∈ items, v.Within w := by
  constructor
  · intro h
    cases h with
    | refl => exact .inl rfl
    | item mem within => exact .inr ⟨_, mem, within⟩
  · rintro (rfl | ⟨w, mem, within⟩)
    · exact .refl _
    · exact .item mem within

theorem within_mapping_iff {v : Value} {entries : List (Key × Value)} :
    v.Within (.mapping entries) ↔ v = .mapping entries ∨ ∃ e ∈ entries, v.Within e.2 := by
  constructor
  · intro h
    cases h with
    | refl => exact .inl rfl
    | entry mem within => exact .inr ⟨_, mem, within⟩
  · rintro (rfl | ⟨e, mem, within⟩)
    · exact .refl _
    · exact .entry mem within

/-- Every integer in a value can be written, and so can those that are keys. -/
structure ShortIntegers (v : Value) : Prop where
  integer : ∀ n : Int, (Value.int n).Within v → (Nat.toDigits 10 n.natAbs).length ≤ maxDigits
  key : ∀ (n : Int) (entries : List (Key × Value)), (Value.mapping entries).Within v →
    .int n ∈ entries.map Prod.fst → (Nat.toDigits 10 n.natAbs).length ≤ maxDigits

theorem ShortIntegers.within {v w : Value} (h : w.ShortIntegers) (hv : v.Within w) :
    v.ShortIntegers where
  integer n hn := h.integer n (hn.trans hv)
  key n entries hentries := h.key n entries (hentries.trans hv)

theorem ShortIntegers.sequence {kind : SequenceKind} {items : List Value}
    (h : ∀ v ∈ items, v.ShortIntegers) : (Value.sequence kind items).ShortIntegers where
  integer n hn := by
    rcases within_sequence_iff.mp hn with hn | ⟨v, mem, hn⟩
    · cases hn
    · exact (h v mem).integer n hn
  key n entries hentries := by
    rcases within_sequence_iff.mp hentries with hentries | ⟨v, mem, hentries⟩
    · cases hentries
    · exact (h v mem).key n entries hentries

theorem ShortIntegers.mapping {entries : List (Key × Value)}
    (hkeys : ∀ n : Int, .int n ∈ entries.map Prod.fst →
      (Nat.toDigits 10 n.natAbs).length ≤ maxDigits)
    (h : ∀ e ∈ entries, e.2.ShortIntegers) : (Value.mapping entries).ShortIntegers where
  integer n hn := by
    rcases within_mapping_iff.mp hn with hn | ⟨e, mem, hn⟩
    · cases hn
    · exact (h e mem).integer n hn
  key n inner hinner := by
    rcases within_mapping_iff.mp hinner with hinner | ⟨e, mem, hinner⟩
    · cases hinner
      exact hkeys n
    · exact (h e mem).key n inner hinner

theorem shortIntegers_broken (reason : Text) : (broken reason).ShortIntegers where
  integer _ h := nomatch h
  key _ _ h := nomatch h

/-- What is contained in a value that can be written can be written. -/
theorem Writable.within {v w : Value} (h : w.Writable) (hv : v.Within w) : v.Writable := by
  induction hv with
  | refl => exact h
  | item mem _ ih =>
    obtain ⟨ts, hts⟩ := h.exists_displayItems
    exact ih (writable_of_displayItems hts _ mem)
  | entry mem _ ih =>
    obtain ⟨t, ht⟩ := h
    obtain ⟨ts, hts, -⟩ := exists_of_bind_ok ht
    exact ih (writable_of_displayEntries hts _ mem)

end Value

/-! ## Writing -/

theorem bind_error {α β : Type} {r : Except Failure α} {f : α → Except Failure β} {e : Failure}
    (h : r >>= f = .error e) : r = .error e ∨ ∃ a, r = .ok a ∧ f a = .error e := by
  cases r with
  | error e' =>
    cases h
    exact .inl rfl
  | ok a => exact .inr ⟨a, rfl, h⟩

theorem displayInteger_of_short {n : Int} (h : (Nat.toDigits 10 n.natAbs).length ≤ maxDigits) :
    displayInteger n = .ok (integerText n) :=
  if_pos h

theorem short_of_displayInteger {n : Int} {t : Text} (h : displayInteger n = .ok t) :
    (Nat.toDigits 10 n.natAbs).length ≤ maxDigits := by
  unfold displayInteger at h
  split at h
  · assumption
  · cases h

theorem short_of_displayEntries {entries : List (Key × Value)} {ts : List Text}
    (h : Value.displayEntries entries = .ok ts) {n : Int} (hn : .int n ∈ entries.map Prod.fst) :
    (Nat.toDigits 10 n.natAbs).length ≤ maxDigits := by
  induction entries generalizing ts with
  | nil => cases hn
  | cons e es ih =>
    obtain ⟨name, hname, h⟩ := exists_of_bind_ok h
    obtain ⟨t, ht, hrest⟩ := exists_of_bind_ok h
    obtain ⟨us, hus, -⟩ := exists_of_bind_ok hrest
    rcases List.mem_cons.mp hn with hn | hn
    · rw [← hn] at hname
      exact short_of_displayInteger hname
    · exact ih hus hn

theorem exists_keyDisplay {k : Key}
    (h : ∀ n : Int, k = .int n → (Nat.toDigits 10 n.natAbs).length ≤ maxDigits) :
    ∃ t, k.display = .ok t := by
  cases k with
  | int n => exact ⟨_, displayInteger_of_short (h n rfl)⟩
  | _ => exact ⟨_, rfl⟩

/-- The integers in a value that can be written are short. -/
theorem Value.Writable.shortIntegers {v : Value} (h : v.Writable) : v.ShortIntegers where
  integer n hn := by
    obtain ⟨t, ht⟩ := h.within hn
    exact short_of_displayInteger ht
  key n entries hentries hkey := by
    obtain ⟨t, ht⟩ := h.within hentries
    obtain ⟨ts, hts, -⟩ := exists_of_bind_ok ht
    exact short_of_displayEntries hts hkey

/-! ## Following a path -/

theorem within_of_part? {v part : Value} {segment : Text} (h : v.part? segment = .ok (some part)) :
    part.Within v := by
  cases v with
  | mapping entries =>
    obtain ⟨k, hk⟩ := Scope.exists_mem_of_find? (Except.ok.inj h)
    exact .entry hk (.refl part)
  | sequence kind items =>
    unfold Value.part? at h
    dsimp only at h
    split at h
    · split at h
      · exact .item (List.mem_of_getElem? (Except.ok.inj h)) (.refl part)
      · cases h
    · cases h
  | _ => cases h

/-- Where a segment names a part, the path goes on from there. -/
theorem follow_of_part? {v part : Value} {segment : Text}
    (h : v.part? segment = .ok (some part)) (path : List Text) :
    v.follow (segment :: path) = part.follow path := by
  conv => lhs; unfold Value.follow
  rw [h]
  rfl

/-- What a path comes to is a part of where it starts. -/
theorem within_of_follow {path : List Text} {v part : Value}
    (h : v.follow path = .ok (some part)) : part.Within v := by
  induction path generalizing v with
  | nil =>
    cases h
    exact .refl part
  | cons segment path ih =>
    obtain ⟨found, hfound, h⟩ := exists_of_bind_ok h
    cases found with
    | none => cases h
    | some w => exact (ih h).trans (within_of_part? hfound)

/-- Only an overlong numeral fails as a segment, and only on a sequence. -/
theorem exists_index_of_part? {v : Value} {segment : Text} {e : Failure}
    (h : v.part? segment = .error e) : ∃ kind items, v = .sequence kind items ∧
      segment.isNumeral = true ∧ maxDigits < segment.length ∧ e = .indexTooLong segment.length := by
  cases v with
  | sequence kind items =>
    unfold Value.part? at h
    dsimp only at h
    split at h
    · rename_i hnumeral
      split at h
      · cases h
      · rename_i hlong
        cases h
        exact ⟨kind, items, rfl, hnumeral, Nat.lt_of_not_le hlong, rfl⟩
    · cases h
  | _ => cases h

/-- **Where a path fails it indexes a sequence** by an overlong numeral. -/
theorem exists_index_of_follow {path : List Text} {v : Value} {e : Failure}
    (h : v.follow path = .error e) : ∃ front segment rest kind items,
      path = front ++ segment :: rest ∧ v.follow front = .ok (some (.sequence kind items)) ∧
        segment.isNumeral = true ∧ maxDigits < segment.length ∧
          e = .indexTooLong segment.length := by
  induction path generalizing v with
  | nil => cases h
  | cons segment path ih =>
    rcases bind_error h with h | ⟨found, hfound, h⟩
    · obtain ⟨kind, items, rfl, hindex⟩ := exists_index_of_part? h
      exact ⟨[], segment, path, kind, items, rfl, rfl, hindex⟩
    · cases found with
      | none => cases h
      | some w =>
        obtain ⟨front, numeral, rest, kind, items, rfl, hfront, hindex⟩ := ih h
        refine ⟨segment :: front, numeral, rest, kind, items, rfl, ?_, hindex⟩
        rw [follow_of_part? hfound, hfront]

/-! ## Scopes of turns -/

/-- The scopes that the turns of loops make of a scope, one inside the other. -/
inductive Scope.Derived (scope : Scope) : Scope → Prop
  | refl : Derived scope scope
  | bind {inner : Scope} {path : Text} {kind : SequenceKind} {items : List Value} {item : Value}
      (derived : Derived scope inner)
      (found : inner.resolve path = .ok (some (.sequence kind items))) (mem : item ∈ items)
      (name : Text) : Derived scope (inner.bind name item)

namespace Scope

variable {scope inner : Scope} {path : Text}

/-- A path comes to a part of what a name is bound to. -/
theorem exists_within_of_resolve {v : Value} (h : inner.resolve path = .ok (some v)) :
    ∃ e ∈ inner, v.Within e.2 := by
  obtain ⟨rest, -, hresolve⟩ := resolve_eq path
  rw [hresolve inner] at h
  cases hfind : inner.find? path.pathHead with
  | none =>
    rw [hfind] at h
    cases h
  | some w =>
    rw [hfind] at h
    obtain ⟨k, hk⟩ := exists_mem_of_find? hfind
    exact ⟨(k, w), hk, within_of_follow h⟩

namespace Derived

/-- The names of a turn are bound to parts of the data. -/
theorem within (h : Derived scope inner) : ∀ e ∈ inner, e.2.Within (.mapping scope) := by
  induction h with
  | refl => exact fun e he => .entry he (.refl e.2)
  | @bind inner path kind items item _ found mem name ih =>
    intro e he
    rcases mem_of_mem_bind he with rfl | he
    · obtain ⟨entry, hentry, hsequence⟩ := exists_within_of_resolve found
      have hitem : item.Within (.sequence kind items) := .item mem (.refl item)
      exact (hitem.trans hsequence).trans (ih entry hentry)
    · exact ih e he

/-- In the scope of any turn, a path comes to a part of the data. -/
theorem resolve_within (h : Derived scope inner) {v : Value}
    (hv : inner.resolve path = .ok (some v)) : v.Within (.mapping scope) := by
  obtain ⟨e, he, hwithin⟩ := exists_within_of_resolve hv
  exact hwithin.trans (h.within e he)

end Derived

end Scope

end Stencil
