import Stencil.Text.Basic

/-!
# Lists that may be missing

What a text is replaced with is put together from parts, each of which may be missing because
something failed; then the whole is missing too.  `both` puts two parts together, and `allBoth` as
many as there are elements in a list.
-/

namespace Stencil

/-- One list after the other, if there are both. -/
def both {α : Type} (x y : Option (List α)) : Option (List α) :=
  x.bind fun a => y.map (a ++ ·)

variable {α β γ : Type}

@[simp] theorem both_some (a b : List α) : both (some a) (some b) = some (a ++ b) := rfl

@[simp] theorem both_none_left (y : Option (List α)) : both none y = none := rfl

@[simp] theorem both_none_right (x : Option (List α)) : both x none = none := by
  cases x <;> rfl

@[simp] theorem both_nil_left (y : Option (List α)) : both (some []) y = y := by
  cases y <;> rfl

@[simp] theorem both_nil_right (x : Option (List α)) : both x (some []) = x := by
  cases x <;> simp

theorem both_assoc (x y z : Option (List α)) : both (both x y) z = both x (both y z) := by
  cases x <;> cases y <;> cases z <;> simp

theorem both_eq_some_iff {x y : Option (List α)} {c : List α} :
    both x y = some c ↔ ∃ a b, x = some a ∧ y = some b ∧ a ++ b = c := by
  cases x <;> cases y <;> simp

theorem map_both (f : α → List β) (x y : Option (List α)) :
    (both x y).map (·.flatMap f) = both (x.map (·.flatMap f)) (y.map (·.flatMap f)) := by
  cases x <;> cases y <;> simp

theorem map_flatMap_singleton (f : α → List β) (a : α) :
    (some [a]).map (·.flatMap f) = some (f a) :=
  congrArg some (List.append_nil _)

/-- The lists for all elements, one after the other, if there are all. -/
def allBoth (f : α → Option (List β)) : List α → Option (List β)
  | [] => some []
  | a :: as => both (f a) (allBoth f as)

theorem allBoth_append (f : α → Option (List β)) (as bs : List α) :
    allBoth f (as ++ bs) = both (allBoth f as) (allBoth f bs) := by
  induction as with
  | nil => simp [allBoth]
  | cons a as ih => rw [List.cons_append, allBoth, allBoth, ih, both_assoc]

@[simp] theorem allBoth_singleton (f : α → Option (List β)) (a : α) : allBoth f [a] = f a :=
  both_nil_right _

/-- What is done to each element can be done to two lists apart. -/
theorem both_bind_allBoth (f : α → Option (List β)) (x y : Option (List α)) :
    (both x y).bind (allBoth f) = both (x.bind (allBoth f)) (y.bind (allBoth f)) := by
  cases x with
  | none => rfl
  | some a =>
    cases y with
    | none => simp
    | some b => exact allBoth_append f a b

theorem mem_of_allBoth {f : α → Option (List β)} {as : List α} {bs : List β}
    (h : allBoth f as = some bs) {b : β} (hb : b ∈ bs) :
    ∃ a ∈ as, ∃ cs, f a = some cs ∧ b ∈ cs := by
  induction as generalizing bs with
  | nil => cases h; cases hb
  | cons a as ih =>
    obtain ⟨cs, ds, hcs, hds, rfl⟩ := both_eq_some_iff.mp h
    rcases List.mem_append.mp hb with hb | hb
    · exact ⟨a, List.mem_cons_self, cs, hcs, hb⟩
    · obtain ⟨a', ha', h⟩ := ih hds hb
      exact ⟨a', List.mem_cons_of_mem _ ha', h⟩

theorem map_allBoth (g : β → List γ) (f : α → Option (List β)) (as : List α) :
    (allBoth f as).map (·.flatMap g) = allBoth (fun a => (f a).map (·.flatMap g)) as := by
  induction as with
  | nil => rfl
  | cons a as ih => rw [allBoth, allBoth, map_both, ih]

end Stencil
