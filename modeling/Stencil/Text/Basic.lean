/-!
# Texts

A text is the list of its characters, so that every scan is a recursion on it.  Here are the
cuts that all scanners share: a maximal run (`run?`), the part before a mark (`before?`), and the
span between two offsets (`slice`).  Character classes given by tables of code points are tested
with `within`.

- `Text.run?_eq_some_iff`: a run is a cut of the text, and maximal.
- `Text.before?_eq_some_iff`: the cut is at the first mark.
-/

namespace Stencil

/-- A text, as its characters in order. -/
abbrev Text := List Char

namespace Text

/-- Whether the code point of a character lies in one of the ranges, which are ascending. -/
def within (c : Char) : List (Nat × Nat) → Bool
  | [] => false
  | (first, last) :: ranges =>
    if c.toNat < first then false else c.toNat ≤ last || within c ranges

/-- The longest run at the head of a text, if not empty, and the rest. -/
def run? (p : Char → Bool) (t : Text) : Option (Text × Text) :=
  match t.takeWhile p with
  | [] => none
  | w => some (w, t.dropWhile p)

/-- A run is not empty, has the property throughout, and goes as far as it can. -/
theorem run?_eq_some_iff {p : Char → Bool} {t w rest : Text} :
    run? p t = some (w, rest) ↔
      w ≠ [] ∧ t = w ++ rest ∧ (∀ c ∈ w, p c) ∧ ∀ c ∈ rest.head?, p c = false := by
  constructor
  · intro h
    unfold run? at h
    split at h
    · cases h
    · rename_i hne
      cases h
      refine ⟨hne, List.takeWhile_append_dropWhile.symm, ?_, ?_⟩
      · exact fun c hc => List.all_eq_true.1 List.all_takeWhile c hc
      · intro c hc
        have := List.head?_dropWhile_not p t
        simp_all
  · rintro ⟨hne, rfl, hw, hr⟩
    have ht : (w ++ rest).takeWhile p = w := by
      rw [List.takeWhile_append_of_pos hw]
      cases rest with
      | nil => simp
      | cons c rest => simp [hr c rfl]
    have hd : (w ++ rest).dropWhile p = rest := by
      rw [List.dropWhile_append_of_pos hw]
      cases rest with
      | nil => simp
      | cons c rest => simp [hr c rfl]
    unfold run?
    rw [ht, hd]
    split
    · exact absurd rfl hne
    · rfl

/-- What stands before the first occurrence of a two-character mark, and the rest behind it. -/
def before? (a b : Char) : Text → Option (Text × Text)
  | c :: d :: t =>
    if c = a ∧ d = b then some ([], t)
    else (before? a b (d :: t)).map fun (front, rest) => (c :: front, rest)
  | _ => none

/-- The part before a mark ends where the mark stands for the first time. -/
theorem before?_eq_some_iff {a b : Char} {t front rest : Text} :
    before? a b t = some (front, rest) ↔
      t = front ++ a :: b :: rest ∧
        ∀ u v : Text, t = u ++ a :: b :: v → front.length ≤ u.length := by
  fun_induction before? a b t generalizing front with
  | case1 c d t h =>
    obtain ⟨rfl, rfl⟩ := h
    constructor
    · intro h
      cases h
      exact ⟨rfl, fun _ _ _ => Nat.zero_le _⟩
    · rintro ⟨h, hmin⟩
      have := hmin [] t rfl
      cases front with
      | nil => cases h; rfl
      | cons => simp at this
  | case2 c d t h ih =>
    constructor
    · intro hs
      obtain ⟨⟨front', rest'⟩, hs, he⟩ := Option.map_eq_some_iff.1 hs
      cases he
      obtain ⟨ht, hmin⟩ := ih.1 hs
      refine ⟨by simp [ht], fun u v hu => ?_⟩
      cases u with
      | nil => cases hu; exact absurd ⟨rfl, rfl⟩ h
      | cons x u =>
        obtain ⟨rfl, htail⟩ := List.cons_eq_cons.1 hu
        exact Nat.succ_le_succ (hmin u v htail)
    · rintro ⟨ht, hmin⟩
      cases front with
      | nil => cases ht; exact absurd ⟨rfl, rfl⟩ h
      | cons x front =>
        obtain ⟨rfl, htail⟩ := List.cons_eq_cons.1 ht
        have hfirst (u v : Text) (hu : d :: t = u ++ a :: b :: v) : front.length ≤ u.length := by
          simpa using hmin (c :: u) v (by rw [hu]; rfl)
        rw [ih.2 ⟨htail, hfirst⟩]
        rfl
  | case3 t h =>
    simp only [reduceCtorEq, false_iff]
    rintro ⟨ht, -⟩
    cases front with
    | nil => exact h _ _ _ ht
    | cons x front =>
      cases front with
      | nil => exact h _ _ _ ht
      | cons y front => exact h _ _ _ ht

/-- The span of a text from one offset up to another. -/
def slice (t : Text) (start stop : Nat) : Text :=
  (t.take stop).drop start

end Text

end Stencil
