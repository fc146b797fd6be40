import Stencil.Proofs.Markup.Span

/-!
# Occurrences in a part of a text

What a scan finds between two of its occurrences it finds again when it is given only the text
between them (`occurrences_slice`):

    text             ..{ o }...{ a }..{ b }...{ p }..
    between o and p         ...{ a }..{ b }...

That takes a recogniser that looks at nothing but the piece it takes (`Recogniser.Local`): whether it
takes a piece from the head of a text does not depend on what follows the piece, nor on where the
text ends behind it.
-/

namespace Stencil

variable {α : Type} {r : Recogniser α}

/-- A recogniser that takes a piece of a text for what the piece is, whatever follows it. -/
structure Recogniser.Local (r : Recogniser α) : Prop where
  piece : ∀ {t rest : Text} {a : α}, r t = some (a, rest) → ∃ front, front ≠ [] ∧ t = front ++ rest
  append_iff : ∀ {t rest : Text} {a : α} (more : Text),
    r (t ++ more) = some (a, rest ++ more) ↔ r t = some (a, rest)

/-- A recogniser is local if it is known which pieces it takes. -/
theorem Recogniser.Local.of_pieces {spells : Text → α → Prop} (hne : ∀ a, ¬ spells [] a)
    (h : ∀ t a rest, r t = some (a, rest) ↔ ∃ front, t = front ++ rest ∧ spells front a) :
    r.Local where
  piece := by
    intro t rest a hr
    obtain ⟨front, ht, hfront⟩ := (h t a rest).mp hr
    refine ⟨front, ?_, ht⟩
    rintro rfl
    exact hne a hfront
  append_iff := by
    intro t rest a more
    rw [h, h]
    constructor
    · rintro ⟨front, ht, hfront⟩
      rw [← List.append_assoc] at ht
      exact ⟨front, List.append_cancel_right ht, hfront⟩
    · rintro ⟨front, rfl, hfront⟩
      exact ⟨front, List.append_assoc _ _ _, hfront⟩

/-! ## Moving -/

/-- The same thing, so many characters further on. -/
def Occurrence.shift (n : Nat) (o : Occurrence α) : Occurrence α :=
  ⟨o.item, n + o.start, n + o.stop⟩

@[simp] theorem Occurrence.shift_zero (o : Occurrence α) : o.shift 0 = o := by
  simp [shift]

theorem occurrencesFrom_add (r : Recogniser α) (skip n pos : Nat) (t : Text) :
    occurrencesFrom r skip (n + pos) t
      = (occurrencesFrom r skip pos t).map (Occurrence.shift n) := by
  induction t generalizing skip pos with
  | nil => rfl
  | cons c t ih =>
    cases skip with
    | succ skip => exact ih skip (pos + 1)
    | zero =>
      unfold occurrencesFrom
      dsimp only
      split
      · rename_i a rest hr
        rw [List.map_cons, ← ih, Occurrence.shift, Nat.add_assoc n pos 1,
          Nat.add_assoc n (pos + 1)]
      · exact ih 0 (pos + 1)

/-! ## What is found in a part -/

/-- Nothing is found where nothing begins. -/
theorem occurrences_eq_nil {t : Text} (h : ∀ u, u <:+ t → r u = none) : occurrences r t = [] := by
  suffices hall : ∀ pos, occurrencesFrom r 0 pos t = [] from hall 0
  induction t with
  | nil => exact fun _ => rfl
  | cons c t ih =>
    intro pos
    unfold occurrencesFrom
    rw [h (c :: t) (List.suffix_refl _)]
    exact ih (fun u hu => h u (hu.trans (List.suffix_cons c t))) (pos + 1)

theorem occurrencesFrom_bounds {skip pos : Nat} {t : Text} {o : Occurrence α}
    (hskip : skip ≤ t.length) (h : o ∈ occurrencesFrom r skip pos t) :
    pos + skip ≤ o.start ∧ o.start < o.stop ∧ o.stop ≤ pos + t.length := by
  have horder := occurrencesFrom_inOrder r t skip pos hskip
  obtain ⟨hlo, hhi⟩ := horder.bounds_of_mem o h
  exact ⟨hlo, horder.lt_of_mem o h, hhi⟩

/-- What is found behind an occurrence is found by a scan that begins there. -/
theorem occurrencesFrom_behind {skip pos : Nat} {t u : Text} {os ps : List (Occurrence α)}
    {o : Occurrence α} (hskip : skip ≤ (t ++ u).length)
    (h : occurrencesFrom r skip pos (t ++ u) = os ++ o :: ps) (ho : o.stop = pos + t.length) :
    occurrencesFrom r 0 o.stop u = ps := by
  induction t generalizing skip pos os with
  | nil =>
    have hmem : o ∈ occurrencesFrom r skip pos ([] ++ u) := by rw [h]; simp
    have := occurrencesFrom_bounds hskip hmem
    rw [List.length_nil] at ho
    omega
  | cons c t ih =>
    rw [List.cons_append, List.length_cons] at hskip
    rw [List.length_cons] at ho
    cases skip with
    | succ skip => exact ih (by omega) h (by omega)
    | zero =>
      rw [List.cons_append] at h
      unfold occurrencesFrom at h
      dsimp only at h
      split at h
      · rename_i a rest hr
        cases os with
        | nil =>
          obtain ⟨rfl, rfl⟩ := List.cons.inj h
          have hlen : (t ++ u).length - rest.length = t.length := by
            dsimp only at ho
            omega
          rw [hlen, occurrencesFrom_skip r t.length, List.drop_left]
        | cons o' os =>
          obtain ⟨-, h⟩ := List.cons.inj h
          exact ih (by omega) h (by omega)
      · exact ih (Nat.zero_le _) h (by omega)

/-- What is found before an occurrence is found in the text that ends where that one begins. -/
theorem occurrencesFrom_before (hr : r.Local) {skip pos : Nat} {t u : Text}
    {os ps : List (Occurrence α)} {o : Occurrence α} (hskip : skip ≤ (t ++ u).length)
    (h : occurrencesFrom r skip pos (t ++ u) = os ++ o :: ps) (ho : o.start = pos + t.length) :
    occurrencesFrom r skip pos t = os := by
  induction t generalizing skip pos os with
  | nil =>
    cases os with
    | nil => rfl
    | cons o' os =>
      rw [List.length_nil] at ho
      have horder := occurrencesFrom_inOrder r ([] ++ u) skip pos hskip
      rw [h] at horder
      obtain ⟨hlo, hlt, hrest⟩ := horder
      have := hrest.bounds_of_mem o (by simp)
      omega
  | cons c t ih =>
    rw [List.cons_append, List.length_cons] at hskip
    rw [List.length_cons] at ho
    cases skip with
    | succ skip => exact ih (by omega) h (by omega)
    | zero =>
      rw [List.cons_append] at h
      unfold occurrencesFrom at h ⊢
      dsimp only at h ⊢
      split at h
      · rename_i a rest hfound
        cases os with
        | nil =>
          obtain ⟨rfl, -⟩ := List.cons.inj h
          dsimp only at ho
          omega
        | cons o' os =>
          obtain ⟨rfl, htail⟩ := List.cons.inj h
          obtain ⟨front, hne, hfront⟩ := hr.piece hfound
          have hlen := congrArg List.length hfront
          have hpos := List.length_pos_iff.mpr hne
          rw [List.length_cons, List.length_append, List.length_append] at hlen
          have hmem : o ∈ occurrencesFrom r ((t ++ u).length - rest.length) (pos + 1) (t ++ u) := by
            rw [htail]
            simp
          have hbounds := occurrencesFrom_bounds (Nat.sub_le _ _) hmem
          rw [List.length_append] at hbounds
          -- the piece ends within `t`, so that it is taken from the head of `t` as well
          have hsuffix : u <:+ rest := List.suffix_of_suffix_length_le
            ⟨c :: t, rfl⟩ ⟨front, hfront.symm⟩ (by omega)
          obtain ⟨rest, rfl⟩ := hsuffix
          have hfound : r (c :: t) = some (a, rest) := (hr.append_iff u).mp hfound
          have hmore : (t ++ u).length - (rest ++ u).length = t.length - rest.length := by
            rw [List.length_append, List.length_append]
            omega
          rw [hfound]
          dsimp only
          rw [hmore] at htail ⊢
          rw [ih (by rw [List.length_append]; omega) htail (by omega)]
      · rename_i hnone
        have hnone : r (c :: t) = none := by
          rw [Option.eq_none_iff_forall_ne_some]
          rintro ⟨a, rest⟩ hfound
          have := (hr.append_iff u).mpr hfound
          rw [List.cons_append, hnone] at this
          cases this
        rw [hnone]
        exact ih (Nat.zero_le _) h (by omega)

theorem InOrder.behind {lo hi : Nat} {os ps : List (Occurrence α)} {o : Occurrence α}
    (h : InOrder lo (os ++ o :: ps) hi) : InOrder o.stop ps hi := by
  induction os generalizing lo with
  | nil => exact h.2.2
  | cons o' os ih => exact ih h.2.2

/-- **A part of a text is scanned alike.**  What is found between two occurrences is what is found
in the text between them. -/
theorem occurrences_slice (hr : r.Local) {t : Text} {os mid ps : List (Occurrence α)}
    {o p : Occurrence α} (h : occurrences r t = os ++ o :: (mid ++ p :: ps)) :
    (occurrences r (t.slice o.stop p.start)).map (Occurrence.shift o.stop) = mid := by
  have horder := occurrences_inOrder r t
  rw [h] at horder
  have hbehind := horder.behind.bounds_of_mem p (by simp)
  have hlt := horder.behind.lt_of_mem p (by simp)
  have hsplit : t = t.take o.stop ++ (t.slice o.stop p.start ++ t.drop p.start) := by
    rw [t.slice_append_drop hbehind.1, List.take_append_drop]
  have hfront : o.stop = 0 + (t.take o.stop).length := by
    rw [List.length_take]
    omega
  have hpart : p.start = o.stop + (t.slice o.stop p.start).length := by
    rw [t.length_slice (by omega)]
    omega
  have hrest : occurrencesFrom r 0 o.stop (t.slice o.stop p.start ++ t.drop p.start)
      = mid ++ p :: ps := by
    have h : occurrencesFrom r 0 0 (t.take o.stop ++ (t.slice o.stop p.start ++ t.drop p.start))
        = os ++ o :: (mid ++ p :: ps) := by
      rw [← hsplit]
      exact h
    exact occurrencesFrom_behind (Nat.zero_le _) h hfront
  have hmid := occurrencesFrom_before hr (Nat.zero_le _) hrest hpart
  rwa [← Nat.add_zero o.stop, occurrencesFrom_add, Nat.add_zero] at hmid

end Stencil
