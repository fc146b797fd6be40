import Mathlib.Data.List.Forall2
import Stencil.Text.Occurrence

/-!
# What is taken again and again

The items that a recogniser takes one after the other from the head of a text, by the pieces that it
takes them from: each piece is taken where the one before it ends (`repeated_of_some`), and together
they are what is gone from the text (`exists_pieces_of_repeated`).
-/

namespace Stencil

variable {α : Type} {r : Recogniser α}

/-- What stands behind the items already taken is taken from there. -/
theorem repeatedFrom_skip (r : Recogniser α) (n : Nat) (t : Text) :
    repeatedFrom r n t = repeatedFrom r 0 (t.drop n) := by
  induction t generalizing n with
  | nil => simp [repeatedFrom]
  | cons c t ih =>
    cases n with
    | zero => rfl
    | succ n => rw [repeatedFrom, ih, List.drop_succ_cons]

theorem repeated_of_some {t rest : Text} {a : α} (hne : t ≠ [])
    (h : r (t ++ rest) = some (a, rest)) :
    repeated r (t ++ rest) = (a :: (repeated r rest).1, (repeated r rest).2) := by
  cases t with
  | nil => exact absurd rfl hne
  | cons c t =>
    have hmore : (t ++ rest).length - rest.length = t.length := by simp
    unfold repeated
    rw [List.cons_append, repeatedFrom, show r (c :: (t ++ rest)) = some (a, rest) from h]
    dsimp only
    rw [hmore, repeatedFrom_skip, List.drop_left]

theorem repeated_of_none {t : Text} (h : r t = none) : repeated r t = ([], t) := by
  cases t with
  | nil => rfl
  | cons c t =>
    unfold repeated
    rw [repeatedFrom, h]

/-- What is taken is a run of pieces. -/
theorem exists_pieces_of_repeated {spells : Text → α → Prop} (hne : ∀ a, ¬ spells [] a)
    (h : ∀ t a rest, r t = some (a, rest) → ∃ piece, t = piece ++ rest ∧ spells piece a)
    (t : Text) : ∃ pieces, t = pieces.flatten ++ (repeated r t).2 ∧
      List.Forall₂ spells pieces (repeated r t).1 := by
  induction hn : t.length using Nat.strongRecOn generalizing t with
  | ind n ih =>
    cases hr : r t with
    | none =>
      rw [repeated_of_none hr]
      exact ⟨[], rfl, .nil⟩
    | some p =>
      obtain ⟨a, rest⟩ := p
      obtain ⟨piece, rfl, hspells⟩ := h t a rest hr
      have hpiece : piece ≠ [] := fun hnil => hne a (hnil ▸ hspells)
      have hpos := List.length_pos_iff.mpr hpiece
      rw [List.length_append] at hn
      obtain ⟨pieces, hrest, hpieces⟩ := ih rest.length (by omega) rest rfl
      rw [repeated_of_some hpiece hr]
      refine ⟨piece :: pieces, ?_, .cons hspells hpieces⟩
      rw [List.flatten_cons, List.append_assoc, ← hrest]

end Stencil
