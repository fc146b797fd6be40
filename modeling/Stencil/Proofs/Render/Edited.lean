import Stencil.Proofs.Markup.Span
import Stencil.Proofs.Render.Counters

/-!
# Texts with edits

What a stage returns is its template with new text for some spans.  `Text.edited` says so in terms
of the template alone: all that stands between the edits is as it stands there.  The edits are made
on what is left of the template behind the one before (`splice`), which comes to the same, for what
is found stands in order (`substitute_eq_ok_iff`).  Where each new text is a subsequence of what it
takes the place of, so is the whole of the template (`substitute_sublist`).
-/

namespace Stencil

open Render

/-- The text from an offset on, with new text for the spans of the edits. -/
def Text.edited (t : Text) : (pos : Nat) → List Edit → Text
  | pos, [] => t.drop pos
  | pos, e :: es => t.slice pos e.start ++ e.text ++ t.edited e.stop es

/-- The edit of an occurrence, if it is to have new text. -/
def Occurrence.edit? {α : Type} (o : Occurrence α) (newText : Option Text) : Option Edit :=
  newText.map fun text => ⟨o.start, o.stop, text⟩

section
variable {α : Type} {newText : α → Render (Option Text)}

/-- The occurrences are gone through one after the other. -/
theorem edits_cons (newText : α → Render (Option Text)) (o : Occurrence α)
    (os : List (Occurrence α)) : edits newText (o :: os) = do
      let text ← newText o.item
      let es ← edits newText os
      return (o.edit? text).toList ++ es := by
  rw [edits]
  congr 1
  funext text
  cases text with
  | none => exact (bind_pure (edits newText os)).symm
  | some text => rfl

theorem edits_cons_eq_ok_iff {o : Occurrence α} {os : List (Occurrence α)} {s after : State}
    {es : List Edit} : edits newText (o :: os) s = .ok es after ↔
      ∃ text between rest, newText o.item s = .ok text between ∧
        edits newText os between = .ok rest after ∧ es = (o.edit? text).toList ++ rest := by
  rw [edits_cons, bind_eq_ok_iff]
  constructor
  · rintro ⟨text, between, hfirst, hrest⟩
    obtain ⟨rest, u, hrest, he⟩ := bind_eq_ok_iff.mp hrest
    cases he
    exact ⟨text, between, rest, hfirst, hrest, rfl⟩
  · rintro ⟨text, between, rest, hfirst, hrest, rfl⟩
    exact ⟨text, between, hfirst, bind_eq_ok_iff.mpr ⟨rest, after, hrest, rfl⟩⟩

/-- The same of the counters at the end. -/
theorem exists_edits_cons_iff {o : Occurrence α} {os : List (Occurrence α)} {s : State}
    {es : List Edit} {c : Counters} :
    (∃ after, edits newText (o :: os) s = .ok es after ∧ after.counters = c) ↔
      ∃ text between rest, newText o.item s = .ok text between ∧
        (∃ after, edits newText os between = .ok rest after ∧ after.counters = c) ∧
        es = (o.edit? text).toList ++ rest := by
  constructor
  · rintro ⟨after, h, hc⟩
    obtain ⟨text, between, rest, hfirst, hrest, he⟩ := edits_cons_eq_ok_iff.mp h
    exact ⟨text, between, rest, hfirst, ⟨after, hrest, hc⟩, he⟩
  · rintro ⟨text, between, rest, hfirst, ⟨after, hrest, hc⟩, he⟩
    exact ⟨after, edits_cons_eq_ok_iff.mpr ⟨text, between, rest, hfirst, hrest, he⟩, hc⟩

/-- Edits of what stands in order are made where they stand in the text. -/
theorem splice_eq_edited {found : List (Occurrence α)} {pos hi : Nat}
    (hfound : InOrder pos found hi) {s after : State} {es : List Edit}
    (h : edits newText found s = .ok es after) (t : Text) :
    splice pos es (t.drop pos) = t.edited pos es := by
  induction found generalizing pos s es with
  | nil =>
    cases h
    rfl
  | cons o os ih =>
    obtain ⟨hpos, hlt, hrest⟩ := hfound
    obtain ⟨text, between, rest, -, hos, rfl⟩ := edits_cons_eq_ok_iff.mp h
    cases text with
    | none => exact ih (hrest.of_le_left (by omega)) hos
    | some text =>
      show splice pos (⟨o.start, o.stop, text⟩ :: rest) (t.drop pos) = _
      rw [t.splice_cons_drop (by omega), ih hrest hos]
      rfl

/-- What a substitution returns is the template with its edits. -/
theorem substitute_eq_ok_iff {found : List (Occurrence α)} {t : Text}
    (hfound : InOrder 0 found t.length) {s after : State} {out : Text} :
    substitute found newText t s = .ok out after ↔
      ∃ es, edits newText found s = .ok es after ∧ out = t.edited 0 es := by
  unfold substitute
  rw [bind_eq_ok_iff]
  constructor
  · rintro ⟨es, u, hes, he⟩
    cases he
    exact ⟨es, hes, splice_eq_edited hfound hes t⟩
  · rintro ⟨es, hes, rfl⟩
    refine ⟨es, after, hes, ?_⟩
    rw [← splice_eq_edited hfound hes t]
    rfl

/-! ## Subsequences -/

/-- Every new text is a subsequence of what stands in its place. -/
def PutsSublists (newText : α → Render (Option Text)) (found : List (Occurrence α)) (t : Text) :
    Prop :=
  ∀ o ∈ found, ∀ (s : State) (u : Text) (after : State),
    newText o.item s = .ok (some u) after → u.Sublist (t.slice o.start o.stop)

theorem edited_sublist {found : List (Occurrence α)} {t : Text} {pos hi : Nat}
    (hfound : InOrder pos found hi) (hnew : PutsSublists newText found t) {s after : State}
    {es : List Edit} (h : edits newText found s = .ok es after) :
    (t.edited pos es).Sublist (t.drop pos) := by
  induction found generalizing pos s es with
  | nil =>
    cases h
    exact .refl _
  | cons o os ih =>
    obtain ⟨hpos, hlt, hrest⟩ := hfound
    obtain ⟨text, between, rest, hfirst, hos, rfl⟩ := edits_cons_eq_ok_iff.mp h
    have ih {pos : Nat} (hos' : InOrder pos os hi) :=
      ih hos' (fun o' ho' => hnew o' (List.mem_cons_of_mem _ ho')) hos
    cases text with
    | none => exact ih (hrest.of_le_left (by omega))
    | some u =>
      have hu := hnew o List.mem_cons_self s u between hfirst
      show (t.slice pos o.start ++ u ++ t.edited o.stop rest).Sublist (t.drop pos)
      rw [← t.slice_append_drop hpos, ← t.slice_append_drop (Nat.le_of_lt hlt), List.append_assoc]
      exact (List.Sublist.refl _).append (hu.append (ih hrest))

theorem substitute_sublist {found : List (Occurrence α)} {t : Text}
    (hfound : InOrder 0 found t.length) (hnew : PutsSublists newText found t) {s after : State}
    {out : Text} (h : substitute found newText t s = .ok out after) : out.Sublist t := by
  obtain ⟨es, hes, rfl⟩ := (substitute_eq_ok_iff hfound).mp h
  exact edited_sublist hfound hnew hes

end

end Stencil
