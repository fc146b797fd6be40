import Mathlib.Data.List.Chain
import Mathlib.Logic.Function.Basic
import Stencil.Markup.Escape

/-!
# Escaped texts

An escaped text can be read back, and holds no mark.

- `unescape_escape`: reading back undoes escaping, so that no two texts look alike once escaped.
- `marks_outside_escape`: no mark stands in an escaped text, nor across one of its ends when it is
  put between texts that do not touch it with a character of a mark.

Escaping puts at most one backslash before each character (`escapeAfter_cons`).  A run of `k`
backslashes that leads to a character of a mark comes out as `2 * k` of them, or as `2 * k + 1` if
that character belongs to a mark, and any other run comes out as it is.  So half the run, rounded
down, is what was there, and that is what reading back keeps.
-/

namespace Stencil

/-! ## Marks and their characters -/

theorem isMarkChar_of_isMark {a b : Char} (h : isMark a b = true) :
    isMarkChar a = true ∧ isMarkChar b = true := by
  unfold isMark at h
  split at h
  · exact ⟨rfl, rfl⟩
  · exact ⟨rfl, rfl⟩
  · exact ⟨rfl, rfl⟩
  · exact ⟨rfl, rfl⟩
  · cases h

theorem isMark_of_left {a : Char} (h : isMarkChar a = false) (b : Char) : isMark a b = false := by
  by_contra hm
  rw [(isMarkChar_of_isMark (eq_true_of_ne_false hm)).1] at h
  cases h

theorem isMark_of_right {b : Char} (h : isMarkChar b = false) (a : Char) : isMark a b = false := by
  by_contra hm
  rw [(isMarkChar_of_isMark (eq_true_of_ne_false hm)).2] at h
  cases h

theorem isMarkChar_backslash : isMarkChar '\\' = false := rfl

theorem leadsToMarkChar_backslash (t : Text) : leadsToMarkChar ('\\' :: t) = leadsToMarkChar t := by
  simp [leadsToMarkChar]

theorem leadsToMarkChar_cons {c : Char} (h : c ≠ '\\') (t : Text) :
    leadsToMarkChar (c :: t) = isMarkChar c := by
  simp [leadsToMarkChar, h]

/-! ## One character -/

/-- Whether a character of a text is given a backslash: it belongs to a mark with one of its
neighbours, or it is itself a backslash that leads to a character of a mark. -/
def needsBackslash (previous : Option Char) (c : Char) (t : Text) : Bool :=
  previous.any (isMark · c) || t.head?.any (isMark c) || (c == '\\' && leadsToMarkChar t)

/-- Escaping goes from character to character, and keeps each of them. -/
theorem escapeAfter_cons (previous : Option Char) (c : Char) (t : Text) :
    escapeAfter previous (c :: t) = if needsBackslash previous c t then
      '\\' :: c :: escapeAfter (some c) t else c :: escapeAfter (some c) t := by
  unfold needsBackslash
  rw [escapeAfter]
  by_cases hmark : (previous.any (isMark · c) || t.head?.any (isMark c)) = true
  · rw [if_pos hmark, hmark, Bool.true_or, if_pos rfl]
  · rw [if_neg hmark, eq_false_of_ne_true hmark, Bool.false_or]
    by_cases hrun : (c == '\\' && leadsToMarkChar t) = true
    · rw [if_pos hrun, if_pos hrun, beq_iff_eq.mp (Bool.and_eq_true_iff.mp hrun).1]
    · rw [if_neg hrun, if_neg hrun]

/-- A character that belongs to no mark needs a backslash only in a run that leads to one. -/
theorem needsBackslash_of_not_isMarkChar {c : Char} (h : isMarkChar c = false)
    (previous : Option Char) (t : Text) :
    needsBackslash previous c t = (c == '\\' && leadsToMarkChar t) := by
  have hl : previous.any (isMark · c) = false := by
    cases previous with
    | none => rfl
    | some a => exact isMark_of_right h a
  have hr : t.head?.any (isMark c) = false := by
    cases t with
    | nil => rfl
    | cons d t => exact isMark_of_left h d
  unfold needsBackslash
  rw [hl, hr, Bool.false_or, Bool.false_or]

/-- A character without a backslash makes no mark with the one before it. -/
theorem isMark_of_not_needsBackslash {a c : Char} {t : Text}
    (h : needsBackslash (some a) c t = false) : isMark a c = false := by
  unfold needsBackslash at h
  rw [Bool.or_eq_false_iff, Bool.or_eq_false_iff] at h
  exact h.1.1

/-! ## Reading back -/

theorem unescapeAfter_backslash (n : Nat) (t : Text) :
    unescapeAfter n ('\\' :: t) = unescapeAfter (n + 1) t := by
  rw [unescapeAfter]
  rfl

theorem unescapeAfter_cons {c : Char} (h : c ≠ '\\') (n : Nat) (t : Text) :
    unescapeAfter n (c :: t)
      = List.replicate (if isMarkChar c then n / 2 else n) '\\' ++ c :: unescapeAfter 0 t := by
  rw [unescapeAfter, if_neg (by simpa using h)]
  split <;> rfl

/-- How many backslashes a run of `k` comes out as, where the text `t` follows. -/
def escapedRun (k : Nat) (t : Text) : Nat :=
  if leadsToMarkChar t then 2 * k else k

theorem escapedRun_zero (t : Text) : escapedRun 0 t = 0 := by
  unfold escapedRun
  split <;> rfl

/-- A backslash lengthens the run. -/
theorem unescapeAfter_escapedRun_backslash (previous : Option Char) (k : Nat) (t : Text) :
    unescapeAfter (escapedRun k ('\\' :: t)) (escapeAfter previous ('\\' :: t))
      = unescapeAfter (escapedRun (k + 1) t) (escapeAfter (some '\\') t) := by
  rw [escapeAfter_cons, needsBackslash_of_not_isMarkChar isMarkChar_backslash]
  unfold escapedRun
  rw [leadsToMarkChar_backslash, beq_self_eq_true, Bool.true_and]
  by_cases hl : leadsToMarkChar t = true
  · -- both it and the one put before it count
    rw [if_pos hl, if_pos hl, if_pos hl, unescapeAfter_backslash, unescapeAfter_backslash]
    rfl
  · rw [if_neg hl, if_neg hl, if_neg hl, unescapeAfter_backslash]

/-- Any other character ends the run, and the run comes out as long as it was. -/
theorem unescapeAfter_escapedRun_cons {c : Char} (hc : c ≠ '\\') (previous : Option Char) (k : Nat)
    (t : Text) :
    unescapeAfter (escapedRun k (c :: t)) (escapeAfter previous (c :: t))
      = List.replicate k '\\' ++ c :: unescapeAfter 0 (escapeAfter (some c) t) := by
  rw [escapeAfter_cons]
  unfold escapedRun
  rw [leadsToMarkChar_cons hc]
  by_cases hm : isMarkChar c = true
  · rw [if_pos hm]
    split
    · -- the character belongs to a mark, and its own backslash is the odd one
      have hhalf : (2 * k + 1) / 2 = k := by omega
      rw [unescapeAfter_backslash, unescapeAfter_cons hc, if_pos hm, hhalf]
    · have hhalf : 2 * k / 2 = k := by omega
      rw [unescapeAfter_cons hc, if_pos hm, hhalf]
  · have hneeds := needsBackslash_of_not_isMarkChar (eq_false_of_ne_true hm) previous t
    rw [beq_eq_false_iff_ne.mpr hc, Bool.false_and] at hneeds
    rw [if_neg hm, hneeds, if_neg Bool.false_ne_true, unescapeAfter_cons hc, if_neg hm]

/-- What reading back gives behind a run of `k` backslashes, whatever the run has come out as. -/
theorem unescapeAfter_escapeAfter (previous : Option Char) (k : Nat) (t : Text) :
    unescapeAfter (escapedRun k t) (escapeAfter previous t) = List.replicate k '\\' ++ t := by
  induction t generalizing previous k with
  | nil => simp [escapedRun, leadsToMarkChar, escapeAfter, unescapeAfter]
  | cons c t ih =>
    by_cases hc : c = '\\'
    · subst hc
      rw [unescapeAfter_escapedRun_backslash, ih, List.replicate_succ', List.append_assoc]
      rfl
    · have hrest := ih (some c) 0
      rw [escapedRun_zero] at hrest
      rw [unescapeAfter_escapedRun_cons hc, hrest]
      rfl

/-- **Reading back undoes escaping**, for every text; so different texts are different once they are
escaped. -/
theorem unescape_escape :
    (∀ t : Text, unescape (escape t) = t) ∧ Function.Injective escape := by
  have hback : ∀ t : Text, unescape (escape t) = t := by
    intro t
    have h := unescapeAfter_escapeAfter none 0 t
    rwa [escapedRun_zero] at h
  exact ⟨hback, Function.LeftInverse.injective hback⟩

/-- A backslash before a plain character stays as it is, and one before a mark is doubled. -/
example : escape ['\\', 'a', '\\', '{', '{'] = ['\\', 'a', '\\', '\\', '\\', '{', '\\', '{'] := by
  decide

/-! ## Marks in an escaped text -/

/-- No two neighbours in a text make a mark. -/
def MarkFree (t : Text) : Prop :=
  t.IsChain fun a b => isMark a b = false

theorem MarkFree.not_isInfix {t : Text} (h : MarkFree t) {a b : Char} (hab : isMark a b = true) :
    ¬ [a, b] <:+: t := by
  rintro ⟨u, v, rfl⟩
  have hpair := (List.isChain_append.mp (List.isChain_append.mp h).1).2.1
  rw [List.isChain_pair, hab] at hpair
  cases hpair

/-- Markup needs a mark to open it. -/
theorem MarkFree.hasMarkup_eq_false {t : Text} (h : MarkFree t) : hasMarkup t = false := by
  induction t with
  | nil => rfl
  | cons c t ih =>
    have hopen : opensMarkup (c :: t) = false := by
      unfold opensMarkup
      split
      · rename_i heq
        rw [heq] at h
        cases (List.isChain_cons_cons.mp h).1
      · rename_i heq
        rw [heq] at h
        cases (List.isChain_cons_cons.mp h).1
      · rfl
    rw [hasMarkup, hopen, Bool.false_or]
    exact ih (List.isChain_cons.mp h).2

/-- What comes out first behind a character makes no mark with it. -/
theorem isMark_head_escapeAfter (a : Char) (t : Text) :
    ∀ d ∈ (escapeAfter (some a) t).head?, isMark a d = false := by
  intro d hd
  cases t with
  | nil => cases hd
  | cons c t =>
    rw [escapeAfter_cons] at hd
    split at hd
    · cases hd
      exact isMark_of_right isMarkChar_backslash a
    · rename_i hneeds
      cases hd
      exact isMark_of_not_needsBackslash (eq_false_of_ne_true hneeds)

theorem markFree_escapeAfter (previous : Option Char) (t : Text) :
    MarkFree (escapeAfter previous t) := by
  induction t generalizing previous with
  | nil => exact .nil
  | cons c t ih =>
    have hrest : MarkFree (c :: escapeAfter (some c) t) :=
      List.isChain_cons.mpr ⟨isMark_head_escapeAfter c t, ih (some c)⟩
    rw [escapeAfter_cons]
    split
    · exact List.isChain_cons_cons.mpr ⟨isMark_of_left isMarkChar_backslash c, hrest⟩
    · exact hrest

/-- A mark in a text that stands in front of a text without marks ends before it or starts behind
it, if what follows does not begin with a character of a mark. -/
theorem MarkFree.mark_behind {e s u v : Text} {a b : Char} (he : MarkFree e)
    (hs : ∀ c ∈ s.head?, isMarkChar c = false) (hab : isMark a b = true)
    (h : e ++ s = u ++ a :: b :: v) : e.length ≤ u.length := by
  rcases List.append_eq_append_iff.mp h with ⟨w, rfl, -⟩ | ⟨w, rfl, hw⟩
  · rw [List.length_append]
    omega
  · cases w with
    | nil => simp
    | cons x w =>
      rw [List.cons_append] at hw
      obtain ⟨rfl, htail⟩ := List.cons_eq_cons.mp hw
      cases w with
      | nil =>
        -- the mark would end with the first character of what follows
        have := hs b (by rw [← List.nil_append s, ← htail]; rfl)
        rw [(isMarkChar_of_isMark hab).2] at this
        cases this
      | cons y w =>
        rw [List.cons_append] at htail
        obtain ⟨rfl, -⟩ := List.cons_eq_cons.mp htail
        exact absurd ⟨u, w, by simp⟩ (he.not_isInfix hab)

theorem MarkFree.mark_outside {p e s u v : Text} {a b : Char} (he : MarkFree e)
    (hp : ∀ c ∈ p.getLast?, isMarkChar c = false) (hs : ∀ c ∈ s.head?, isMarkChar c = false)
    (hab : isMark a b = true) (h : p ++ e ++ s = u ++ a :: b :: v) :
    u.length + 2 ≤ p.length ∨ p.length + e.length ≤ u.length := by
  rw [List.append_assoc] at h
  rcases List.append_eq_append_iff.mp h with ⟨w, rfl, hw⟩ | ⟨w, rfl, hw⟩
  · have := he.mark_behind hs hab hw
    rw [List.length_append]
    omega
  · cases w with
    | nil =>
      have hlen : e.length ≤ ([] : Text).length := he.mark_behind hs hab hw.symm
      rw [List.append_nil]
      rw [List.length_nil] at hlen
      omega
    | cons x w =>
      rw [List.cons_append] at hw
      obtain ⟨rfl, -⟩ := List.cons_eq_cons.mp hw
      cases w with
      | nil =>
        -- the mark would begin with the last character of what stands before
        have := hp a (by simp)
        rw [(isMarkChar_of_isMark hab).1] at this
        cases this
      | cons y w =>
        left
        simp only [List.length_append, List.length_cons]
        omega

/-- **An escaped text holds no mark**, and no markup therefore; and wherever it stands, between
texts that do not touch it with a character of a mark, every mark lies wholly in one of these. -/
theorem marks_outside_escape (t : Text) :
    (∀ a b, isMark a b = true → ¬ [a, b] <:+: escape t) ∧ hasMarkup (escape t) = false ∧
      ∀ p s : Text, (∀ c ∈ p.getLast?, isMarkChar c = false) →
        (∀ c ∈ s.head?, isMarkChar c = false) →
        ∀ (u v : Text) (a b : Char), isMark a b = true → p ++ escape t ++ s = u ++ a :: b :: v →
          u.length + 2 ≤ p.length ∨ p.length + (escape t).length ≤ u.length := by
  have hfree : MarkFree (escape t) := markFree_escapeAfter none t
  refine ⟨fun a b hab => hfree.not_isInfix hab, hfree.hasMarkup_eq_false, ?_⟩
  intro p s hp hs u v a b hab h
  exact hfree.mark_outside hp hs hab h

/-- Between two placeholders, which marks close and open, though not at the escaped text itself. -/
theorem marks_outside_escape_of_braces :
    let p := "{{ a }} ".toList
    let s := " {{ b }}".toList
    let t : Text := ['{', '{', '%', '}', '\\', '}']
    (∀ c ∈ p.getLast?, isMarkChar c = false) ∧ (∀ c ∈ s.head?, isMarkChar c = false) ∧
      ∀ (u v : Text) (a b : Char), isMark a b = true → p ++ escape t ++ s = u ++ a :: b :: v →
        u.length + 2 ≤ 8 ∨ 19 ≤ u.length := by
  intro p s t
  have hp : ∀ c ∈ p.getLast?, isMarkChar c = false := by
    intro c hc
    cases hc
    rfl
  have hs : ∀ c ∈ s.head?, isMarkChar c = false := by
    intro c hc
    cases hc
    rfl
  exact ⟨hp, hs, (marks_outside_escape t).2.2 p s hp hs⟩

end Stencil
