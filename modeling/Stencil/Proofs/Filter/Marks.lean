import Stencil.Proofs.Filter.Registration
import Stencil.Proofs.Number.Decimal
import Stencil.Proofs.Template.Residue

/-!
# Marks that filters leave

A character without a case is a mark in a text.  The filters that are always there change the case
of a text, which leaves the mark where it is, or put its size in its place, and a size is written in
digits, which have no case either:

    text with the mark  -- upper, lower, capitalize, default, join -->  text with the mark
    text with the mark  -- length -->  size  -- upper, ... -->  digits  -- length -->  size

So what a chain makes of a text with a mark has the mark, or nothing but digits
(`Marked.foldlM_standard`).
-/

namespace Stencil

/-! ## Letter case -/

/-- A character that is the same in upper and in lower case, wherever it stands. -/
def Caseless (c : Char) : Prop :=
  upperChar c = [c] ∧ lowerChar c = [c] ∧ c.toNat ≠ 0x3A3

instance (c : Char) : Decidable (Caseless c) :=
  inferInstanceAs (Decidable (_ ∧ _))

theorem caseless_of_isDigit {c : Char} (h : c.isDigit = true) : Caseless c :=
  of_isDigit (by decide +kernel) h

/-- What a change of case does to the characters that have none. -/
structure KeepsCaseless (change : Text → Text) : Prop where
  mem : ∀ {c : Char} {t : Text}, Caseless c → c ∈ t → c ∈ change t
  eq : ∀ {t : Text}, (∀ c ∈ t, Caseless c) → change t = t

theorem keepsCaseless_upper : KeepsCaseless Text.upper where
  mem {c t} hc hmem := List.mem_flatMap.mpr ⟨c, hmem, by rw [hc.1]; exact List.mem_singleton_self c⟩
  eq {t} h := by
    induction t with
    | nil => rfl
    | cons c t ih =>
      obtain ⟨hc, ht⟩ := List.forall_mem_cons.mp h
      show upperChar c ++ Text.upper t = c :: t
      rw [hc.1, ih ht]
      rfl

/-- The first step of lowering a text, where it is at a character without a case. -/
theorem lowerAfter_cons {c : Char} (hc : Caseless c) (cased : Bool) (t : Text) :
    Text.lowerAfter cased (c :: t)
      = c :: Text.lowerAfter (if isCaseIgnorable c then cased else isCased c) t := by
  rw [Text.lowerAfter, if_neg hc.2.2, hc.2.1]
  rfl

theorem keepsCaseless_lower : KeepsCaseless Text.lower where
  mem {c t} hc hmem := by
    suffices hafter : ∀ cased, c ∈ Text.lowerAfter cased t from hafter false
    induction t with
    | nil => cases hmem
    | cons d t ih =>
      intro cased
      by_cases hd : d = c
      · subst hd
        rw [lowerAfter_cons hc]
        exact List.mem_cons_self
      · have ht : c ∈ t := (List.mem_cons.mp hmem).resolve_left (Ne.symm hd)
        exact List.mem_append_right _ (ih ht _)
  eq {t} h := by
    suffices hafter : ∀ cased, Text.lowerAfter cased t = t from hafter false
    induction t with
    | nil => exact fun _ => rfl
    | cons c t ih =>
      intro cased
      obtain ⟨hc, ht⟩ := List.forall_mem_cons.mp h
      rw [lowerAfter_cons hc, ih ht]

theorem keepsCaseless_capitalize : KeepsCaseless Text.capitalize where
  mem {c t} hc hmem := by
    rw [← List.take_append_drop 1 t] at hmem
    unfold Text.capitalize
    rcases List.mem_append.mp hmem with hmem | hmem
    · exact List.mem_append_left _ (keepsCaseless_upper.mem hc hmem)
    · exact List.mem_append_right _ (keepsCaseless_lower.mem hc hmem)
  eq {t} h := by
    unfold Text.capitalize
    rw [keepsCaseless_upper.eq fun c hc => h c (List.mem_of_mem_take hc),
      keepsCaseless_lower.eq fun c hc => h c (List.mem_of_mem_drop hc), List.take_append_drop]

/-! ## Marks -/

variable {mark : Char}

/-- A text that has the mark, or is a size in digits. -/
def Text.Traced (mark : Char) (t : Text) : Prop :=
  mark ∈ t ∨ t ≠ [] ∧ ∀ c ∈ t, c.isDigit = true

/-- What filters make of a text with the mark. -/
inductive Marked (mark : Char) : Value → Prop
  | text {t : Text} (h : t.Traced mark) : Marked mark (.text t)
  | size (n : Nat) : Marked mark (.int n)

theorem Text.Traced.ne_nil {t : Text} (h : t.Traced mark) : t ≠ [] := by
  rcases h with h | h
  · exact List.ne_nil_of_mem h
  · exact h.1

theorem Text.Traced.change {change : Text → Text} (hchange : KeepsCaseless change)
    (hmark : Caseless mark) {t : Text} (h : t.Traced mark) : (change t).Traced mark := by
  rcases h with h | h
  · exact .inl (hchange.mem hmark h)
  · refine .inr ?_
    rwa [hchange.eq fun c hc => caseless_of_isDigit (h.2 c hc)]

/-- A size is written in digits. -/
theorem Marked.display {v : Value} (h : Marked mark v) {t : Text} (ht : v.display = .ok t) :
    t.Traced mark := by
  cases h with
  | text h =>
    cases ht
    exact h
  | size n =>
    unfold Value.display displayInteger at ht
    split at ht
    · cases ht
      have hsign : ¬ (n : Int) < 0 := by omega
      unfold integerText
      rw [if_neg hsign, Int.natAbs_natCast]
      exact .inr ⟨Nat.toDigits_ne_nil, fun c => isDigit_of_mem_toDigits⟩
    · cases ht

/-- One filter leaves a mark, or what has become of one. -/
theorem Marked.apply (hmark : Caseless mark) {v : Value} (h : Marked mark v) {b : Builtin}
    {args : List Value} {next : Option Value} (happly : b.apply (some v) args = .ok next) :
    ∃ w, next = some w ∧ Marked mark w := by
  have htext {change : Text → Text} (hchange : KeepsCaseless change)
      (happly : Builtin.applyToText change (some v) args = .ok next) :
      ∃ w, next = some w ∧ Marked mark w := by
    obtain ⟨t, ht, he⟩ := exists_of_bind_ok happly
    cases he
    exact ⟨_, rfl, .text ((h.display ht).change hchange hmark)⟩
  cases b with
  | default =>
    refine ⟨v, ?_, h⟩
    cases h with
    | @text t h =>
      have hne := h.ne_nil
      cases t with
      | nil => exact absurd rfl hne
      | cons c t =>
        cases happly
        rfl
    | size n =>
      cases happly
      rfl
  | upper => exact htext keepsCaseless_upper happly
  | lower => exact htext keepsCaseless_lower happly
  | capitalize => exact htext keepsCaseless_capitalize happly
  | length =>
    cases h with
    | @text t h =>
      cases happly
      exact ⟨_, rfl, .size t.length⟩
    | size n =>
      cases happly
      exact ⟨_, rfl, .size 0⟩
  | join =>
    refine ⟨v, ?_, h⟩
    cases h
    all_goals
      cases happly
      rfl

/-- A chain of filters leaves a mark, or what has become of one. -/
theorem Marked.foldlM_standard (hmark : Caseless mark) {v : Value} (h : Marked mark v)
    {list : List Segment} {last : Option Value}
    (happly : list.foldlM Registry.standard.pass (some v) = .ok last) :
    ∃ w, last = some w ∧ Marked mark w := by
  induction list generalizing v with
  | nil =>
    cases happly
    exact ⟨v, rfl, h⟩
  | cons segment rest ih =>
    rw [List.foldlM_cons] at happly
    obtain ⟨next, hnext, hrest⟩ := exists_of_bind_ok happly
    have hstep : ∃ w, next = some w ∧ Marked mark w := by
      unfold Registry.pass at hnext
      split at hnext
      · cases hnext
        exact ⟨v, rfl, h⟩
      · rename_i filter hfind
        obtain ⟨b, -, rfl⟩ := Registry.find?_standard_eq_some_iff.mp hfind
        exact h.apply hmark hnext
    obtain ⟨w, rfl, hw⟩ := hstep
    exact ih hw hrest

end Stencil
