import Stencil.Number.Numeral
import Stencil.Number.Written

/-!
# Decimals that are written and read back

The digits in which a number is written are a numeral (`isNumeral_toDigits`), and what the numeral
stands for is the number (`numeralValue_toDigits`).  So an integer that is written is read back, if it
is not too long for that (`readInteger?_integerText`).
-/

namespace Stencil

/-- What holds of the ten digits that numbers are written in holds of a digit. -/
theorem of_isDigit {p : Char → Prop} (hdigits : ∀ n < 58, 48 ≤ n → p (Char.ofNat n)) {c : Char}
    (h : c.isDigit = true) : p c := by
  obtain ⟨hzero, hnine⟩ := Char.isDigit_iff_toNat.mp h
  have := hdigits c.toNat (Nat.lt_succ_of_le hnine) hzero
  rwa [Char.ofNat_toNat] at this

theorem digitValue?_of_isDigit {c : Char} (h : c.isDigit = true) :
    digitValue? c = some (c.toNat - '0'.toNat) :=
  of_isDigit (p := fun c => digitValue? c = some (c.toNat - '0'.toNat)) (by decide +kernel) h

theorem isDigit_of_mem_toDigits {n : Nat} {c : Char} (h : c ∈ Nat.toDigits 10 n) :
    c.isDigit = true :=
  Nat.isDigit_of_mem_toDigits (by decide) (by decide) h

theorem isNumeral_toDigits (n : Nat) : Text.isNumeral (Nat.toDigits 10 n) = true := by
  have hdigits : (Nat.toDigits 10 n).all isDigit = true := by
    rw [List.all_eq_true]
    intro c hc
    unfold isDigit
    rw [digitValue?_of_isDigit (isDigit_of_mem_toDigits hc)]
    rfl
  have hne : (Nat.toDigits 10 n).isEmpty = false :=
    List.isEmpty_eq_false_iff.mpr Nat.toDigits_ne_nil
  unfold Text.isNumeral
  rw [hdigits, hne]
  rfl

/-- A run of such digits is read as it is in any positional system of base ten. -/
theorem numeralValue_eq_ofDigitChars {t : Text} (h : ∀ c ∈ t, c.isDigit = true) :
    t.numeralValue = Nat.ofDigitChars 10 t 0 := by
  have hfold : ∀ n, t.foldl (fun n c => 10 * n + (digitValue? c).getD 0) n
      = Nat.ofDigitChars 10 t n := by
    induction t with
    | nil => exact fun _ => rfl
    | cons c t ih =>
      obtain ⟨hc, ht⟩ := List.forall_mem_cons.mp h
      intro n
      rw [List.foldl_cons, Nat.ofDigitChars_cons, ih ht, digitValue?_of_isDigit hc]
      rfl
  exact hfold 0

theorem numeralValue_toDigits (n : Nat) : Text.numeralValue (Nat.toDigits 10 n) = n := by
  rw [numeralValue_eq_ofDigitChars fun c hc => isDigit_of_mem_toDigits hc]
  exact Nat.ofDigitChars_toDigits (by decide) (by decide)

/-- No sign and no underscore stands among the digits. -/
theorem not_mem_toDigits {c : Char} (h : c.isDigit = false) (n : Nat) : c ∉ Nat.toDigits 10 n := by
  intro hc
  rw [isDigit_of_mem_toDigits hc] at h
  cases h

theorem groupedDigits?_toDigits (n : Nat) :
    groupedDigits? (Nat.toDigits 10 n) = some (Nat.toDigits 10 n) := by
  unfold groupedDigits?
  rw [List.splitOn_eq_singleton (not_mem_toDigits (by decide) n)]
  simp [isNumeral_toDigits]

theorem signed_toDigits (n : Nat) : signed (Nat.toDigits 10 n) = (false, Nat.toDigits 10 n) := by
  have hminus := not_mem_toDigits (c := '-') (by decide) n
  have hplus := not_mem_toDigits (c := '+') (by decide) n
  unfold signed
  split
  · rename_i ht
    rw [ht] at hminus
    exact absurd List.mem_cons_self hminus
  · rename_i ht
    rw [ht] at hplus
    exact absurd List.mem_cons_self hplus
  · rfl

theorem mem_integerText {n : Int} {c : Char} (h : c ∈ integerText n) :
    c = '-' ∨ c.isDigit = true := by
  unfold integerText at h
  split at h
  · exact (List.mem_cons.mp h).imp_right isDigit_of_mem_toDigits
  · exact .inr (isDigit_of_mem_toDigits h)

theorem integerText_ne_nil (n : Int) : integerText n ≠ [] := by
  unfold integerText
  split
  · exact List.cons_ne_nil _ _
  · exact Nat.toDigits_ne_nil

/-- **What an integer is written as is read as that integer.** -/
theorem readInteger?_integerText {n : Int} (h : (Nat.toDigits 10 n.natAbs).length ≤ maxDigits) :
    readInteger? (integerText n) = some n := by
  have hsigned : signed (integerText n) = (decide (n < 0), Nat.toDigits 10 n.natAbs) := by
    unfold integerText
    by_cases hn : n < 0
    · rw [if_pos hn, decide_eq_true hn]
      rfl
    · rw [if_neg hn, decide_eq_false hn]
      exact signed_toDigits n.natAbs
  have hvalue : (if n < 0 then -(n.natAbs : Int) else n.natAbs) = n := by
    split <;> omega
  unfold readInteger?
  simp only [hsigned, groupedDigits?_toDigits, if_pos h, numeralValue_toDigits, decide_eq_true_eq,
    hvalue]

end Stencil
