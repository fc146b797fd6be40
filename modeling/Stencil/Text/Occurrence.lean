import Stencil.Text.Basic

/-!
# Occurrences of a form in a text

A recogniser says what stands at the head of a text.  `occurrences` finds what it recognises
anywhere, leftmost first and none overlapping another; `repeated` takes what it recognises again
and again from the head on.  `splice` puts new text in place of spans.
-/

namespace Stencil

/-- What stands at the head of a text, and the rest of the text behind it. -/
abbrev Recogniser (α : Type) := Text → Option (α × Text)

/-- Something recognised in a text, with the offset where it starts and the one behind its end. -/
structure Occurrence (α : Type) where
  item : α
  start : Nat
  stop : Nat

/-- The occurrences in a text that starts at offset `pos` and whose first `skip` characters
belong to an occurrence already found. -/
def occurrencesFrom {α : Type} (r : Recogniser α) (skip pos : Nat) : Text → List (Occurrence α)
  | [] => []
  | c :: t =>
    match skip with
    | skip + 1 => occurrencesFrom r skip (pos + 1) t
    | 0 =>
      match r (c :: t) with
      | some (a, rest) =>
        let more := t.length - rest.length
        ⟨a, pos, pos + 1 + more⟩ :: occurrencesFrom r more (pos + 1) t
      | none => occurrencesFrom r 0 (pos + 1) t

/-- Characters that are already taken only move the offset. -/
theorem occurrencesFrom_skip {α : Type} (r : Recogniser α) (n pos : Nat) (t : Text) :
    occurrencesFrom r n pos t = occurrencesFrom r 0 (pos + n) (t.drop n) := by
  induction t generalizing n pos with
  | nil => simp [occurrencesFrom]
  | cons c t ih =>
    cases n with
    | zero => rfl
    | succ n => rw [occurrencesFrom, ih, List.drop_succ_cons]; congr 1; omega

/-- All that `r` recognises in a text, from left to right. -/
def occurrences {α : Type} (r : Recogniser α) (t : Text) : List (Occurrence α) :=
  occurrencesFrom r 0 0 t

/-- What `r` recognises again and again at the head of a text, after `skip` characters that are
already taken, and the rest. -/
def repeatedFrom {α : Type} (r : Recogniser α) (skip : Nat) : Text → List α × Text
  | [] => ([], [])
  | c :: t =>
    match skip with
    | skip + 1 => repeatedFrom r skip t
    | 0 =>
      match r (c :: t) with
      | some (a, rest) =>
        let (as, rest) := repeatedFrom r (t.length - rest.length) t
        (a :: as, rest)
      | none => ([], c :: t)

/-- What `r` recognises again and again at the head of a text, and the rest. -/
def repeated {α : Type} (r : Recogniser α) (t : Text) : List α × Text :=
  repeatedFrom r 0 t

/-- New text for the span from `start` up to `stop`. -/
structure Edit where
  start : Nat
  stop : Nat
  text : Text

/-- A text that starts at offset `pos`, with its edits made; these are in order and apart. -/
def splice (pos : Nat) : List Edit → Text → Text
  | [], t => t
  | e :: es, t => t.take (e.start - pos) ++ e.text ++ splice e.stop es (t.drop (e.stop - pos))

end Stencil
