import Stencil.Text.Occurrence

/-!
# Texts in chunks

A text that is made of chunks, some of which are an occurrence of what a recogniser looks for.  If
the recogniser reads every chunk as it is meant, whatever follows (`Chunk.ReadBy`), it finds just
these in the whole (`occurrences_join`).
-/

namespace Stencil

/-- A part of a text: an occurrence of something, or nothing of the kind. -/
structure Chunk (α : Type) where
  text : Text
  item : Option α

namespace Chunk

variable {α β : Type}

/-- The text that chunks make. -/
def join (cs : List (Chunk α)) : Text :=
  cs.flatMap Chunk.text

/-- The occurrences among chunks, the first of which starts at offset `pos`. -/
def found (pos : Nat) : List (Chunk α) → List (Occurrence α)
  | [] => []
  | ⟨t, none⟩ :: cs => found (pos + t.length) cs
  | ⟨t, some a⟩ :: cs => ⟨a, pos, pos + t.length⟩ :: found (pos + t.length) cs

@[simp] theorem join_nil : join ([] : List (Chunk α)) = [] := rfl

@[simp] theorem join_cons (c : Chunk α) (cs : List (Chunk α)) : join (c :: cs) = c.text ++ join cs :=
  rfl

@[simp] theorem join_append (cs ds : List (Chunk α)) : join (cs ++ ds) = join cs ++ join ds :=
  List.flatMap_append

theorem found_append (pos : Nat) (cs ds : List (Chunk α)) :
    found pos (cs ++ ds) = found pos cs ++ found (pos + (join cs).length) ds := by
  induction cs generalizing pos with
  | nil => rfl
  | cons c cs ih =>
    obtain ⟨t, item⟩ := c
    have hlen : pos + (join (⟨t, item⟩ :: cs)).length = pos + t.length + (join cs).length := by
      rw [join_cons, List.length_append, Nat.add_assoc]
    rw [hlen]
    cases item with
    | none => exact ih _
    | some a => exact congrArg (_ :: ·) (ih _)

/-! ## Reading -/

theorem occurrencesFrom_of_none {r : Recogniser α} {c : Char} {t : Text} (h : r (c :: t) = none)
    (pos : Nat) : occurrencesFrom r 0 pos (c :: t) = occurrencesFrom r 0 (pos + 1) t := by
  rw [occurrencesFrom, h]

theorem occurrencesFrom_of_some {r : Recogniser α} {c : Char} {t rest : Text} {a : α}
    (h : r (c :: (t ++ rest)) = some (a, rest)) (pos : Nat) :
    occurrencesFrom r 0 pos (c :: (t ++ rest))
      = ⟨a, pos, pos + (t.length + 1)⟩ :: occurrencesFrom r 0 (pos + (t.length + 1)) rest := by
  have hmore : (t ++ rest).length - rest.length = t.length := by simp
  rw [occurrencesFrom, h]
  dsimp only
  rw [hmore, occurrencesFrom_skip, List.drop_left, Nat.add_assoc, Nat.add_comm 1]

/-- The recogniser finds in a chunk what the chunk is meant to be, whatever text follows. -/
def ReadBy (r : Recogniser α) (c : Chunk α) : Prop :=
  ∀ (pos : Nat) (rest : Text), occurrencesFrom r 0 pos (c.text ++ rest)
    = found pos [c] ++ occurrencesFrom r 0 (pos + c.text.length) rest

/-- Nothing starts in a text, whatever follows it. -/
def Passed (r : Recogniser α) (t : Text) : Prop :=
  ReadBy r ⟨t, none⟩

theorem passed_nil (r : Recogniser α) : Passed r [] :=
  fun _ _ => rfl

theorem passed_cons {r : Recogniser α} {c : Char} {t : Text}
    (hc : ∀ rest, r (c :: (t ++ rest)) = none) (ht : Passed r t) : Passed r (c :: t) := by
  intro pos rest
  show occurrencesFrom r 0 pos (c :: (t ++ rest)) = occurrencesFrom r 0 (pos + (t.length + 1)) rest
  have htail : occurrencesFrom r 0 (pos + 1) (t ++ rest)
      = occurrencesFrom r 0 (pos + 1 + t.length) rest := ht (pos + 1) rest
  rw [occurrencesFrom_of_none (hc rest), htail, Nat.add_assoc, Nat.add_comm 1]

/-- A recogniser that looks for a certain first character passes over texts without it. -/
theorem passed_of_not_mem {r : Recogniser α} {first : Char}
    (hr : ∀ c t, c ≠ first → r (c :: t) = none) {t : Text} (h : first ∉ t) : Passed r t := by
  induction t with
  | nil => exact passed_nil r
  | cons c t ih =>
    have hc : c ≠ first := fun he => h (he ▸ List.mem_cons_self)
    exact passed_cons (fun rest => hr c _ hc) (ih fun ht => h (List.mem_cons_of_mem _ ht))

/-- A text that is recognised whatever follows it is read as an occurrence. -/
theorem readBy_of_eq {r : Recogniser α} {t : Text} {a : α} (hne : t ≠ [])
    (h : ∀ rest, r (t ++ rest) = some (a, rest)) : ReadBy r ⟨t, some a⟩ := by
  intro pos rest
  cases t with
  | nil => exact absurd rfl hne
  | cons c t =>
    exact occurrencesFrom_of_some (h rest) pos

theorem occurrencesFrom_join {r : Recogniser α} {cs : List (Chunk α)} (h : ∀ c ∈ cs, c.ReadBy r)
    (pos : Nat) (rest : Text) : occurrencesFrom r 0 pos (join cs ++ rest)
      = found pos cs ++ occurrencesFrom r 0 (pos + (join cs).length) rest := by
  induction cs generalizing pos with
  | nil => rfl
  | cons c cs ih =>
    have hc := h c List.mem_cons_self pos (join cs ++ rest)
    have hcs := ih (fun c' hc' => h c' (List.mem_cons_of_mem _ hc')) (pos + c.text.length)
    have happend := found_append pos [c] cs
    simp only [List.singleton_append, join_cons, join_nil, List.append_nil] at happend
    rw [join_cons, List.append_assoc, hc, hcs, happend, List.append_assoc, List.length_append,
      Nat.add_assoc]

/-- What is found in a text are the chunks that are meant to be found. -/
theorem occurrences_join {r : Recogniser α} {cs : List (Chunk α)} (h : ∀ c ∈ cs, c.ReadBy r) :
    occurrences r (join cs) = found 0 cs := by
  have := occurrencesFrom_join h 0 []
  rw [List.append_nil] at this
  exact this.trans (List.append_nil _)

end Chunk

end Stencil
