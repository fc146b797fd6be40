import Stencil.Text.Occurrence

/-!
# Ways to take a part of a text

A part of a form that can be taken off the head of a text in several ways has a list of them, in the
order in which they are tried, each with what it takes and what it leaves.  A search goes through the
list and is over with the first way from which the rest of the form can be read:

    longestFirst isBlank  "  x"    ("  ", "x"), (" ", " x"), ("", "  x")
    shortestFirst         "ab"     ("", "ab"), ("a", "b"), ("ab", "")

Where the shorter ways are of no use if the longest is not, the search is over with the longest one
(`findSome?_longestFirst`).
-/

namespace Stencil

/-- The ways to take a run of characters of a kind, the longest run first. -/
def longestFirst (p : Char → Bool) : Text → List (Text × Text)
  | [] => [([], [])]
  | c :: t =>
    if p c then (longestFirst p t).map (fun (run, rest) => (c :: run, rest)) ++ [([], c :: t)]
    else [([], c :: t)]

/-- The ways to take any characters, the fewest first. -/
def shortestFirst : Text → List (Text × Text)
  | [] => [([], [])]
  | c :: t => ([], c :: t) :: (shortestFirst t).map fun (run, rest) => (c :: run, rest)

variable {β : Type}

/-- After the longest run come those that leave a character of the kind. -/
theorem exists_longestFirst_eq (p : Char → Bool) (t : Text) :
    ∃ shorter, longestFirst p t = (t.takeWhile p, t.dropWhile p) :: shorter ∧
      ∀ way ∈ shorter, way.1 ++ way.2 = t ∧ ∃ c u, way.2 = c :: u ∧ p c = true := by
  induction t with
  | nil => exact ⟨[], rfl, nofun⟩
  | cons c t ih =>
    cases hc : p c with
    | false =>
      refine ⟨[], ?_, nofun⟩
      simp [longestFirst, hc]
    | true =>
      obtain ⟨shorter, hways, hshorter⟩ := ih
      refine ⟨shorter.map (fun (run, rest) => (c :: run, rest)) ++ [([], c :: t)], ?_, ?_⟩
      · simp [longestFirst, hc, hways]
      · intro way hway
        rcases List.mem_append.mp hway with hway | hway
        · obtain ⟨⟨run, rest⟩, hmem, rfl⟩ := List.mem_map.mp hway
          obtain ⟨hsplit, hrest⟩ := hshorter _ hmem
          exact ⟨congrArg (c :: ·) hsplit, hrest⟩
        · rw [List.mem_singleton.mp hway]
          exact ⟨rfl, c, t, rfl, hc⟩

/-- The longest run decides, where a shorter one is of no use unless the longest is. -/
theorem findSome?_longestFirst {p : Char → Bool} {t : Text} {next : Text × Text → Option β}
    (h : next (t.takeWhile p, t.dropWhile p) = none →
      ∀ run c u, run ++ c :: u = t → p c = true → next (run, c :: u) = none) :
    (longestFirst p t).findSome? next = next (t.takeWhile p, t.dropWhile p) := by
  obtain ⟨shorter, hways, hshorter⟩ := exists_longestFirst_eq p t
  rw [hways, List.findSome?_cons]
  cases hlongest : next (t.takeWhile p, t.dropWhile p) with
  | some b => rfl
  | none =>
    refine List.findSome?_eq_none_iff.mpr ?_
    rintro ⟨run, rest⟩ hway
    obtain ⟨hsplit, c, u, hrest, hc⟩ := hshorter _ hway
    dsimp only at hrest hsplit
    subst hrest
    exact h hlongest run c u hsplit hc

/-- What is taken and what is left make up the text. -/
theorem append_of_mem_shortestFirst {t : Text} :
    ∀ way ∈ shortestFirst t, way.1 ++ way.2 = t := by
  induction t with
  | nil => exact List.forall_mem_singleton.mpr rfl
  | cons c t ih =>
    refine List.forall_mem_cons.mpr ⟨rfl, ?_⟩
    intro way hway
    obtain ⟨⟨run, rest⟩, hmem, rfl⟩ := List.mem_map.mp hway
    exact congrArg (c :: ·) (ih _ hmem)

/-- If one alternative alone leads anywhere, the search takes it. -/
theorem findSome?_of_forall_ne {α : Type} {l : List α} {next : α → Option β} {a : α} (ha : a ∈ l)
    (h : ∀ b ∈ l, b ≠ a → next b = none) : l.findSome? next = next a := by
  induction l with
  | nil => cases ha
  | cons b l ih =>
    obtain ⟨hb, hl⟩ := List.forall_mem_cons.mp h
    rw [List.findSome?_cons]
    by_cases hba : b = a
    · subst hba
      cases hnext : next b with
      | some c => rfl
      | none =>
        refine List.findSome?_eq_none_iff.mpr ?_
        intro c hc
        by_cases hcb : c = b
        · rw [hcb, hnext]
        · exact hl c hc hcb
    · rw [hb hba]
      exact ih ((List.mem_cons.mp ha).resolve_left (Ne.symm hba)) hl

end Stencil
