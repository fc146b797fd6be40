import Stencil.Proofs.Markup.Span

/-!
# The leftmost pieces of a text

What a scan finds, said without the scan.  Some pieces of texts spell something (`spells`), and a
recogniser takes such a piece from the head of a text (`Recogniser.Takes`).  Then what it finds in a
text are the leftmost pieces, one behind the other (`leftmost_iff`):

    gap  piece  gap  piece  ...  gap

where no piece begins in a gap, be it one that would reach beyond the gap.
-/

namespace Stencil

variable {α : Type} {r : Recogniser α} {spells : Text → α → Prop}

/-- The occurrences of what is spelled, from an offset on: the first piece that begins there or
later, and those behind its end. -/
def Leftmost (spells : Text → α → Prop) (t : Text) : (pos : Nat) → List (Occurrence α) → Prop
  | pos, [] => ∀ start stop a, pos ≤ start → ¬ spells (t.slice start stop) a
  | pos, o :: os =>
    (pos ≤ o.start ∧ o.start < o.stop ∧ o.stop ≤ t.length) ∧
    (∀ start stop a, pos ≤ start → start < o.start → ¬ spells (t.slice start stop) a) ∧
    spells (t.slice o.start o.stop) o.item ∧ Leftmost spells t o.stop os

/-- A recogniser that takes from the head of a text a piece that spells something, whatever
follows. -/
structure Recogniser.Takes (r : Recogniser α) (spells : Text → α → Prop) : Prop where
  not_nil : ∀ a, ¬ spells [] a
  eq_some_iff : ∀ t a rest, r t = some (a, rest) ↔ ∃ piece, t = piece ++ rest ∧ spells piece a

/-- A place where no piece begins belongs to the gap. -/
theorem Leftmost.of_succ {t : Text} {pos : Nat} {os : List (Occurrence α)}
    (h : Leftmost spells t (pos + 1) os) (hnone : ∀ stop a, ¬ spells (t.slice pos stop) a) :
    Leftmost spells t pos os := by
  have hgap (start stop : Nat) (a : α) (hstart : pos ≤ start)
      (hlater : pos + 1 ≤ start → ¬ spells (t.slice start stop) a) :
      ¬ spells (t.slice start stop) a := by
    rcases Nat.eq_or_lt_of_le hstart with rfl | hlt
    · exact hnone stop a
    · exact hlater hlt
  cases os with
  | nil => exact fun start stop a hstart => hgap start stop a hstart (h start stop a)
  | cons o os =>
    obtain ⟨⟨hpos, hlt, hle⟩, hbefore, hspells, hrest⟩ := h
    refine ⟨⟨by omega, hlt, hle⟩, fun start stop a hstart hbound => ?_, hspells, hrest⟩
    exact hgap start stop a hstart fun hlater => hbefore start stop a hlater hbound

/-- Each of the pieces spells what it is taken for. -/
theorem Leftmost.spells_of_mem {t : Text} {pos : Nat} {os : List (Occurrence α)}
    (h : Leftmost spells t pos os) :
    ∀ o ∈ os, o.start < o.stop ∧ o.stop ≤ t.length ∧ spells (t.slice o.start o.stop) o.item := by
  induction os generalizing pos with
  | nil => exact nofun
  | cons o os ih =>
    obtain ⟨⟨-, hlt, hle⟩, -, hspells, hrest⟩ := h
    exact List.forall_mem_cons.mpr ⟨⟨hlt, hle, hspells⟩, ih hrest⟩

/-- Behind an offset stands first what any span from there on holds. -/
theorem Text.slice_isPrefix (t : Text) (start stop : Nat) : t.slice start stop <+: t.drop start := by
  unfold slice
  rw [List.drop_take]
  exact List.take_prefix _ _

/-- The span of a piece that stands behind an offset. -/
theorem Text.slice_of_drop {t piece rest : Text} {pos : Nat} (h : t.drop pos = piece ++ rest) :
    t.slice pos (pos + piece.length) = piece := by
  unfold slice
  rw [List.drop_take, h, Nat.add_sub_cancel_left, List.take_left]

/-- From every offset on, the scan finds the leftmost pieces. -/
theorem Recogniser.Takes.leftmost (h : r.Takes spells) (t : Text) (pos : Nat) :
    Leftmost spells t pos (occurrencesFrom r 0 pos (t.drop pos)) := by
  induction hn : t.length - pos using Nat.strongRecOn generalizing pos with
  | ind n ih =>
    have hlength : (t.drop pos).length = n := by rw [List.length_drop, hn]
    cases hu : t.drop pos with
    | nil =>
      intro start stop a hstart
      have hnil : t.drop start = [] := by
        refine List.drop_eq_nil_of_le ?_
        rw [hu, List.length_nil] at hlength
        omega
      have hslice := t.slice_isPrefix start stop
      rw [hnil, List.prefix_nil] at hslice
      rw [hslice]
      exact h.not_nil a
    | cons c u =>
      rw [hu, List.length_cons] at hlength
      unfold occurrencesFrom
      dsimp only
      cases hr : r (c :: u) with
      | none =>
        have hrest := ih (n - 1) (by omega) (pos + 1) (by omega)
        rw [← List.drop_drop, hu] at hrest
        refine hrest.of_succ fun stop a hspells => ?_
        obtain ⟨rest, hrest⟩ := t.slice_isPrefix pos stop
        rw [hu] at hrest
        have := (h.eq_some_iff (c :: u) a rest).mpr ⟨_, hrest.symm, hspells⟩
        rw [hr] at this
        cases this
      | some p =>
        obtain ⟨a, rest⟩ := p
        obtain ⟨piece, hpiece, hspells⟩ := (h.eq_some_iff (c :: u) a rest).mp hr
        have hne : piece ≠ [] := fun hnil => h.not_nil a (hnil ▸ hspells)
        have hpos := List.length_pos_iff.mpr hne
        have hsplit := congrArg List.length hpiece
        rw [List.length_cons, List.length_append] at hsplit
        -- the scan goes on behind the piece
        have hmore : u.length - rest.length = piece.length - 1 := by omega
        have hskip : u.drop (piece.length - 1) = t.drop (pos + piece.length) := by
          rw [← List.drop_drop, hu, ← Nat.succ_pred_eq_of_pos hpos]
          rfl
        have hstop : pos + 1 + (piece.length - 1) = pos + piece.length := by omega
        have hrest := ih (n - piece.length) (by omega) (pos + piece.length) (by omega)
        dsimp only
        rw [hmore, occurrencesFrom_skip, hskip, hstop]
        refine ⟨⟨Nat.le_refl pos, ?_, ?_⟩, ?_, ?_, hrest⟩
        · show pos < pos + piece.length
          omega
        · show pos + piece.length ≤ t.length
          omega
        · exact fun start stop b hstart hlt => absurd hlt (Nat.not_lt.mpr hstart)
        · show spells (t.slice pos (pos + piece.length)) a
          rwa [Text.slice_of_drop (hu.trans hpiece)]

/-- The piece at a place is determined, and so is where it ends. -/
theorem Recogniser.Takes.unique (h : r.Takes spells) {t : Text} {o p : Occurrence α}
    (hstart : o.start = p.start) (ho : o.start < o.stop ∧ o.stop ≤ t.length)
    (hp : p.start < p.stop ∧ p.stop ≤ t.length) (hos : spells (t.slice o.start o.stop) o.item)
    (hps : spells (t.slice p.start p.stop) p.item) : o = p := by
  have hread {q : Occurrence α} (hq : q.start < q.stop ∧ q.stop ≤ t.length)
      (hspells : spells (t.slice q.start q.stop) q.item) :
      r (t.drop q.start) = some (q.item, t.drop q.stop) := by
    refine (h.eq_some_iff _ _ _).mpr ⟨_, ?_, hspells⟩
    rw [t.slice_append_drop (by omega)]
  have hsame := (hread ho hos).symm.trans (hstart ▸ hread hp hps)
  obtain ⟨hitem, hrest⟩ := Prod.mk.inj (Option.some.inj hsame)
  have hlength := congrArg List.length hrest
  rw [List.length_drop, List.length_drop] at hlength
  have hstop : o.stop = p.stop := by omega
  obtain ⟨item, start, stop⟩ := o
  obtain ⟨item', start', stop'⟩ := p
  obtain rfl : item = item' := hitem
  obtain rfl : start = start' := hstart
  obtain rfl : stop = stop' := hstop
  rfl

/-- There is only one way to go from one leftmost piece to the next. -/
theorem Leftmost.unique (h : r.Takes spells) {t : Text} {pos : Nat} {os ps : List (Occurrence α)}
    (hos : Leftmost spells t pos os) (hps : Leftmost spells t pos ps) : os = ps := by
  induction os generalizing pos ps with
  | nil =>
    cases ps with
    | nil => rfl
    | cons p ps =>
      obtain ⟨⟨hpos, -, -⟩, -, hspells, -⟩ := hps
      exact absurd hspells (hos p.start p.stop p.item hpos)
  | cons o os ih =>
    obtain ⟨⟨hopos, holt, hole⟩, hobefore, hospells, horest⟩ := hos
    cases ps with
    | nil => exact absurd hospells (hps o.start o.stop o.item hopos)
    | cons p ps =>
      obtain ⟨⟨hppos, hplt, hple⟩, hpbefore, hpspells, hprest⟩ := hps
      rcases Nat.lt_trichotomy o.start p.start with hlt | hstart | hlt
      · exact absurd hospells (hpbefore o.start o.stop o.item hopos hlt)
      · obtain rfl := h.unique hstart ⟨holt, hole⟩ ⟨hplt, hple⟩ hospells hpspells
        rw [ih horest hprest]
      · exact absurd hpspells (hobefore p.start p.stop p.item hppos hlt)

/-- **What a scan finds are the leftmost pieces**, and nothing else is. -/
theorem leftmost_iff (h : r.Takes spells) (t : Text) (os : List (Occurrence α)) :
    Leftmost spells t 0 os ↔ os = occurrences r t := by
  constructor
  · exact fun hos => hos.unique h (h.leftmost t 0)
  · rintro rfl
    exact h.leftmost t 0

end Stencil
