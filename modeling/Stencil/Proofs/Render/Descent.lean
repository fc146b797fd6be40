import Stencil.Proofs.Markup.Written
import Stencil.Proofs.Render.SameCourse

/-!
# How deep a template goes

A template can be nested only as deep as it is long.  What a block encloses is shorter than the text
that the block stands in, at least by the two tags (`branches_length_lt`), and the conditionals of a
text give way to a text that is no longer.  So at every moment of a render

    depth + length of the text that is scanned for tags ≤ length of the template

and with as many levels as the template has characters, or more, there is always a level left for
what a block encloses.  How many more makes no difference (`renderStages_of_deep_limits`).

The comparison (`Comparison.deep`) is of two renders that have levels enough.  What they scan at which
depth is on record (`State.Descends`).
-/

namespace Stencil

open Render

/-! ## What a block encloses -/

/-- **What a block encloses is shorter than the text that it stands in.** -/
theorem branches_length_lt {t : Text} {b : Block} (h : b ∈ blocks t) :
    (b.branches t).1.length < t.length ∧ (b.branches t).2.length < t.length := by
  have hb := (blocks_laid t).parts b h
  have hstop : b.stop ≤ t.length :=
    ((blocks_laid t).inOrder.bounds_of_mem b.occurrence (List.mem_map_of_mem h)).2
  have h1 := hb.start_lt
  have h2 := hb.body_le
  have h3 := hb.stop_lt
  unfold Block.branches
  cases halt : b.alternative with
  | none =>
    have hbody : (t.slice b.bodyStart b.bodyStop).length = b.bodyStop - b.bodyStart :=
      t.length_slice (by omega)
    refine ⟨?_, ?_⟩
    · show (t.slice b.bodyStart b.bodyStop).length < t.length
      omega
    · show 0 < t.length
      omega
  | some tag =>
    obtain ⟨h4, h5, h6⟩ := hb.alternative tag halt
    have hbody : (t.slice b.bodyStart tag.start).length = tag.start - b.bodyStart :=
      t.length_slice (by omega)
    have hother : (t.slice tag.stop b.bodyStop).length = b.bodyStop - tag.stop :=
      t.length_slice (by omega)
    refine ⟨?_, ?_⟩
    · show (t.slice b.bodyStart tag.start).length < t.length
      omega
    · show (t.slice tag.stop b.bodyStop).length < t.length
      omega

/-- Both renders have at least as many levels left as the text has characters that is scanned. -/
def Comparison.deep : Comparison :=
  .ofLevels (fun room room' t => t.length ≤ room ∧ t.length ≤ room') fun _ => False

/-- There is always a level left for what a block encloses. -/
theorem Comparison.deep_lawful (filters : Registry) : deep.Lawful filters := by
  refine ofLevels_lawful ?_ ?_ ?_ filters
  · intro room room' t u ⟨h, h'⟩ hu
    have := hu.length_le
    exact ⟨by omega, by omega⟩
  · intro room room' t b ⟨h, h'⟩ hb
    obtain ⟨hbody, hother⟩ := branches_length_lt hb
    exact ⟨room' - 1, by omega, ⟨by omega, by omega⟩, by omega, by omega⟩
  · intro room' t b ⟨h, _⟩ hb
    have := (branches_length_lt hb).1
    omega

/-! ## What is scanned at which depth -/

/-- The depth that a history has come to, from the depth that it begins at. -/
def depthAfter (start : Nat) : List Event → Nat
  | [] => start
  | .depth n :: _ => n
  | .reads _ _ :: past => depthAfter start past

/-- The texts that the stages have scanned for tags, each with the depth at that moment. -/
def scans (start : Nat) : List Event → List (Nat × Text)
  | [] => []
  | .depth _ :: past => scans start past
  | .reads stage t :: past =>
    if stage.scansTags then (depthAfter start past, t) :: scans start past else scans start past

theorem depthAfter_append (start : Nat) (new past : List Event) :
    depthAfter start (new ++ past) = depthAfter (depthAfter start past) new := by
  induction new with
  | nil => rfl
  | cons e new ih =>
    cases e with
    | depth n => rfl
    | reads stage t => exact ih

theorem scans_append (start : Nat) (new past : List Event) :
    scans start (new ++ past) = scans (depthAfter start past) new ++ scans start past := by
  induction new with
  | nil => rfl
  | cons e new ih =>
    cases e with
    | depth n => exact ih
    | reads stage t =>
      simp only [List.cons_append, scans, depthAfter_append, ih]
      split <;> rfl

/-- Between two states no level has been refused, and whatever has been scanned for tags was shorter
by at least the levels that it was further down. -/
structure State.Descends (size : Nat) (before after : State) : Prop where
  limits : after.limits = before.limits
  depth : after.depth = before.depth
  notices : ∃ new, after.notices = new ++ before.notices ∧ ∀ n, .nestingLimit n ∉ new
  history : ∃ new, after.history = new ++ before.history ∧
    depthAfter before.depth new = before.depth ∧
    ∀ p ∈ scans before.depth new, p.1 + p.2.length ≤ before.depth + size

namespace State.Descends

theorem refl (size : Nat) (s : State) : s.Descends size s where
  limits := rfl
  depth := rfl
  notices := ⟨[], rfl, nofun⟩
  history := ⟨[], rfl, rfl, nofun⟩

theorem trans {size : Nat} {a b c : State} (h : a.Descends size b) (g : b.Descends size c) :
    a.Descends size c where
  limits := g.limits.trans h.limits
  depth := g.depth.trans h.depth
  notices := by
    obtain ⟨new1, h1, n1⟩ := h.notices
    obtain ⟨new2, h2, n2⟩ := g.notices
    refine ⟨new2 ++ new1, by rw [h2, h1, List.append_assoc], fun n hn => ?_⟩
    rcases List.mem_append.mp hn with hn | hn
    · exact n2 n hn
    · exact n1 n hn
  history := by
    obtain ⟨new1, h1, d1, p1⟩ := h.history
    obtain ⟨new2, h2, d2, p2⟩ := g.history
    rw [h.depth] at d2 p2
    refine ⟨new2 ++ new1, by rw [h2, h1, List.append_assoc], ?_, ?_⟩
    · rw [depthAfter_append, d1, d2]
    · intro p hp
      rw [scans_append, d1] at hp
      rcases List.mem_append.mp hp with hp | hp
      · exact p2 p hp
      · exact p1 p hp

/-- One level deeper a text may be as much longer than nothing as it is shorter than the text
above. -/
theorem of_enter {size below : Nat} {s t : State} (hlt : below < size)
    (h : s.enter.Descends below t) : s.Descends size t.leave := by
  have hd : t.depth = s.depth + 1 := h.depth
  have hback : t.depth - 1 = s.depth := by omega
  refine ⟨h.limits, hback, h.notices, ?_⟩
  obtain ⟨new, hnew, -, hscans⟩ := h.history
  refine ⟨_, State.history_leave hnew, hback, fun p hp => ?_⟩
  have hp : p ∈ scans s.depth (new ++ [.depth (s.depth + 1)]) := hp
  rw [scans_append] at hp
  rcases List.mem_append.mp hp with hp | hp
  · have hbound : p.1 + p.2.length ≤ s.depth + 1 + below := hscans p hp
    omega
  · cases hp

end State.Descends

/-- No level is refused, and what is scanned is no longer than there are levels left. -/
theorem kept_descends : Kept .deep State.Descends where
  refl := .refl
  trans := .trans
  note room n hn s := by
    refine ⟨rfl, rfl, ⟨[n], rfl, fun k hk => ?_⟩, ⟨[], rfl, rfl, nofun⟩⟩
    cases List.mem_singleton.mp hk
    cases hn
  pay _ _ := ⟨rfl, rfl, ⟨[], rfl, nofun⟩, ⟨[], rfl, rfl, nofun⟩⟩
  spent room s := by
    unfold State.exhaust
    split
    · exact .refl room s
    · refine ⟨rfl, rfl, ⟨[_], rfl, fun n hn => ?_⟩, ⟨[], rfl, rfl, nofun⟩⟩
      cases List.mem_singleton.mp hn
  reads {room stage text} h s := by
    refine ⟨rfl, rfl, ⟨[], rfl, nofun⟩, ⟨[.reads stage text], rfl, rfl, fun p hp => ?_⟩⟩
    unfold scans at hp
    split at hp
    · rename_i hs
      obtain ⟨_, hle, -⟩ := h hs
      obtain rfl := List.mem_singleton.mp hp
      exact Nat.add_le_add_left hle _
    · cases hp
  refuse h := h.elim
  enter := .of_enter (Nat.lt_succ_self _)

/-- All numbers of levels that are enough for a template come to the same. -/
theorem renderStages_withLimits (filters : Registry) {template : Text} (scope : Scope) {l m : Limits}
    (hl : template.length ≤ l.maxDepth) (hm : template.length ≤ m.maxDepth)
    (hbudget : m.maxSubstitutions = l.maxSubstitutions) :
    renderStages filters template scope { limits := m }
      = resultWithLimits m (renderStages filters template scope { limits := l }) := by
  have halike : Alike .deep True l.maxDepth m.maxDepth
      (renderWithin filters l.maxDepth template scope)
      (renderWithin filters m.maxDepth template scope) :=
    alike_renderWithin (Comparison.deep_lawful filters) rfl ⟨hl, hm⟩
  exact (halike.sameCourse trivial { limits := l } rfl (fun _ _ _ => trivial)
    (.same hbudget fun _ h => h.elim)).1

/-- With just as many levels as the template has characters, the render goes down by no more. -/
theorem renderStages_descends (filters : Registry) (template : Text) (scope : Scope) (l : Limits)
    (hl : template.length ≤ l.maxDepth) :
    ({ limits := l } : State).Descends template.length
      ((renderStages filters template scope).endState { limits := l }) := by
  have halike : Alike .deep True template.length template.length
      (renderWithin filters template.length template scope) _ :=
    alike_renderWithin (Comparison.deep_lawful filters) rfl ⟨Nat.le_refl _, Nat.le_refl _⟩
  let base : Limits := ⟨template.length, l.maxSubstitutions⟩
  have hbase : ({ limits := base } : State).Descends template.length
      ((renderStages filters template scope).endState { limits := base }) :=
    (halike.keeps kept_descends { limits := base } rfl).2
  have hrun : renderStages filters template scope { limits := l }
      = resultWithLimits l (renderStages filters template scope { limits := base }) :=
    renderStages_withLimits filters scope (Nat.le_refl _) hl rfl
  have hstate : (renderStages filters template scope).endState { limits := l }
      = ((renderStages filters template scope).endState { limits := base }).withLimits l :=
    (outcome_withLimits hrun).2
  rw [hstate]
  exact ⟨rfl, hbase.depth, hbase.notices, hbase.history⟩

/-! ## Top theorem -/

/-- **Recursion is bounded by the template alone.**  With at least as many levels as the template
has characters, no level is refused, for wherever a block is found there is one left; what a block
encloses is shorter than the text that it is found in; and with any other such number of levels, and
the same budget, the stages come to the same output or fail for the same reason, with the same
counters and the same notices. -/
theorem renderStages_of_deep_limits (filters : Registry) (template : Text) (scope : Scope)
    (l m : Limits) (hl : template.length ≤ l.maxDepth) (hm : template.length ≤ m.maxDepth)
    (hbudget : m.maxSubstitutions = l.maxSubstitutions) :
    let run := renderStages filters template scope
    let after := run.endState { limits := l }
    let after' := run.endState { limits := m }
    (∀ n, .nestingLimit n ∉ after.log) ∧
      (∀ d t, (d, t) ∈ scans 0 after.history → d + t.length ≤ template.length ∧
        ∀ b ∈ blocks t, d < l.maxDepth ∧
          (b.branches t).1.length < t.length ∧ (b.branches t).2.length < t.length) ∧
      outcome (run { limits := m }) = outcome (run { limits := l }) ∧
      after'.substitutions = after.substitutions ∧ after'.depth = after.depth ∧
      after'.exhausted = after.exhausted ∧ after'.log = after.log := by
  intro run after after'
  have hafter : ({ limits := l } : State).Descends template.length after :=
    renderStages_descends filters template scope l hl
  refine ⟨fun n hn => ?_, fun d t hscan => ?_, ?_⟩
  · obtain ⟨new, hnew, hnone⟩ := hafter.notices
    have hn : .nestingLimit n ∈ after.notices := List.mem_reverse.mp hn
    rw [hnew] at hn
    exact hnone n (by simpa using hn)
  · obtain ⟨new, hnew, -, hscans⟩ := hafter.history
    have hhistory : after.history = new := by simpa using hnew
    rw [hhistory] at hscan
    have hle : d + t.length ≤ 0 + template.length := hscans (d, t) hscan
    refine ⟨by omega, fun b hb => ⟨?_, branches_length_lt hb⟩⟩
    have := (branches_length_lt hb).1
    omega
  · obtain ⟨houtcome, hstate⟩ :=
      outcome_withLimits (renderStages_withLimits filters scope hl hm hbudget)
    have hafter' : after' = after.withLimits m := hstate
    refine ⟨houtcome, ?_⟩
    rw [hafter']
    exact ⟨rfl, rfl, rfl, rfl⟩

/-- A template that ends in the middle, with a budget that does not suffice. -/
theorem renderStages_of_deep_limits_of_unclosed :
    let inner := ifMark "y".toList ++ endifMark
    let template := forMark "x".toList "xs".toList ++ ifMark "x".toList ++ "{{ x }}".toList
      ++ elseMark ++ inner ++ endifMark ++ endforMark ++ '{' :: "% if".toList
    let scope : Scope :=
      [(.text "xs".toList, .sequence .list [.text "p".toList, .null, .text "q".toList])]
    let l : Limits := ⟨100, 3⟩
    let m : Limits := ⟨1000, 3⟩
    let run := renderStages .standard template scope
    let after := run.endState { limits := l }
    let after' := run.endState { limits := m }
    (template.length ≤ l.maxDepth ∧ template.length ≤ m.maxDepth ∧
      m.maxSubstitutions = l.maxSubstitutions ∧ after.exhausted = true ∧
      (2, inner) ∈ scans 0 after.history) ∧
    (∀ n, .nestingLimit n ∉ after.log) ∧
      (∀ d t, (d, t) ∈ scans 0 after.history → d + t.length ≤ template.length ∧
        ∀ b ∈ blocks t, d < l.maxDepth ∧
          (b.branches t).1.length < t.length ∧ (b.branches t).2.length < t.length) ∧
      outcome (run { limits := m }) = outcome (run { limits := l }) ∧
      after'.substitutions = after.substitutions ∧ after'.depth = after.depth ∧
      after'.exhausted = after.exhausted ∧ after'.log = after.log := by
  intro inner template scope l m run after after'
  have hl : template.length ≤ l.maxDepth := by decide
  have hm : template.length ≤ m.maxDepth := by decide
  have hexhausted : after.exhausted = true := by decide +kernel
  have hscan : (2, inner) ∈ scans 0 after.history := by decide +kernel
  exact ⟨⟨hl, hm, rfl, hexhausted, hscan⟩,
    renderStages_of_deep_limits .standard template scope l m hl hm rfl⟩

end Stencil
