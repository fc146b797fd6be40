import Stencil.Markup.Block

/-!
# Where blocks stand

What a scan finds in a text stands in order: nothing that is found is empty, and nothing begins
before the end of what was found before it (`occurrences_inOrder`).  So do the outermost blocks of a
template, and within each of them the opening tag, the body, the tag of the other branch and the
closing tag follow one another (`blocks_laid`).

For the blocks this is kept by the walk over the tags.  When it has come to an offset, the blocks
completed so far stand in order, and so do the open ones, outermost first, each followed by the
blocks inside it (`Nest.Reaches`).
-/

namespace Stencil

/-! ## Spans of a text -/

namespace Text

variable (t : Text)

/-- What stands behind an offset is what stands there up to a later one, and the rest. -/
theorem slice_append_drop {start stop : Nat} (h : start ≤ stop) :
    t.slice start stop ++ t.drop stop = t.drop start := by
  have hdrop : (t.drop stop) = (t.drop start).drop (stop - start) := by
    rw [List.drop_drop]
    congr 1
    omega
  unfold slice
  rw [hdrop, List.drop_take]
  exact List.take_append_drop _ _

/-- A span within another one is a part of it. -/
theorem slice_sublist_slice {start stop first last : Nat} (h : first ≤ start) (g : stop ≤ last) :
    (t.slice start stop).Sublist (t.slice first last) := by
  have htake : (t.take stop).Sublist (t.take last) := by
    have := (t.take last).take_sublist stop
    rwa [List.take_take, Nat.min_eq_left g] at this
  have hdrop : ((t.take last).drop start).Sublist ((t.take last).drop first) := by
    have := ((t.take last).drop first).drop_sublist (start - first)
    rw [List.drop_drop] at this
    rwa [show first + (start - first) = start by omega] at this
  exact (htake.drop start).trans hdrop

/-- A span of a span. -/
theorem slice_slice {start stop first last : Nat} (h : start + last ≤ stop) :
    (t.slice start stop).slice first last = t.slice (start + first) (start + last) := by
  unfold slice
  rw [List.take_drop, List.take_take, List.drop_drop, Nat.min_eq_left h]

theorem slice_whole : t.slice 0 t.length = t := by
  unfold slice
  rw [List.take_length, List.drop_zero]

theorem slice_self (start : Nat) : t.slice start start = [] := by
  unfold slice
  exact List.drop_eq_nil_of_le (List.length_take_le _ _)

theorem slice_append_slice {start middle stop : Nat} (h : start ≤ middle) (g : middle ≤ stop) :
    t.slice start middle ++ t.slice middle stop = t.slice start stop := by
  have hfront : t.slice start middle = slice (t.take stop) start middle := by
    unfold slice
    rw [List.take_take, Nat.min_eq_left g]
  rw [hfront]
  exact slice_append_drop (t.take stop) h

theorem length_slice {start stop : Nat} (h : stop ≤ t.length) :
    (t.slice start stop).length = stop - start := by
  unfold slice
  rw [List.length_drop, List.length_take]
  omega

/-- What the first edit of a text makes of it. -/
theorem splice_cons_drop {pos start stop : Nat} (h : pos ≤ stop) (u : Text) (es : List Edit) :
    splice pos (⟨start, stop, u⟩ :: es) (t.drop pos)
      = t.slice pos start ++ u ++ splice stop es (t.drop stop) := by
  have hfront : (t.drop pos).take (start - pos) = t.slice pos start := by
    unfold slice
    rw [List.drop_take]
  have hrest : (t.drop pos).drop (stop - pos) = t.drop stop := by
    rw [List.drop_drop]
    congr 1
    omega
  rw [splice, hfront, hrest]

end Text

/-! ## Occurrences -/

/-- Occurrences between two offsets, one behind the other and none of them empty. -/
def InOrder {α : Type} : (lo : Nat) → List (Occurrence α) → (hi : Nat) → Prop
  | lo, [], hi => lo ≤ hi
  | lo, o :: os, hi => lo ≤ o.start ∧ o.start < o.stop ∧ InOrder o.stop os hi

namespace InOrder

variable {α : Type} {lo mid hi : Nat} {os ps : List (Occurrence α)}

theorem le (h : InOrder lo os hi) : lo ≤ hi := by
  induction os generalizing lo with
  | nil => exact h
  | cons o os ih =>
    obtain ⟨hlo, hlt, hrest⟩ := h
    have := ih hrest
    omega

theorem of_le_left (h : InOrder lo os hi) {lo' : Nat} (hle : lo' ≤ lo) : InOrder lo' os hi := by
  cases os with
  | nil =>
    show lo' ≤ hi
    have : lo ≤ hi := h
    omega
  | cons o os =>
    obtain ⟨hlo, hlt, hrest⟩ := h
    exact ⟨by omega, hlt, hrest⟩

theorem append (h : InOrder lo os mid) (g : InOrder mid ps hi) : InOrder lo (os ++ ps) hi := by
  induction os generalizing lo with
  | nil => exact g.of_le_left h
  | cons o os ih =>
    obtain ⟨hlo, hlt, hrest⟩ := h
    exact ⟨hlo, hlt, ih hrest⟩

theorem of_le_right (h : InOrder lo os hi) {hi' : Nat} (hle : hi ≤ hi') : InOrder lo os hi' := by
  have hnil : InOrder hi ([] : List (Occurrence α)) hi' := hle
  have := h.append hnil
  rwa [List.append_nil] at this

/-- All that is found lies between the two offsets. -/
theorem bounds_of_mem (h : InOrder lo os hi) : ∀ o ∈ os, lo ≤ o.start ∧ o.stop ≤ hi := by
  induction os generalizing lo with
  | nil => exact nofun
  | cons o os ih =>
    obtain ⟨hlo, hlt, hrest⟩ := h
    intro o' ho'
    rcases List.mem_cons.mp ho' with rfl | ho'
    · exact ⟨hlo, hrest.le⟩
    · obtain ⟨h1, h2⟩ := ih hrest o' ho'
      exact ⟨by omega, h2⟩

theorem lt_of_mem (h : InOrder lo os hi) : ∀ o ∈ os, o.start < o.stop := by
  induction os generalizing lo with
  | nil => exact nofun
  | cons o os ih =>
    obtain ⟨-, hlt, hrest⟩ := h
    exact List.forall_mem_cons.mpr ⟨hlt, ih hrest⟩

/-- Occurrences in order begin one behind the other. -/
theorem pairwise (h : InOrder lo os hi) : os.Pairwise fun o p => o.start < p.start := by
  induction os generalizing lo with
  | nil => exact List.Pairwise.nil
  | cons o os ih =>
    obtain ⟨-, hlt, hrest⟩ := h
    refine List.Pairwise.cons (fun p hp => ?_) (ih hrest)
    have := (hrest.bounds_of_mem p hp).1
    omega

/-- None of the occurrences in order begins before the end of one in front of it. -/
theorem apart (h : InOrder lo os hi) : os.Pairwise fun o p => o.stop ≤ p.start := by
  induction os generalizing lo with
  | nil => exact List.Pairwise.nil
  | cons o os ih =>
    obtain ⟨-, -, hrest⟩ := h
    exact List.Pairwise.cons (fun p hp => (hrest.bounds_of_mem p hp).1) (ih hrest)

/-- Some of the occurrences in order are in order too. -/
theorem sublist (h : InOrder lo os hi) (hsub : ps.Sublist os) : InOrder lo ps hi := by
  induction hsub generalizing lo with
  | slnil => exact h
  | cons o _ ih =>
    obtain ⟨hlo, hlt, hrest⟩ := h
    exact (ih hrest).of_le_left (by omega)
  | cons_cons o _ ih =>
    obtain ⟨hlo, hlt, hrest⟩ := h
    exact ⟨hlo, hlt, ih hrest⟩

end InOrder

/-- The skipped characters belong to an occurrence that ends behind them. -/
theorem occurrencesFrom_inOrder {α : Type} (r : Recogniser α) (t : Text) (skip pos : Nat)
    (hskip : skip ≤ t.length) :
    InOrder (pos + skip) (occurrencesFrom r skip pos t) (pos + t.length) := by
  induction t generalizing skip pos with
  | nil =>
    show pos + skip ≤ pos + 0
    exact Nat.add_le_add_left hskip pos
  | cons c t ih =>
    rw [List.length_cons] at hskip ⊢
    cases skip with
    | succ skip =>
      have := ih skip (pos + 1) (by omega)
      rw [show pos + (skip + 1) = pos + 1 + skip by omega,
        show pos + (t.length + 1) = pos + 1 + t.length by omega]
      exact this
    | zero =>
      rw [show pos + (t.length + 1) = pos + 1 + t.length by omega]
      unfold occurrencesFrom
      dsimp only
      split
      · rename_i a rest hr
        have := ih (t.length - rest.length) (pos + 1) (by omega)
        refine ⟨Nat.le_refl _, ?_, this⟩
        show pos < pos + 1 + (t.length - rest.length)
        omega
      · exact (ih 0 (pos + 1) (Nat.zero_le _)).of_le_left (by omega)

/-- What is found in a text stands in order. -/
theorem occurrences_inOrder {α : Type} (r : Recogniser α) (t : Text) :
    InOrder 0 (occurrences r t) t.length := by
  have := occurrencesFrom_inOrder r t 0 0 (Nat.zero_le _)
  rwa [Nat.zero_add, Nat.zero_add] at this

/-! ## Blocks -/

/-- The tag of the other branch, if there is one, stands between two offsets. -/
def AlternativeIn (lo : Nat) (alternative : Option (Occurrence Tag)) (hi : Nat) : Prop :=
  ∀ tag ∈ alternative, lo ≤ tag.start ∧ tag.start < tag.stop ∧ tag.stop ≤ hi

/-- A block whose parts follow one another. -/
structure Block.Laid (b : Block) : Prop where
  start_lt : b.start < b.bodyStart
  body_le : b.bodyStart ≤ b.bodyStop
  stop_lt : b.bodyStop < b.stop
  alternative : AlternativeIn b.bodyStart b.alternative b.bodyStop

/-- Blocks between two offsets, one behind the other, and each with its parts in order. -/
structure Laid (lo : Nat) (bs : List Block) (hi : Nat) : Prop where
  inOrder : InOrder lo (bs.map Block.occurrence) hi
  parts : ∀ b ∈ bs, b.Laid

namespace Laid

variable {lo mid hi : Nat} {bs cs : List Block}

theorem nil (h : lo ≤ hi) : Laid lo [] hi :=
  ⟨h, nofun⟩

theorem singleton {b : Block} (hb : b.Laid) (hlo : lo ≤ b.start) (hhi : b.stop ≤ hi) :
    Laid lo [b] hi := by
  refine ⟨⟨hlo, ?_, hhi⟩, ?_⟩
  · show b.start < b.stop
    have h1 := hb.start_lt
    have h2 := hb.body_le
    have h3 := hb.stop_lt
    omega
  · intro c hc
    rw [List.mem_singleton] at hc
    rwa [hc]

theorem append (h : Laid lo bs mid) (g : Laid mid cs hi) : Laid lo (bs ++ cs) hi := by
  refine ⟨?_, ?_⟩
  · rw [List.map_append]
    exact h.inOrder.append g.inOrder
  · intro b hb
    rcases List.mem_append.mp hb with hb | hb
    · exact h.parts b hb
    · exact g.parts b hb

theorem of_le_right (h : Laid lo bs hi) {hi' : Nat} (hle : hi ≤ hi') : Laid lo bs hi' :=
  ⟨h.inOrder.of_le_right hle, h.parts⟩

end Laid

/-- An open block up to an offset that the walk has come to. -/
structure OpenBlock.Laid (o : OpenBlock) (pos : Nat) : Prop where
  start_lt : o.opener.start < o.opener.stop
  inside : Stencil.Laid o.opener.stop o.inside pos
  alternative : AlternativeIn o.opener.stop o.alternative pos

/-- What the walk keeps: the completed blocks stand in order, and behind them the open ones do,
outermost first, each with the blocks inside it, up to the offset that the walk has come to. -/
def ReachesFrom (completed : List Block) : (opened : List OpenBlock) → (pos : Nat) → Prop
  | [], pos => Laid 0 completed pos
  | o :: os, pos => ReachesFrom completed os o.opener.start ∧ o.Laid pos

def Nest.Reaches (n : Nest) (pos : Nat) : Prop :=
  ReachesFrom n.completed n.opened pos

namespace Nest.Reaches

variable {n : Nest} {pos : Nat}

theorem of_le (h : n.Reaches pos) {pos' : Nat} (hle : pos ≤ pos') : n.Reaches pos' := by
  obtain ⟨completed, opened⟩ := n
  cases opened with
  | nil => exact Laid.of_le_right h hle
  | cons o os =>
    obtain ⟨houter, ho⟩ := h
    refine ⟨houter, ho.start_lt, ho.inside.of_le_right hle, fun tag htag => ?_⟩
    obtain ⟨h1, h2, h3⟩ := ho.alternative tag htag
    exact ⟨h1, h2, by omega⟩

/-- Blocks that follow what is there already may be added. -/
theorem add (h : n.Reaches pos) {bs : List Block} {hi : Nat} (hbs : Laid pos bs hi) :
    (n.add bs).Reaches hi := by
  obtain ⟨completed, opened⟩ := n
  cases opened with
  | nil => exact Laid.append h hbs
  | cons o os =>
    obtain ⟨houter, ho⟩ := h
    refine ⟨houter, ho.start_lt, ho.inside.append hbs, fun tag htag => ?_⟩
    obtain ⟨h1, h2, h3⟩ := ho.alternative tag htag
    exact ⟨h1, h2, Nat.le_trans h3 hbs.inOrder.le⟩

variable {tag : Occurrence Tag}

theorem branch (h : n.Reaches pos) (hpos : pos ≤ tag.start) (htag : tag.start < tag.stop) :
    (n.branch tag).Reaches tag.stop := by
  have hlater : n.Reaches tag.stop := h.of_le (by omega)
  obtain ⟨completed, opened⟩ := n
  cases opened with
  | nil => exact hlater
  | cons o os =>
    unfold Nest.branch
    dsimp only
    split
    · obtain ⟨houter, ho⟩ := hlater
      refine ⟨houter, ho.start_lt, ho.inside, fun tag' htag' => ?_⟩
      cases htag'
      have hbody : o.opener.stop ≤ pos := h.2.inside.inOrder.le
      exact ⟨Nat.le_trans hbody hpos, htag, Nat.le_refl _⟩
    · exact hlater

theorem close (h : n.Reaches pos) (hpos : pos ≤ tag.start) (htag : tag.start < tag.stop)
    (kind : BlockKind) : (n.close kind tag).Reaches tag.stop := by
  have hlater : n.Reaches tag.stop := h.of_le (by omega)
  obtain ⟨completed, opened⟩ := n
  cases opened with
  | nil => exact hlater
  | cons o os =>
    unfold Nest.close
    dsimp only
    split
    · obtain ⟨houter, ho⟩ := h
      have hbody : o.opener.stop ≤ pos := ho.inside.inOrder.le
      have hblock : Block.Laid ⟨kind, o.opener, tag, o.alternative⟩ := by
        refine ⟨ho.start_lt, ?_, htag, fun tag' htag' => ?_⟩
        · show o.opener.stop ≤ tag.start
          omega
        · obtain ⟨h1, h2, h3⟩ := ho.alternative tag' htag'
          exact ⟨h1, h2, Nat.le_trans h3 hpos⟩
      have houter : Nest.Reaches ⟨completed, os⟩ o.opener.start := houter
      exact houter.add (.singleton hblock (Nat.le_refl _) (Nat.le_refl _))
    · exact hlater

theorem take (h : n.Reaches pos) (hpos : pos ≤ tag.start) (htag : tag.start < tag.stop) :
    (n.take tag).Reaches tag.stop := by
  unfold Nest.take
  split
  · have houter : n.Reaches tag.start := h.of_le hpos
    exact ⟨houter, htag, .nil (Nat.le_refl _), nofun⟩
  · exact h.branch hpos htag
  · exact h.close hpos htag _

theorem foldl {walk : List (Occurrence Tag)} {hi : Nat} (h : n.Reaches pos)
    (hwalk : InOrder pos walk hi) : (walk.foldl Nest.take n).Reaches hi := by
  induction walk generalizing n pos with
  | nil => exact h.of_le hwalk
  | cons tag walk ih =>
    obtain ⟨hpos, htag, hrest⟩ := hwalk
    exact ih (h.take hpos htag) hrest

theorem finish (h : n.Reaches pos) : Laid 0 n.finish pos := by
  obtain ⟨completed, opened⟩ := n
  unfold Nest.finish
  dsimp only
  induction opened generalizing pos with
  | nil =>
    rw [List.reverse_nil, List.flatMap_nil, List.append_nil]
    exact h
  | cons o os ih =>
    obtain ⟨houter, ho⟩ := h
    have hlt := ho.start_lt
    rw [List.reverse_cons, List.flatMap_append, List.flatMap_singleton, ← List.append_assoc]
    exact ((ih houter).of_le_right (by omega)).append ho.inside

end Nest.Reaches

/-- **The outermost blocks of a template stand in order**, and so do the parts of each. -/
theorem blocks_laid (t : Text) : Laid 0 (blocks t) t.length := by
  have hstart : Nest.Reaches ⟨[], []⟩ 0 := Laid.nil (Nat.le_refl 0)
  exact (hstart.foldl (occurrences_inOrder tagAt t)).finish

/-- The branches of a block stand between its two tags. -/
theorem Block.Laid.branches_sublist {b : Block} (hb : b.Laid) (t : Text) :
    (b.branches t).1.Sublist (t.slice b.start b.stop) ∧
      (b.branches t).2.Sublist (t.slice b.start b.stop) := by
  have h1 := hb.start_lt
  have h2 := hb.stop_lt
  unfold Block.branches
  cases halt : b.alternative with
  | none => exact ⟨t.slice_sublist_slice (by omega) (by omega), List.nil_sublist _⟩
  | some tag =>
    obtain ⟨h3, h4, h5⟩ := hb.alternative tag halt
    exact ⟨t.slice_sublist_slice (by omega) (by omega),
      t.slice_sublist_slice (by omega) (by omega)⟩

end Stencil
