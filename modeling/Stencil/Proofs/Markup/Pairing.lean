import Stencil.Proofs.Markup.Span

/-!
# Which tags belong together

The pairing of tags, said without a stack.  An opening tag is closed by the first closing tag of its
kind behind it at which every block opened in between has been closed (`Closes`).  The outermost
blocks of a template are those of the pairs that stand strictly inside no other pair, one for each,
in the order of the text (`blocks_eq_outermost_pairs`); the other branch of a conditional begins at
the first tag for it that no block opened inside the conditional still holds back.

The walk over the tags keeps one statement for each open block (`Tracks`): when the walk has come to
index `m`, the open blocks are those whose opening tags no tag before `m` closes, and between two of
them, and behind the last, the completed blocks are the outermost pairs of that stretch.

    Closes found i m ↔ i is the innermost open block at m, and tag m ends its kind
-/

namespace Stencil

/-! ## Pairs -/

section

variable (found : List (Occurrence Tag))

/-- The tag with this index opens a block. -/
def OpensAt (i : Nat) (kind : BlockKind) : Prop :=
  ∃ tag, found[i]? = some tag ∧ tag.item.name = .start kind

/-- The tag with this index closes a block. -/
def EndsAt (j : Nat) (kind : BlockKind) : Prop :=
  ∃ tag, found[j]? = some tag ∧ tag.item.name = .finish kind

/-- The one tag opens a block of a kind and the other closes one of the same kind. -/
def SameKind (i j : Nat) : Prop :=
  ∃ kind, OpensAt found i kind ∧ EndsAt found j kind

mutual

/-- Every block that is opened from index `lo` on and before `m` is closed before `m`. -/
def AllClosed (lo m : Nat) : Prop :=
  ∀ k, lo ≤ k → k < m → (∃ kind, OpensAt found k kind) → ∃ l, ∃ _ : l < m, Closes k l
termination_by 2 * (m - lo)
decreasing_by omega

/-- The opening tag `i` is closed by the tag `j`: the first one behind it that closes its kind and
has only closed blocks between itself and `i`. -/
def Closes (i j : Nat) : Prop :=
  i < j ∧ SameKind found i j ∧ AllClosed (i + 1) j ∧
    ∀ j', i < j' → j' < j → SameKind found i j' → ¬ AllClosed (i + 1) j'
termination_by 2 * (j - i) + 1
decreasing_by all_goals omega

end

/-- A pair that is not strictly inside another one. -/
def Outermost (i j : Nat) : Prop :=
  Closes found i j ∧ ∀ i' j', Closes found i' j' → ¬ (i' < i ∧ j < j')

/-- The tag with this index begins another branch, and every block opened behind tag `i` is closed
by then. -/
def BranchesAt (i m : Nat) : Prop :=
  (∃ tag, found[m]? = some tag ∧ tag.item.name = .otherwise) ∧ AllClosed found (i + 1) m

/-- The tag that begins the other branch of what tag `i` opens, if one does before index `j`. -/
def FirstBranch (i j : Nat) (tag : Occurrence Tag) : Prop :=
  ∃ m, i < m ∧ m < j ∧ found[m]? = some tag ∧ BranchesAt found i m ∧
    ∀ m', i < m' → m' < m → ¬ BranchesAt found i m'

/-- The block of a pair of tags.  Only a conditional has another branch. -/
structure Block.OfPair (i j : Nat) (b : Block) : Prop where
  opener : found[i]? = some b.opener
  kind : b.opener.item.name = .start b.kind
  closer : found[j]? = some b.closer
  alternative : ∀ tag, b.alternative = some tag ↔
    b.kind = .conditional ∧ FirstBranch found i j tag

end

variable {found : List (Occurrence Tag)}

/-! ## Laws of pairs -/

theorem OpensAt.not_endsAt {i : Nat} {kind kind' : BlockKind} (h : OpensAt found i kind) :
    ¬ EndsAt found i kind' := by
  rintro ⟨tag, htag, hname⟩
  obtain ⟨tag', htag', hname'⟩ := h
  rw [htag, Option.some.injEq] at htag'
  subst htag'
  rw [hname] at hname'
  cases hname'

namespace Closes

variable {i j k : Nat}

theorem lt (h : Closes found i j) : i < j := by
  rw [Closes] at h
  exact h.1

theorem sameKind (h : Closes found i j) : SameKind found i j := by
  rw [Closes] at h
  exact h.2.1

theorem allClosed (h : Closes found i j) : AllClosed found (i + 1) j := by
  rw [Closes] at h
  exact h.2.2.1

/-- A tag is closed once at most. -/
theorem unique {j' : Nat} (h : Closes found i j) (h' : Closes found i j') : j = j' := by
  have hfirst {a b : Nat} (ha : Closes found i a) (hb : Closes found i b) : ¬ a < b := by
    intro hlt
    rw [Closes] at hb
    exact hb.2.2.2 a ha.lt hlt ha.sameKind ha.allClosed
  have := hfirst h h'
  have := hfirst h' h
  omega

/-- What is opened inside a pair is closed inside it. -/
theorem inside (h : Closes found i j) (hik : i < k) (hkj : k < j)
    {kind : BlockKind} (hk : OpensAt found k kind) : ∃ l, l < j ∧ Closes found k l := by
  have hall := h.allClosed
  rw [AllClosed] at hall
  obtain ⟨l, hl, hkl⟩ := hall k hik hkj ⟨kind, hk⟩
  exact ⟨l, hl, hkl⟩

theorem opensAt (h : Closes found i j) : ∃ kind, OpensAt found i kind := by
  obtain ⟨kind, hopen, -⟩ := h.sameKind
  exact ⟨kind, hopen⟩

theorem endsAt (h : Closes found i j) : ∃ kind, EndsAt found j kind := by
  obtain ⟨kind, -, hend⟩ := h.sameKind
  exact ⟨kind, hend⟩

/-- The first tag at which a block may be closed closes it. -/
theorem exists_le (hij : i < j) (hkind : SameKind found i j) (hall : AllClosed found (i + 1) j) :
    ∃ l, l ≤ j ∧ Closes found i l := by
  induction j using Nat.strongRecOn with
  | ind j ih =>
    by_cases hearlier : ∃ j', i < j' ∧ j' < j ∧ SameKind found i j' ∧ AllClosed found (i + 1) j'
    · obtain ⟨j', hij', hj', hkind', hall'⟩ := hearlier
      obtain ⟨l, hl, hclose⟩ := ih j' hj' hij' hkind' hall'
      exact ⟨l, by omega, hclose⟩
    · refine ⟨j, Nat.le_refl j, ?_⟩
      rw [Closes]
      refine ⟨hij, hkind, hall, fun j' hij' hj' hkind' hall' => hearlier ?_⟩
      exact ⟨j', hij', hj', hkind', hall'⟩

/-- A tag closes one other tag at most. -/
theorem unique_left (h : Closes found i k) (h' : Closes found j k) : i = j := by
  have hinner {a b : Nat} (ha : Closes found a k) (hb : Closes found b k) : ¬ a < b := by
    intro hlt
    obtain ⟨kind, hopen⟩ := hb.opensAt
    obtain ⟨l, hl, hclose⟩ := ha.inside hlt hb.lt hopen
    have := hclose.unique hb
    omega
  have := hinner h h'
  have := hinner h' h
  omega

/-- A pair stands on one side of a block that is still open when the pair is over. -/
theorem before_or_behind {m : Nat} {kind : BlockKind} (h : Closes found i j) (hj : j < m)
    (hopen : OpensAt found k kind) (hk : ∀ l, l < m → ¬ Closes found k l) : j < k ∨ k < i := by
  rcases Nat.lt_trichotomy k i with hki | rfl | hik
  · exact .inr hki
  · exact absurd h (hk j hj)
  · rcases Nat.lt_trichotomy k j with hkj | rfl | hjk
    · obtain ⟨l, hl, hclose⟩ := h.inside hik hkj hopen
      exact absurd hclose (hk l (by omega))
    · obtain ⟨kind', hend⟩ := h.endsAt
      exact absurd hend hopen.not_endsAt
    · exact .inl hjk

/-- A block that is closed is still open before that. -/
theorem not_closes_of_lt (h : Closes found i j) : ∀ l, l < j → ¬ Closes found i l := by
  intro l hl hclose
  have := h.unique hclose
  omega

end Closes

theorem allClosed_iff {lo m : Nat} : AllClosed found lo m ↔
    ∀ k kind, lo ≤ k → k < m → OpensAt found k kind → ∃ l, l < m ∧ Closes found k l := by
  rw [AllClosed]
  constructor
  · intro h k kind hlo hm hopen
    obtain ⟨l, hl, hclose⟩ := h k hlo hm ⟨kind, hopen⟩
    exact ⟨l, hl, hclose⟩
  · rintro h k hlo hm ⟨kind, hopen⟩
    obtain ⟨l, hl, hclose⟩ := h k kind hlo hm hopen
    exact ⟨l, hl, hclose⟩

/-- A tag that opens nothing may be passed. -/
theorem AllClosed.succ {lo m : Nat} (h : AllClosed found lo m)
    (hm : ∀ kind, ¬ OpensAt found m kind) : AllClosed found lo (m + 1) := by
  rw [allClosed_iff] at h ⊢
  intro k kind hlo hk hopen
  rcases Nat.lt_or_eq_of_le (Nat.le_of_lt_succ hk) with hk | rfl
  · obtain ⟨l, hl, hclose⟩ := h k kind hlo hk hopen
    exact ⟨l, by omega, hclose⟩
  · exact absurd hopen (hm kind)

/-- A block that is closed may be passed as a whole. -/
theorem AllClosed.pair {lo i m : Nat} (h : AllClosed found lo i) (hpair : Closes found i m) :
    AllClosed found lo (m + 1) := by
  rw [allClosed_iff] at h ⊢
  intro k kind hlo hk hopen
  rcases Nat.lt_trichotomy k i with hki | rfl | hik
  · obtain ⟨l, hl, hclose⟩ := h k kind hlo hki hopen
    have := hpair.lt
    exact ⟨l, by omega, hclose⟩
  · exact ⟨m, by omega, hpair⟩
  · rcases Nat.lt_or_eq_of_le (Nat.le_of_lt_succ hk) with hkm | rfl
    · obtain ⟨l, hl, hclose⟩ := hpair.inside hik hkm hopen
      exact ⟨l, by omega, hclose⟩
    · obtain ⟨kind', hend⟩ := hpair.endsAt
      exact absurd hend hopen.not_endsAt

/-! ## The other branch -/

theorem BranchesAt.not_opensAt {i m : Nat} (h : BranchesAt found i m) (kind : BlockKind) :
    ¬ OpensAt found m kind := by
  rintro ⟨tag, htag, hname⟩
  obtain ⟨⟨tag', htag', hname'⟩, -⟩ := h
  rw [htag, Option.some.injEq] at htag'
  subst htag'
  rw [hname] at hname'
  cases hname'

theorem FirstBranch.mono {i j j' : Nat} {tag : Occurrence Tag} (h : FirstBranch found i j tag)
    (hj : j ≤ j') : FirstBranch found i j' tag := by
  obtain ⟨m, him, hmj, hrest⟩ := h
  exact ⟨m, him, by omega, hrest⟩

theorem FirstBranch.unique {i j : Nat} {tag tag' : Occurrence Tag}
    (h : FirstBranch found i j tag) (h' : FirstBranch found i j tag') : tag = tag' := by
  obtain ⟨m, him, -, htag, hm, hfirst⟩ := h
  obtain ⟨m', him', -, htag', hm', hfirst'⟩ := h'
  have hle : ¬ m < m' := fun hlt => hfirst' m him hlt hm
  have hge : ¬ m' < m := fun hlt => hfirst m' him' hlt hm'
  obtain rfl : m = m' := by omega
  rw [htag, Option.some.injEq] at htag'
  exact htag'

/-- Where a branch begins at all, one of the tags is the first. -/
theorem BranchesAt.exists_firstBranch {i j m : Nat} (him : i < m) (hmj : m < j)
    (hm : BranchesAt found i m) : ∃ tag, FirstBranch found i j tag := by
  induction m using Nat.strongRecOn with
  | ind m ih =>
    by_cases hearlier : ∃ m', i < m' ∧ m' < m ∧ BranchesAt found i m'
    · obtain ⟨m', him', hlt, hm'⟩ := hearlier
      exact ih m' hlt him' (by omega) hm'
    · obtain ⟨tag, htag, -⟩ := hm.1
      exact ⟨tag, m, him, hmj, htag, hm, fun m' him' hlt hm' => hearlier ⟨m', him', hlt, hm'⟩⟩

/-- Between two indices where no branch begins, nothing new comes. -/
theorem firstBranch_congr {i j j' : Nat} (hj : j ≤ j')
    (hnone : ∀ m, j ≤ m → m < j' → ¬ BranchesAt found i m) (tag : Occurrence Tag) :
    FirstBranch found i j' tag ↔ FirstBranch found i j tag := by
  constructor
  · rintro ⟨m, him, hmj, htag, hm, hfirst⟩
    by_cases hlt : m < j
    · exact ⟨m, him, hlt, htag, hm, hfirst⟩
    · exact absurd hm (hnone m (by omega) hmj)
  · exact fun h => h.mono hj

theorem Block.OfPair.eq {i j : Nat} {b c : Block} (hb : b.OfPair found i j)
    (hc : c.OfPair found i j) : b = c := by
  obtain ⟨kind, opener, closer, alternative⟩ := b
  obtain ⟨kind', opener', closer', alternative'⟩ := c
  have hopener : opener = opener' := Option.some.inj (hb.opener.symm.trans hc.opener)
  have hcloser : closer = closer' := Option.some.inj (hb.closer.symm.trans hc.closer)
  have hkind : kind = kind' := by
    have h := hb.kind.symm.trans (hopener ▸ hc.kind)
    exact TagName.start.inj h
  subst hopener hcloser hkind
  have halternative : alternative = alternative' :=
    Option.ext fun tag => (hb.alternative tag).trans (hc.alternative tag).symm
  rw [halternative]

/-! ## Outermost pairs of a stretch -/

/-- The blocks are those of the outermost pairs among the tags from `lo` on and before `m`. -/
def Shows (found : List (Occurrence Tag)) (lo m : Nat) (bs : List Block) : Prop :=
  ∀ b, b ∈ bs ↔ ∃ i j, lo ≤ i ∧ j < m ∧ Closes found i j ∧ b.OfPair found i j ∧
    ∀ i' j', lo ≤ i' → j' < m → Closes found i' j' → ¬ (i' < i ∧ j < j')

namespace Shows

variable {lo m : Nat} {bs cs : List Block}

theorem nil (h : m ≤ lo) : Shows found lo m [] := by
  intro b
  constructor
  · intro hb
    cases hb
  · rintro ⟨i, j, hlo, hj, hclose, -⟩
    have := hclose.lt
    omega

/-- A tag that closes nothing changes nothing. -/
theorem succ (h : Shows found lo m bs) (hm : ∀ i, ¬ Closes found i m) :
    Shows found lo (m + 1) bs := by
  have hlt {i j : Nat} (hclose : Closes found i j) (hj : j < m + 1) : j < m := by
    rcases Nat.lt_or_eq_of_le (Nat.le_of_lt_succ hj) with hj | rfl
    · exact hj
    · exact absurd hclose (hm i)
  intro b
  rw [h b]
  constructor
  · rintro ⟨i, j, hlo, hj, hclose, hb, hout⟩
    refine ⟨i, j, hlo, by omega, hclose, hb, fun i' j' hlo' hj' hclose' => ?_⟩
    exact hout i' j' hlo' (hlt hclose' hj') hclose'
  · rintro ⟨i, j, hlo, hj, hclose, hb, hout⟩
    refine ⟨i, j, hlo, hlt hclose hj, hclose, hb, fun i' j' hlo' hj' hclose' => ?_⟩
    exact hout i' j' hlo' (by omega) hclose'

/-- Two stretches with an opening tag between them that is closed in neither. -/
theorem append {i : Nat} {kind : BlockKind} (h : Shows found lo i bs)
    (g : Shows found (i + 1) m cs) (hlo : lo ≤ i) (him : i < m) (hopen : OpensAt found i kind)
    (hi : ∀ l, l < m → ¬ Closes found i l) : Shows found lo m (bs ++ cs) := by
  intro b
  rw [List.mem_append, h b, g b]
  constructor
  · rintro (⟨a, c, ha, hc, hclose, hb, hout⟩ | ⟨a, c, ha, hc, hclose, hb, hout⟩)
    · refine ⟨a, c, ha, by omega, hclose, hb, fun a' c' ha' hc' hclose' hin => ?_⟩
      rcases hclose'.before_or_behind hc' hopen hi with hside | hside
      · exact hout a' c' ha' hside hclose' hin
      · have := hclose.lt
        omega
    · refine ⟨a, c, by omega, hc, hclose, hb, fun a' c' ha' hc' hclose' hin => ?_⟩
      rcases hclose'.before_or_behind hc' hopen hi with hside | hside
      · have := hclose.lt
        omega
      · exact hout a' c' hside hc' hclose' hin
  · rintro ⟨a, c, ha, hc, hclose, hb, hout⟩
    rcases hclose.before_or_behind hc hopen hi with hside | hside
    · refine .inl ⟨a, c, ha, hside, hclose, hb, fun a' c' ha' hc' => ?_⟩
      exact hout a' c' ha' (by omega)
    · refine .inr ⟨a, c, hside, hc, hclose, hb, fun a' c' ha' hc' => ?_⟩
      exact hout a' c' (by omega) hc'

/-- A block that is closed joins those before it, and hides those inside it. -/
theorem pair {i : Nat} {b : Block} (h : Shows found lo i bs) (hlo : lo ≤ i)
    (hpair : Closes found i m) (hb : b.OfPair found i m) :
    Shows found lo (m + 1) (bs ++ [b]) := by
  obtain ⟨kind, hopen⟩ := hpair.opensAt
  have him := hpair.lt
  -- a pair that is over by now is this one, or stands before it or inside it
  have hcases {a c : Nat} (hclose : Closes found a c) (hc : c < m + 1) :
      (a = i ∧ c = m) ∨ c < i ∨ (i < a ∧ c < m) := by
    rcases Nat.lt_or_eq_of_le (Nat.le_of_lt_succ hc) with hc | rfl
    · rcases hclose.before_or_behind hc hopen hpair.not_closes_of_lt with hside | hside
      · exact .inr (.inl hside)
      · exact .inr (.inr ⟨hside, hc⟩)
    · exact .inl ⟨hclose.unique_left hpair, rfl⟩
  intro b'
  rw [List.mem_append, List.mem_singleton, h b']
  constructor
  · rintro (⟨a, c, ha, hc, hclose, hb', hout⟩ | rfl)
    · refine ⟨a, c, ha, by omega, hclose, hb', fun a' c' ha' hc' hclose' hin => ?_⟩
      have := hclose.lt
      rcases hcases hclose' hc' with ⟨rfl, rfl⟩ | hside | hside
      · omega
      · exact hout a' c' ha' hside hclose' hin
      · omega
    · refine ⟨i, m, hlo, by omega, hpair, hb, fun a' c' ha' hc' hclose' hin => ?_⟩
      omega
  · rintro ⟨a, c, ha, hc, hclose, hb', hout⟩
    rcases hcases hclose hc with ⟨rfl, rfl⟩ | hside | hside
    · right
      exact hb'.eq hb
    · refine .inl ⟨a, c, ha, hside, hclose, hb', fun a' c' ha' hc' => ?_⟩
      exact hout a' c' ha' (by omega)
    · exact absurd ⟨hside.1, hside.2⟩ (hout i m hlo (by omega) hpair)

end Shows

/-! ## The walk over the tags -/

/-- An open block whose opening tag has index `i`, when the walk has come to index `m`. -/
structure OpenBlock.Holds (found : List (Occurrence Tag)) (i m : Nat) (o : OpenBlock) : Prop where
  lt : i < m
  opener : found[i]? = some o.opener
  kind : o.opener.item.name = .start o.kind
  opened : ∀ l, l < m → ¬ Closes found i l
  allClosed : AllClosed found (i + 1) m
  inside : Shows found (i + 1) m o.inside
  alternative : ∀ tag, o.alternative = some tag ↔
    o.kind = .conditional ∧ FirstBranch found i m tag

/-- What the walk keeps.  An open block around others is told of only up to where the next one
begins: what has come since is inside that one. -/
def TracksFrom (found : List (Occurrence Tag)) (completed : List Block) :
    (opened : List OpenBlock) → (m : Nat) → Prop
  | [], m => Shows found 0 m completed ∧ AllClosed found 0 m
  | o :: os, m => ∃ i, TracksFrom found completed os i ∧ o.Holds found i m

def Nest.Tracks (found : List (Occurrence Tag)) (n : Nest) (m : Nat) : Prop :=
  TracksFrom found n.completed n.opened m

namespace OpenBlock.Holds

variable {i m : Nat} {o : OpenBlock}

theorem opensAt (h : o.Holds found i m) : OpensAt found i o.kind :=
  ⟨o.opener, h.opener, h.kind⟩

/-- What is open is still open when a block opened behind it is. -/
theorem not_closes {l : Nat} (h : o.Holds found i m) {kind : BlockKind}
    (hopen : OpensAt found m kind) (hm : ∀ l', l' < l → ¬ Closes found m l') :
    ∀ l', l' < l → ¬ Closes found i l' := by
  intro l' hl' hclose
  rcases Nat.lt_trichotomy l' m with hlt | rfl | hlt
  · exact h.opened l' hlt hclose
  · obtain ⟨kind', hend⟩ := hclose.endsAt
    exact hopen.not_endsAt hend
  · obtain ⟨k, hk, hinner⟩ := hclose.inside h.lt hlt hopen
    exact hm k (by omega) hinner

/-- An open block goes on when a tag comes that opens nothing and closes nothing. -/
theorem succ (h : o.Holds found i m) (hopen : ∀ kind, ¬ OpensAt found m kind)
    (hclose : ∀ a, ¬ Closes found a m) {alternative : Option (Occurrence Tag)}
    (halt : ∀ tag, alternative = some tag ↔
      o.kind = .conditional ∧ FirstBranch found i (m + 1) tag) :
    OpenBlock.Holds found i (m + 1) { o with alternative } where
  lt := Nat.lt_succ_of_lt h.lt
  opener := h.opener
  kind := h.kind
  opened := by
    intro l hl
    rcases Nat.lt_or_eq_of_le (Nat.le_of_lt_succ hl) with hl | rfl
    · exact h.opened l hl
    · exact hclose i
  allClosed := h.allClosed.succ hopen
  inside := h.inside.succ hclose
  alternative := halt

/-- The first tag for another branch that comes in an open block. -/
theorem firstBranch {tag : Occurrence Tag} (h : o.Holds found i m) (hm : BranchesAt found i m)
    (htag : found[m]? = some tag) (hnone : ∀ tag', ¬ FirstBranch found i m tag') :
    ∀ tag', FirstBranch found i (m + 1) tag' ↔ tag' = tag := by
  have hfirst : FirstBranch found i (m + 1) tag := by
    refine ⟨m, h.lt, by omega, htag, hm, fun m' him' hm' hbranch => ?_⟩
    obtain ⟨tag', htag'⟩ := hbranch.exists_firstBranch him' hm'
    exact hnone tag' htag'
  intro tag'
  constructor
  · exact fun h' => h'.unique hfirst
  · rintro rfl
    exact hfirst

/-- An open block goes on when one inside it is closed. -/
theorem pair {k : Nat} {b : Block} (h : o.Holds found i k) (hpair : Closes found k m)
    (hb : b.OfPair found k m) :
    OpenBlock.Holds found i (m + 1) { o with inside := o.inside ++ [b] } where
  lt := by
    have := h.lt
    have := hpair.lt
    omega
  opener := h.opener
  kind := h.kind
  opened := by
    obtain ⟨kind, hopen⟩ := hpair.opensAt
    intro l hl
    rcases Nat.lt_or_eq_of_le (Nat.le_of_lt_succ hl) with hl | rfl
    · exact h.not_closes hopen hpair.not_closes_of_lt l hl
    · intro hclose
      have := hclose.unique_left hpair
      have := h.lt
      omega
  allClosed := h.allClosed.pair hpair
  inside := h.inside.pair h.lt hpair hb
  alternative := by
    -- from `k` to `m` the block opened at `k` stands in the way of another branch
    have hnone : ∀ m', k ≤ m' → m' < m + 1 → ¬ BranchesAt found i m' := by
      intro m' hk hm' hbranch
      obtain ⟨kind, hopen⟩ := hpair.opensAt
      rcases Nat.lt_or_eq_of_le hk with hk | rfl
      · obtain ⟨l, hl, hclose⟩ := allClosed_iff.mp hbranch.2 k kind h.lt hk hopen
        have := hclose.unique hpair
        omega
      · exact hbranch.not_opensAt kind hopen
    have := hpair.lt
    intro tag
    rw [firstBranch_congr (by omega) hnone tag]
    exact h.alternative tag

end OpenBlock.Holds

namespace Nest.Tracks

variable {n : Nest} {m : Nat} {tag : Occurrence Tag}

/-- Only the innermost open block can be closed, and only by a tag of its kind. -/
theorem not_closes (h : n.Tracks found m)
    (hkind : ∀ o ∈ n.opened.head?, ¬ EndsAt found m o.kind) : ∀ a, ¬ Closes found a m := by
  intro a hclose
  obtain ⟨kind, hopen⟩ := hclose.opensAt
  obtain ⟨completed, opened⟩ := n
  cases opened with
  | nil =>
    obtain ⟨l, hl, hclose'⟩ := allClosed_iff.mp h.2 a kind (Nat.zero_le a) hclose.lt hopen
    exact hclose.not_closes_of_lt l hl hclose'
  | cons o os =>
    obtain ⟨i, -, ho⟩ := h
    rcases Nat.lt_trichotomy a i with hai | rfl | hia
    · obtain ⟨l, hl, hclose'⟩ := hclose.inside hai ho.lt ho.opensAt
      exact ho.opened l hl hclose'
    · obtain ⟨kind', ⟨tag, htag, hname⟩, hend⟩ := hclose.sameKind
      obtain rfl : tag = o.opener := Option.some.inj (htag.symm.trans ho.opener)
      obtain rfl : kind' = o.kind := TagName.start.inj (hname.symm.trans ho.kind)
      exact hkind o rfl hend
    · obtain ⟨l, hl, hclose'⟩ := allClosed_iff.mp ho.allClosed a kind hia hclose.lt hopen
      exact hclose.not_closes_of_lt l hl hclose'

/-- A tag that begins no branch, opens nothing and closes nothing is passed over. -/
theorem pass (h : n.Tracks found m) (hopen : ∀ kind, ¬ OpensAt found m kind)
    (hclose : ∀ a, ¬ Closes found a m)
    (hbranch : ∀ i, BranchesAt found i m → ∀ o ∈ n.opened.head?,
      o.kind = .conditional → o.alternative ≠ none) : n.Tracks found (m + 1) := by
  obtain ⟨completed, opened⟩ := n
  cases opened with
  | nil => exact ⟨h.1.succ hclose, h.2.succ hopen⟩
  | cons o os =>
    obtain ⟨i, hos, ho⟩ := h
    refine ⟨i, hos, ho.succ hopen hclose fun tag => ?_⟩
    rw [ho.alternative tag]
    refine and_congr_right fun hkind => ⟨fun h => h.mono (Nat.le_succ m), fun h => ?_⟩
    by_cases hm : BranchesAt found i m
    · obtain ⟨first, hfirst⟩ := Option.ne_none_iff_exists'.mp (hbranch i hm o rfl hkind)
      have hfirst := ((ho.alternative first).mp hfirst).2
      rwa [h.unique (hfirst.mono (Nat.le_succ m))]
    · refine (firstBranch_congr (Nat.le_succ m) (fun m' hm' hlt => ?_) tag).mp h
      obtain rfl : m' = m := by omega
      exact hm

theorem start (h : n.Tracks found m) (htag : found[m]? = some tag) {kind : BlockKind}
    (hname : tag.item.name = .start kind) :
    Nest.Tracks found ⟨n.completed, ⟨kind, tag, none, []⟩ :: n.opened⟩ (m + 1) := by
  refine ⟨m, h, Nat.lt_succ_self m, htag, hname, fun l hl hclose => ?_, ?_, ?_, fun tag' => ?_⟩
  · have := hclose.lt
    omega
  · rw [allClosed_iff]
    intro k kind' hk hlt
    omega
  · exact Shows.nil (Nat.le_refl _)
  · constructor
    · exact nofun
    · rintro ⟨-, k, hlt, hk, -⟩
      omega

theorem branch (h : n.Tracks found m) (htag : found[m]? = some tag)
    (hname : tag.item.name = .otherwise) : (n.branch tag).Tracks found (m + 1) := by
  have hopen : ∀ kind, ¬ OpensAt found m kind := by
    rintro kind ⟨tag', htag', hname'⟩
    obtain rfl : tag = tag' := Option.some.inj (htag.symm.trans htag')
    rw [hname] at hname'
    cases hname'
  have hend : ∀ kind, ¬ EndsAt found m kind := by
    rintro kind ⟨tag', htag', hname'⟩
    obtain rfl : tag = tag' := Option.some.inj (htag.symm.trans htag')
    rw [hname] at hname'
    cases hname'
  have hclose := h.not_closes fun o _ => hend o.kind
  obtain ⟨completed, opened⟩ := n
  cases opened with
  | nil => exact h.pass hopen hclose nofun
  | cons o os =>
    unfold Nest.branch
    dsimp only
    split
    · rename_i haccept
      obtain ⟨hkind, hnone⟩ := haccept
      obtain ⟨i, hos, ho⟩ := h
      have hfirst := ho.firstBranch ⟨⟨tag, htag, hname⟩, ho.allClosed⟩ htag fun tag' htag' => by
        rw [(ho.alternative tag').mpr ⟨hkind, htag'⟩] at hnone
        cases hnone
      refine ⟨i, hos, ho.succ hopen hclose fun tag' => ?_⟩
      rw [hfirst tag', Option.some.injEq]
      exact ⟨fun he => ⟨hkind, he.symm⟩, fun he => he.2.symm⟩
    · rename_i hreject
      refine h.pass hopen hclose fun i _ o' ho' hkind hnone => ?_
      obtain rfl : o = o' := Option.some.inj ho'
      exact hreject ⟨hkind, by rw [hnone]; rfl⟩

/-- The innermost open block is closed by a tag of its kind. -/
theorem pop {completed : List Block} {o : OpenBlock} {os : List OpenBlock}
    (h : Nest.Tracks found ⟨completed, o :: os⟩ m) (htag : found[m]? = some tag)
    (hname : tag.item.name = .finish o.kind) :
    (Nest.add ⟨completed, os⟩ [⟨o.kind, o.opener, tag, o.alternative⟩]).Tracks found (m + 1) := by
  obtain ⟨i, hos, ho⟩ := h
  have hpair : Closes found i m := by
    obtain ⟨l, hl, hclose⟩ :=
      Closes.exists_le ho.lt ⟨o.kind, ho.opensAt, ⟨tag, htag, hname⟩⟩ ho.allClosed
    rcases Nat.lt_or_eq_of_le hl with hl | rfl
    · exact absurd hclose (ho.opened l hl)
    · exact hclose
  have hblock : Block.OfPair found i m ⟨o.kind, o.opener, tag, o.alternative⟩ :=
    ⟨ho.opener, ho.kind, htag, ho.alternative⟩
  cases os with
  | nil => exact ⟨hos.1.pair (Nat.zero_le i) hpair hblock, hos.2.pair hpair⟩
  | cons o' os =>
    obtain ⟨i', hos', ho'⟩ := hos
    exact ⟨i', hos', ho'.pair hpair hblock⟩

theorem close (h : n.Tracks found m) (htag : found[m]? = some tag) {kind : BlockKind}
    (hname : tag.item.name = .finish kind) : (n.close kind tag).Tracks found (m + 1) := by
  have hkind {kind' : BlockKind} (hend : EndsAt found m kind') : kind' = kind := by
    obtain ⟨tag', htag', hname'⟩ := hend
    obtain rfl : tag = tag' := Option.some.inj (htag.symm.trans htag')
    exact TagName.finish.inj (hname'.symm.trans hname)
  have hopen : ∀ kind', ¬ OpensAt found m kind' :=
    fun _ hopen => hopen.not_endsAt ⟨tag, htag, hname⟩
  have hbranch : ∀ i, ¬ BranchesAt found i m := by
    rintro i ⟨⟨tag', htag', hname'⟩, -⟩
    obtain rfl : tag = tag' := Option.some.inj (htag.symm.trans htag')
    rw [hname] at hname'
    cases hname'
  obtain ⟨completed, opened⟩ := n
  cases opened with
  | nil => exact h.pass hopen (h.not_closes nofun) fun i hm => absurd hm (hbranch i)
  | cons o os =>
    unfold Nest.close
    dsimp only
    split
    · rename_i heq
      subst heq
      exact h.pop htag hname
    · rename_i hne
      refine h.pass hopen (h.not_closes fun o' ho' hend => ?_) fun i hm => absurd hm (hbranch i)
      obtain rfl : o = o' := Option.some.inj ho'
      exact hne (hkind hend)

theorem take (h : n.Tracks found m) (htag : found[m]? = some tag) :
    (n.take tag).Tracks found (m + 1) := by
  unfold Nest.take
  split
  · rename_i hname
    exact h.start htag hname
  · rename_i hname
    exact h.branch htag hname
  · rename_i hname
    exact h.close htag hname

theorem foldl (past walk : List (Occurrence Tag)) (h : n.Tracks found past.length)
    (hfound : found = past ++ walk) : (walk.foldl Nest.take n).Tracks found found.length := by
  induction walk generalizing n past with
  | nil =>
    rw [List.append_nil] at hfound
    rwa [← hfound] at h
  | cons tag walk ih =>
    have htag : found[past.length]? = some tag := by
      rw [hfound]
      simp
    have hlen : (past ++ [tag]).length = past.length + 1 := by simp
    refine ih (past ++ [tag]) ?_ (by rw [hfound, List.append_assoc]; rfl)
    rw [hlen]
    exact h.take htag

/-- In the end the blocks that are still open give way to those inside them. -/
theorem finish (h : n.Tracks found m) : Shows found 0 m n.finish := by
  obtain ⟨completed, opened⟩ := n
  unfold Nest.finish
  dsimp only
  induction opened generalizing m with
  | nil =>
    rw [List.reverse_nil, List.flatMap_nil, List.append_nil]
    exact h.1
  | cons o os ih =>
    obtain ⟨i, hos, ho⟩ := h
    rw [List.reverse_cons, List.flatMap_append, List.flatMap_singleton, ← List.append_assoc]
    exact (ih hos).append ho.inside (Nat.zero_le i) ho.lt ho.opensAt ho.opened

end Nest.Tracks

/-- The outermost blocks of a template are those of its outermost pairs. -/
theorem blocks_shows (t : Text) : Shows (tags t) 0 (tags t).length (blocks t) := by
  have hstart : Nest.Tracks (tags t) ⟨[], []⟩ ([] : List (Occurrence Tag)).length := by
    refine ⟨Shows.nil (Nat.le_refl 0), ?_⟩
    rw [allClosed_iff]
    intro k kind _ hk
    exact absurd hk (Nat.not_lt_zero k)
  exact (hstart.foldl [] (tags t) rfl).finish

/-- **Blocks are the outermost pairs of tags**, each of them once and in the order of the text.  What
is closed inside a block that never is counts as well, and a tag that closes nothing has no part in
any of them.  The other branch of a block is the one that the first fitting tag begins, and only a
conditional has one. -/
theorem blocks_eq_outermost_pairs (template : Text) :
    (∀ b, b ∈ blocks template ↔
      ∃ i j, Outermost (tags template) i j ∧ b.OfPair (tags template) i j) ∧
    (blocks template).Pairwise fun b c => b.start < c.start := by
  constructor
  · intro b
    rw [blocks_shows template b]
    constructor
    · rintro ⟨i, j, -, -, hclose, hb, hout⟩
      refine ⟨i, j, ⟨hclose, fun i' j' hclose' => ?_⟩, hb⟩
      obtain ⟨kind, tag, htag, -⟩ := hclose'.endsAt
      obtain ⟨hlt, -⟩ := List.getElem?_eq_some_iff.mp htag
      exact hout i' j' (Nat.zero_le i') hlt hclose'
    · rintro ⟨i, j, ⟨hclose, hout⟩, hb⟩
      obtain ⟨hlt, -⟩ := List.getElem?_eq_some_iff.mp hb.closer
      exact ⟨i, j, Nat.zero_le i, hlt, hclose, hb, fun i' j' _ _ => hout i' j'⟩
  · have h := (blocks_laid template).inOrder.pairwise
    rw [List.pairwise_map] at h
    exact h

end Stencil
