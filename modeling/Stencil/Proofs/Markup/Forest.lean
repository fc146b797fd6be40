import Stencil.Proofs.Markup.Spelling

/-!
# Trees of blocks

One walk over the tags of a template that keeps what is inside a completed block makes a tree of
every block (`treesOf`).  The blocks of the template are the roots of its trees
(`block_treesOf`), and what a tree has below its root is what the tags between those of the root
make by themselves (`treesOf_grown`):

    {% if c %}  first  {% else %}  second  {% endif %}

    trees of the whole:  [node ⟨if, else, endif⟩ (trees of first) (trees of second)]

The walk keeps a statement for each open tree (`OpenTree.Since`): if it had begun at the opening tag,
or at the tag of the other branch if that has come, it would stand where it stands now with the
trees opened further in.
-/

namespace Stencil

/-- A block with the blocks inside it: those of the branch that its opening tag begins, and those of
the other branch. -/
inductive BlockTree where
  | node (block : Block) (body other : List BlockTree)

def BlockTree.block : BlockTree → Block
  | node block _ _ => block

/-- A tree whose block is open: the tag of its other branch if it has come, with the trees before it,
and the trees completed in the present branch. -/
structure OpenTree where
  kind : BlockKind
  opener : Occurrence Tag
  alternative : Option (Occurrence Tag × List BlockTree)
  inside : List BlockTree

namespace OpenTree

/-- All trees inside an open one. -/
def trees (o : OpenTree) : List BlockTree :=
  match o.alternative with
  | none => o.inside
  | some (_, first) => first ++ o.inside

theorem trees_inside (o : OpenTree) (trees : List BlockTree) :
    OpenTree.trees { o with inside := o.inside ++ trees } = o.trees ++ trees := by
  obtain ⟨kind, opener, alternative, inside⟩ := o
  cases alternative with
  | none => rfl
  | some alternative => exact (List.append_assoc _ _ _).symm

theorem trees_branch {o : OpenTree} (h : o.alternative = none) (tag : Occurrence Tag) :
    OpenTree.trees { o with alternative := some (tag, o.inside), inside := [] } = o.trees := by
  obtain ⟨kind, opener, alternative, inside⟩ := o
  cases h
  exact List.append_nil inside

/-- The tree of a block that a tag closes. -/
def close (o : OpenTree) (closer : Occurrence Tag) : BlockTree :=
  match o.alternative with
  | none => .node ⟨o.kind, o.opener, closer, none⟩ o.inside []
  | some (tag, first) => .node ⟨o.kind, o.opener, closer, some tag⟩ first o.inside

end OpenTree

/-- The walk over the tags so far: the trees completed outside all open ones, and the open ones,
innermost first. -/
structure Grove where
  completed : List BlockTree
  opened : List OpenTree

namespace Grove

def empty : Grove := ⟨[], []⟩

/-- Adds trees to the innermost open one, or to the outermost level. -/
def add (g : Grove) (trees : List BlockTree) : Grove :=
  match g.opened with
  | [] => { g with completed := g.completed ++ trees }
  | o :: os => { g with opened := { o with inside := o.inside ++ trees } :: os }

/-- Begins the other branch of a conditional that has none yet. -/
def branch (g : Grove) (tag : Occurrence Tag) : Grove :=
  match g.opened with
  | [] => g
  | o :: os =>
    if o.kind = .conditional ∧ o.alternative.isNone then
      { g with opened := { o with alternative := some (tag, o.inside), inside := [] } :: os }
    else g

/-- Closes the innermost open tree if it is of the kind. -/
def close (g : Grove) (kind : BlockKind) (tag : Occurrence Tag) : Grove :=
  match g.opened with
  | [] => g
  | o :: os => if o.kind = kind then { g with opened := os }.add [o.close tag] else g

/-- The walk after one more tag. -/
def take (g : Grove) (tag : Occurrence Tag) : Grove :=
  match tag.item.name with
  | .start kind => { g with opened := ⟨kind, tag, none, []⟩ :: g.opened }
  | .otherwise => g.branch tag
  | .finish kind => g.close kind tag

/-- The trees once the tags are over.  A block that stays open gives way to the trees inside it. -/
def finish (g : Grove) : List BlockTree :=
  g.completed ++ g.opened.reverse.flatMap OpenTree.trees

end Grove

/-- The trees that tags make. -/
def treesOf (found : List (Occurrence Tag)) : List BlockTree :=
  (found.foldl Grove.take .empty).finish

/-- The trees of a template. -/
def forest (template : Text) : List BlockTree :=
  treesOf (tags template)

/-! ## The roots -/

def OpenTree.outline (o : OpenTree) : OpenBlock :=
  ⟨o.kind, o.opener, o.alternative.map Prod.fst, o.trees.map BlockTree.block⟩

/-- What is left of the walk when only blocks are kept. -/
def Grove.outline (g : Grove) : Nest :=
  ⟨g.completed.map BlockTree.block, g.opened.map OpenTree.outline⟩

theorem OpenTree.block_close (o : OpenTree) (closer : Occurrence Tag) :
    (o.close closer).block = ⟨o.kind, o.opener, closer, o.alternative.map Prod.fst⟩ := by
  obtain ⟨kind, opener, alternative, inside⟩ := o
  cases alternative <;> rfl

namespace Grove

theorem outline_add (g : Grove) (trees : List BlockTree) :
    (g.add trees).outline = g.outline.add (trees.map BlockTree.block) := by
  obtain ⟨completed, opened⟩ := g
  cases opened with
  | nil => simp [add, outline, Nest.add]
  | cons o os =>
    obtain ⟨kind, opener, alternative, inside⟩ := o
    cases alternative <;> simp [add, outline, OpenTree.outline, OpenTree.trees, Nest.add]

theorem outline_branch (g : Grove) (tag : Occurrence Tag) :
    (g.branch tag).outline = g.outline.branch tag := by
  obtain ⟨completed, opened⟩ := g
  cases opened with
  | nil => rfl
  | cons o os =>
    obtain ⟨kind, opener, alternative, inside⟩ := o
    cases alternative with
    | some alternative => simp [branch, outline, OpenTree.outline, Nest.branch]
    | none =>
      by_cases hkind : kind = .conditional
      · simp [branch, outline, OpenTree.outline, OpenTree.trees, Nest.branch, hkind]
      · simp [branch, outline, OpenTree.outline, Nest.branch, hkind]

theorem outline_close (g : Grove) (kind : BlockKind) (tag : Occurrence Tag) :
    (g.close kind tag).outline = g.outline.close kind tag := by
  obtain ⟨completed, opened⟩ := g
  cases opened with
  | nil => rfl
  | cons o os =>
    by_cases hkind : o.kind = kind
    · subst hkind
      have hadd := outline_add ⟨completed, os⟩ [o.close tag]
      rw [List.map_singleton, o.block_close tag] at hadd
      have hclose : close ⟨completed, o :: os⟩ o.kind tag = add ⟨completed, os⟩ [o.close tag] :=
        if_pos rfl
      rw [hclose, hadd]
      exact (if_pos rfl).symm
    · have hclose : close ⟨completed, o :: os⟩ kind tag = ⟨completed, o :: os⟩ := if_neg hkind
      rw [hclose]
      exact (if_neg hkind).symm

theorem outline_take (g : Grove) (tag : Occurrence Tag) :
    (g.take tag).outline = g.outline.take tag := by
  unfold take Nest.take
  cases tag.item.name with
  | start kind => rfl
  | otherwise => exact outline_branch g tag
  | finish kind => exact outline_close g kind tag

theorem outline_foldl (g : Grove) (found : List (Occurrence Tag)) :
    (found.foldl take g).outline = found.foldl Nest.take g.outline := by
  induction found generalizing g with
  | nil => rfl
  | cons tag found ih => rw [List.foldl_cons, ih, outline_take, List.foldl_cons]

theorem block_finish (g : Grove) : g.finish.map BlockTree.block = g.outline.finish := by
  obtain ⟨completed, opened⟩ := g
  simp [finish, outline, Nest.finish, List.map_flatMap, List.flatMap_map, ← List.map_reverse,
    OpenTree.outline]

end Grove

/-- The blocks that tags make are the roots of the trees that they make. -/
theorem block_treesOf (found : List (Occurrence Tag)) :
    (treesOf found).map BlockTree.block = (found.foldl Nest.take ⟨[], []⟩).finish := by
  rw [treesOf, Grove.block_finish, Grove.outline_foldl]
  rfl

/-! ## Moving -/

def Block.shift (n : Nat) (b : Block) : Block :=
  ⟨b.kind, b.opener.shift n, b.closer.shift n, b.alternative.map (Occurrence.shift n)⟩

theorem inOrder_shift {lo hi : Nat} {bs : List Block} (h : InOrder lo (bs.map Block.occurrence) hi)
    (n : Nat) : InOrder (n + lo) ((bs.map (Block.shift n)).map Block.occurrence) (n + hi) := by
  induction bs generalizing lo with
  | nil => exact Nat.add_le_add_left h n
  | cons b bs ih =>
    obtain ⟨hlo, hlt, hrest⟩ := h
    exact ⟨Nat.add_le_add_left hlo n, Nat.add_lt_add_left hlt n, ih hrest⟩

def OpenBlock.shift (n : Nat) (o : OpenBlock) : OpenBlock :=
  ⟨o.kind, o.opener.shift n, o.alternative.map (Occurrence.shift n), o.inside.map (Block.shift n)⟩

def Nest.shift (n : Nat) (nest : Nest) : Nest :=
  ⟨nest.completed.map (Block.shift n), nest.opened.map (OpenBlock.shift n)⟩

namespace Nest

theorem shift_add (n : Nat) (nest : Nest) (bs : List Block) :
    (nest.add bs).shift n = (nest.shift n).add (bs.map (Block.shift n)) := by
  obtain ⟨completed, opened⟩ := nest
  cases opened <;> simp [add, shift, OpenBlock.shift]

theorem shift_branch (n : Nat) (nest : Nest) (tag : Occurrence Tag) :
    (nest.branch tag).shift n = (nest.shift n).branch (tag.shift n) := by
  obtain ⟨completed, opened⟩ := nest
  cases opened with
  | nil => rfl
  | cons o os =>
    by_cases h : o.kind = .conditional ∧ o.alternative.isNone
    · simp [branch, shift, OpenBlock.shift, h.1, Option.isNone_iff_eq_none.mp h.2]
    · have hshift : ¬ ((o.shift n).kind = .conditional ∧ (o.shift n).alternative.isNone) := by
        simpa [OpenBlock.shift] using h
      have hleft : branch ⟨completed, o :: os⟩ tag = ⟨completed, o :: os⟩ := if_neg h
      rw [hleft]
      exact (if_neg hshift).symm

theorem shift_close (n : Nat) (nest : Nest) (kind : BlockKind) (tag : Occurrence Tag) :
    (nest.close kind tag).shift n = (nest.shift n).close kind (tag.shift n) := by
  obtain ⟨completed, opened⟩ := nest
  cases opened with
  | nil => rfl
  | cons o os =>
    by_cases hkind : o.kind = kind
    · have hleft : close ⟨completed, o :: os⟩ kind tag
          = add ⟨completed, os⟩ [⟨kind, o.opener, tag, o.alternative⟩] := if_pos hkind
      rw [hleft, shift_add]
      exact (if_pos hkind).symm
    · have hleft : close ⟨completed, o :: os⟩ kind tag = ⟨completed, o :: os⟩ := if_neg hkind
      rw [hleft]
      exact (if_neg hkind).symm

theorem shift_take (n : Nat) (nest : Nest) (tag : Occurrence Tag) :
    (nest.take tag).shift n = (nest.shift n).take (tag.shift n) := by
  have hitem : (tag.shift n).item = tag.item := rfl
  unfold take
  rw [hitem]
  cases tag.item.name with
  | start kind => rfl
  | otherwise => exact shift_branch n nest tag
  | finish kind => exact shift_close n nest kind tag

theorem shift_foldl (n : Nat) (nest : Nest) (found : List (Occurrence Tag)) :
    (found.foldl take nest).shift n
      = (found.map (Occurrence.shift n)).foldl take (nest.shift n) := by
  induction found generalizing nest with
  | nil => rfl
  | cons tag found ih => rw [List.foldl_cons, ih, shift_take, List.map_cons, List.foldl_cons]

theorem shift_finish (n : Nat) (nest : Nest) :
    nest.finish.map (Block.shift n) = (nest.shift n).finish := by
  obtain ⟨completed, opened⟩ := nest
  simp [finish, shift, List.map_flatMap, List.flatMap_map, ← List.map_reverse, OpenBlock.shift]

end Nest

/-- The blocks of a part of a template are the roots of the trees that its tags make at their places
in the template. -/
theorem blocks_shift {u : Text} {n : Nat} {mid : List (Occurrence Tag)}
    (h : (tags u).map (Occurrence.shift n) = mid) :
    (blocks u).map (Block.shift n) = (treesOf mid).map BlockTree.block := by
  rw [blocks, Nest.shift_finish, Nest.shift_foldl, h, block_treesOf]
  rfl

/-! ## Below the roots -/

/-- A tree is what the tags make of it: its block has two of them, and the tags between these make
what is below. -/
inductive BlockTree.Grown (found : List (Occurrence Tag)) : BlockTree → Prop
  | plain {os mid ps : List (Occurrence Tag)} {b : Block}
      (tags : found = os ++ b.opener :: (mid ++ b.closer :: ps))
      (name : b.opener.item.name = .start b.kind) (alternative : b.alternative = none) :
      Grown found (.node b (treesOf mid) [])
  | either {os first second ps : List (Occurrence Tag)} {b : Block} {tag : Occurrence Tag}
      (tags : found = os ++ b.opener :: (first ++ tag :: (second ++ b.closer :: ps)))
      (name : b.opener.item.name = .start b.kind) (alternative : b.alternative = some tag) :
      Grown found (.node b (treesOf first) (treesOf second))

theorem BlockTree.Grown.append {found : List (Occurrence Tag)} {tree : BlockTree}
    (h : tree.Grown found) (more : List (Occurrence Tag)) : tree.Grown (found ++ more) := by
  cases h with
  | @plain os mid ps b tags name alternative =>
    have htags : found ++ more = os ++ b.opener :: (mid ++ b.closer :: (ps ++ more)) := by
      rw [tags]
      simp
    exact .plain htags name alternative
  | @either os first second ps b tag tags name alternative =>
    have htags : found ++ more
        = os ++ b.opener :: (first ++ tag :: (second ++ b.closer :: (ps ++ more))) := by
      rw [tags]
      simp
    exact .either htags name alternative

theorem BlockTree.Grown.opener_mem {found : List (Occurrence Tag)} {b : Block}
    {body other : List BlockTree} (h : (BlockTree.node b body other).Grown found) :
    b.opener ∈ found ∧ b.opener.item.name = .start b.kind := by
  cases h with
  | plain tags name => exact ⟨by rw [tags]; simp, name⟩
  | either tags name => exact ⟨by rw [tags]; simp, name⟩

/-- What stands between two elements of a list is less than the list. -/
theorem subset_and_length_lt {α : Type} {all front between back : List α} {a b : α}
    (h : all = front ++ a :: (between ++ b :: back)) :
    between ⊆ all ∧ between.length < all.length := by
  subst h
  refine ⟨fun c hc => by simp [hc], ?_⟩
  simp only [List.length_append, List.length_cons]
  omega

/-- What is below a tree comes from fewer tags than the tree. -/
theorem BlockTree.Grown.below {found : List (Occurrence Tag)} {b : Block}
    {body other : List BlockTree} (h : (BlockTree.node b body other).Grown found) :
    ∃ first second, body = treesOf first ∧ other = treesOf second ∧
      (first ⊆ found ∧ first.length < found.length) ∧
      (second ⊆ found ∧ second.length < found.length) := by
  have hpos : 0 < found.length := List.length_pos_of_mem h.opener_mem.1
  cases h with
  | @plain os mid ps b tags name alternative =>
    exact ⟨mid, [], rfl, rfl, subset_and_length_lt tags, List.nil_subset found, hpos⟩
  | @either os first second ps b tag tags name alternative =>
    have hsecond : found = (os ++ b.opener :: first) ++ tag :: (second ++ b.closer :: ps) := by
      rw [tags]
      simp
    exact ⟨first, second, rfl, rfl, subset_and_length_lt tags, subset_and_length_lt hsecond⟩

theorem treesOf_of_foldl {found : List (Occurrence Tag)} {trees : List BlockTree}
    (h : found.foldl Grove.take .empty = ⟨trees, []⟩) : treesOf found = trees := by
  unfold treesOf
  rw [h]
  simp [Grove.finish]

/-- How an open tree and those opened inside it have come about: the tags since its opening tag, or
since the tag of its other branch, make just these by themselves. -/
def OpenTree.Since (o : OpenTree) (up : List OpenTree) (since : List (Occurrence Tag)) : Prop :=
  match o.alternative with
  | none => since.foldl Grove.take .empty = ⟨o.inside, up⟩
  | some (tag, first) => ∃ before behind, since = before ++ tag :: behind ∧
      before.foldl Grove.take .empty = ⟨first, []⟩ ∧
      behind.foldl Grove.take .empty = ⟨o.inside, up⟩

namespace OpenTree.Since

variable {o : OpenTree} {up up' : List OpenTree} {since : List (Occurrence Tag)}
  {tag : Occurrence Tag}

/-- A tag does to an open tree with those inside it what it does to them alone. -/
theorem take {inside : List BlockTree} (h : o.Since up since)
    (htake : (Grove.mk o.inside up).take tag = ⟨inside, up'⟩) :
    OpenTree.Since { o with inside } up' (since ++ [tag]) := by
  obtain ⟨kind, opener, alternative, inside'⟩ := o
  cases alternative with
  | none =>
    show (since ++ [tag]).foldl Grove.take .empty = _
    rw [List.foldl_append, show since.foldl Grove.take .empty = ⟨inside', up⟩ from h]
    exact htake
  | some alternative =>
    obtain ⟨before, behind, hsince, hbefore, hbehind⟩ := h
    refine ⟨before, behind ++ [tag], by rw [hsince]; simp, hbefore, ?_⟩
    rw [List.foldl_append, hbehind]
    exact htake

/-- The other branch begins with no tag since. -/
theorem branch (h : o.Since [] since) (hnone : o.alternative = none) :
    OpenTree.Since { o with alternative := some (tag, o.inside), inside := [] } []
      (since ++ [tag]) := by
  obtain ⟨kind, opener, alternative, inside⟩ := o
  cases hnone
  exact ⟨since, [], rfl, h, rfl⟩

/-- A tree that is closed is what the tags have made of it. -/
theorem close {past front : List (Occurrence Tag)} (h : o.Since [] since)
    (hname : o.opener.item.name = .start o.kind) (hpast : past = front ++ o.opener :: since)
    (closer : Occurrence Tag) : (o.close closer).Grown (past ++ [closer]) := by
  obtain ⟨kind, opener, alternative, inside⟩ := o
  cases alternative with
  | none =>
    have htags : past ++ [closer] = front ++ opener :: (since ++ closer :: []) := by
      rw [hpast]
      simp
    have hinside : treesOf since = inside := treesOf_of_foldl h
    rw [← hinside]
    exact .plain htags hname rfl
  | some alternative =>
    obtain ⟨tag, first⟩ := alternative
    obtain ⟨before, behind, hsince, hbefore, hbehind⟩ := h
    have htags : past ++ [closer]
        = front ++ opener :: (before ++ tag :: (behind ++ closer :: [])) := by
      rw [hpast, hsince]
      simp
    have hfirst : treesOf before = first := treesOf_of_foldl hbefore
    have hinside : treesOf behind = inside := treesOf_of_foldl hbehind
    rw [← hfirst, ← hinside]
    exact .either htags hname rfl

end OpenTree.Since

/-- What the walk keeps: each tree is what the tags so far make of it, and each open tree is what
they have made of it. -/
structure Grove.Grown (past : List (Occurrence Tag)) (g : Grove) : Prop where
  completed : ∀ tree ∈ g.completed, tree.Grown past
  inside : ∀ o ∈ g.opened, ∀ tree ∈ o.trees, tree.Grown past
  opened : ∀ up o os, g.opened = up ++ o :: os → o.opener.item.name = .start o.kind ∧
    ∃ front since, past = front ++ o.opener :: since ∧ o.Since up since

namespace Grove.Grown

variable {past : List (Occurrence Tag)} {g : Grove} {tag : Occurrence Tag}

/-- An open tree stays as it is while the tag changes what is opened inside it. -/
theorem opened_take {up' os : List OpenTree} {o : OpenTree} {inside : List BlockTree}
    (h : g.Grown past) (up : List OpenTree) (hopened : g.opened = up ++ o :: os)
    (htake : (Grove.mk o.inside up).take tag = ⟨inside, up'⟩) :
    o.opener.item.name = .start o.kind ∧ ∃ front since,
      past ++ [tag] = front ++ o.opener :: since ∧
        OpenTree.Since { o with inside } up' since := by
  obtain ⟨hname, front, since, hpast, hsince⟩ := h.opened up o os hopened
  refine ⟨hname, front, since ++ [tag], ?_, hsince.take htake⟩
  rw [hpast]
  simp

/-- A tag that does nothing to the innermost open tree is passed over, whatever of the open ones the
walk has begun with. -/
theorem pass (h : g.Grown past)
    (hidle : ∀ completed opened, (∀ o ∈ opened.head?, o ∈ g.opened.head?) →
      (Grove.mk completed opened).take tag = ⟨completed, opened⟩) : g.Grown (past ++ [tag]) where
  completed tree htree := (h.completed tree htree).append [tag]
  inside o ho tree htree := (h.inside o ho tree htree).append [tag]
  opened := by
    intro up o os hopened
    refine h.opened_take up hopened (hidle o.inside up fun o' ho' => ?_)
    rw [hopened, List.head?_append, ho']
    rfl

theorem start (h : g.Grown past) {kind : BlockKind} (hname : tag.item.name = .start kind) :
    (Grove.mk g.completed (⟨kind, tag, none, []⟩ :: g.opened)).Grown (past ++ [tag]) where
  completed tree htree := (h.completed tree htree).append [tag]
  inside := by
    intro o ho tree htree
    rcases List.mem_cons.mp ho with rfl | ho
    · cases htree
    · exact (h.inside o ho tree htree).append [tag]
  opened := by
    intro up o os hopened
    cases up with
    | nil =>
      obtain ⟨rfl, rfl⟩ := List.cons.inj hopened
      exact ⟨hname, past, [], rfl, rfl⟩
    | cons new up =>
      obtain ⟨rfl, hrest⟩ := List.cons.inj hopened
      have htake : (Grove.mk o.inside up).take tag
          = ⟨o.inside, ⟨kind, tag, none, []⟩ :: up⟩ := by
        unfold Grove.take
        rw [hname]
      exact h.opened_take up hrest htake

theorem branch (h : g.Grown past) (hname : tag.item.name = .otherwise) :
    (g.branch tag).Grown (past ++ [tag]) := by
  have htake (g : Grove) : g.take tag = g.branch tag := by
    unfold Grove.take
    rw [hname]
  obtain ⟨completed, opened⟩ := g
  cases opened with
  | nil =>
    refine h.pass fun completed opened hhead => ?_
    cases opened with
    | nil => exact htake _
    | cons o os => cases hhead o rfl
  | cons x os =>
    unfold Grove.branch
    dsimp only
    split
    · rename_i haccept
      have hnone := Option.isNone_iff_eq_none.mp haccept.2
      refine ⟨fun tree htree => (h.completed tree htree).append [tag], ?_, ?_⟩
      · intro o ho tree htree
        rcases List.mem_cons.mp ho with rfl | ho
        · rw [OpenTree.trees_branch hnone] at htree
          exact (h.inside x List.mem_cons_self tree htree).append [tag]
        · exact (h.inside o (List.mem_cons_of_mem _ ho) tree htree).append [tag]
      · intro up o os' hopened
        cases up with
        | nil =>
          obtain ⟨rfl, rfl⟩ := List.cons.inj hopened
          obtain ⟨hopener, front, since, hpast, hsince⟩ := h.opened [] x os rfl
          exact ⟨hopener, front, since ++ [tag], by rw [hpast]; simp, hsince.branch hnone⟩
        | cons x' up =>
          obtain ⟨rfl, hos⟩ := List.cons.inj hopened
          refine h.opened_take (x :: up) (congrArg (x :: ·) hos) ?_
          rw [htake]
          exact if_pos haccept
    · rename_i hreject
      refine h.pass fun completed opened hhead => ?_
      rw [htake]
      cases opened with
      | nil => rfl
      | cons o os =>
        obtain rfl := Option.some.inj (hhead o rfl)
        exact if_neg hreject

theorem close (h : g.Grown past) {kind : BlockKind} (hname : tag.item.name = .finish kind) :
    (g.close kind tag).Grown (past ++ [tag]) := by
  have htake (g : Grove) : g.take tag = g.close kind tag := by
    unfold Grove.take
    rw [hname]
  obtain ⟨completed, opened⟩ := g
  cases opened with
  | nil =>
    refine h.pass fun completed opened hhead => ?_
    cases opened with
    | nil => exact htake _
    | cons o os => cases hhead o rfl
  | cons x os =>
    unfold Grove.close
    dsimp only
    split
    · rename_i hkind
      obtain ⟨hopener, front, since, hpast, hsince⟩ := h.opened [] x os rfl
      have hx : (x.close tag).Grown (past ++ [tag]) := hsince.close hopener hpast tag
      have hcompleted : ∀ tree ∈ completed, tree.Grown (past ++ [tag]) :=
        fun tree htree => (h.completed tree htree).append [tag]
      have hinside : ∀ o ∈ os, ∀ tree ∈ o.trees, tree.Grown (past ++ [tag]) :=
        fun o ho tree htree => (h.inside o (List.mem_cons_of_mem _ ho) tree htree).append [tag]
      cases os with
      | nil =>
        refine ⟨?_, nofun, fun up o os hopened => ?_⟩
        · intro tree htree
          rcases List.mem_append.mp htree with htree | htree
          · exact hcompleted tree htree
          · rwa [List.mem_singleton.mp htree]
        · cases up <;> cases hopened
      | cons y ys =>
        refine ⟨hcompleted, ?_, ?_⟩
        · intro o ho tree htree
          rcases List.mem_cons.mp ho with rfl | ho
          · rw [OpenTree.trees_inside] at htree
            rcases List.mem_append.mp htree with htree | htree
            · exact hinside y List.mem_cons_self tree htree
            · rwa [List.mem_singleton.mp htree]
          · exact hinside o (List.mem_cons_of_mem _ ho) tree htree
        · intro up o os' hopened
          cases up with
          | nil =>
            obtain ⟨rfl, rfl⟩ := List.cons.inj hopened
            have hclose : (Grove.mk y.inside [x]).take tag = ⟨y.inside ++ [x.close tag], []⟩ := by
              rw [htake]
              exact if_pos hkind
            have hy : (Grove.mk completed (x :: y :: ys)).opened = [x] ++ y :: ys := rfl
            have hnew := h.opened_take [x] hy hclose
            exact hnew
          | cons y' up =>
            obtain ⟨rfl, hys⟩ := List.cons.inj hopened
            refine h.opened_take (x :: y :: up) (congrArg (x :: y :: ·) hys) ?_
            rw [htake]
            exact if_pos hkind
    · rename_i hreject
      refine h.pass fun completed opened hhead => ?_
      rw [htake]
      cases opened with
      | nil => rfl
      | cons o os =>
        obtain rfl := Option.some.inj (hhead o rfl)
        exact if_neg hreject

theorem take (h : g.Grown past) (tag : Occurrence Tag) : (g.take tag).Grown (past ++ [tag]) := by
  unfold Grove.take
  split
  · rename_i hname
    exact h.start hname
  · rename_i hname
    exact h.branch hname
  · rename_i hname
    exact h.close hname

theorem foldl (h : g.Grown past) (found : List (Occurrence Tag)) :
    (found.foldl Grove.take g).Grown (past ++ found) := by
  induction found generalizing g past with
  | nil => rwa [List.append_nil]
  | cons tag found ih =>
    have := ih (h.take tag)
    rwa [List.append_assoc] at this

/-- The walk over all tags. -/
theorem whole (found : List (Occurrence Tag)) : (found.foldl Grove.take .empty).Grown found := by
  have hempty : Grove.empty.Grown [] := by
    refine ⟨nofun, nofun, fun up o os hopened => ?_⟩
    cases up <;> cases hopened
  exact hempty.foldl found

end Grove.Grown

/-- **Blocks are found again when what they enclose is scanned by itself**: below its root every tree
is what the tags between those of the root make. -/
theorem treesOf_grown (found : List (Occurrence Tag)) :
    ∀ tree ∈ treesOf found, tree.Grown found := by
  have h := Grove.Grown.whole found
  intro tree htree
  rcases List.mem_append.mp htree with htree | htree
  · exact h.completed tree htree
  · obtain ⟨o, ho, htree⟩ := List.mem_flatMap.mp htree
    exact h.inside o (List.mem_reverse.mp ho) tree htree

end Stencil
