import Mathlib.Data.List.Induction
import Stencil.Proofs.Markup.Forest
import Stencil.Proofs.Markup.Pairing

/-!
# What a block encloses

The text between the two tags of a block, scanned by itself, has the tags that the template has
there, and its blocks are those that the scan of the template had completed directly inside the block
when it came to the closing tag (`blocks_of_enclosed`).  If the block has another branch, they are
the blocks of the first branch followed by those of the other one: the tag between the branches does
nothing where no block is open (`treesOf_append_branch`).

    template   ..{% if c %} first {% else %} second {% endif %}..
    enclosed               first {% else %} second

The trees of the template were each made by a tag that closed the innermost open one
(`treesOf_closedBy`); what that open tree had inside it at this moment is what the tags since its
opening tag make by themselves (`OpenTree.Since`).
-/

namespace Stencil

/-! ## Tags -/

theorem InOrder.front {α : Type} {lo hi : Nat} {os ps : List (Occurrence α)} {o : Occurrence α}
    (h : InOrder lo (os ++ o :: ps) hi) : InOrder lo os o.start := by
  induction os generalizing lo with
  | nil => exact h.1
  | cons o' os ih =>
    obtain ⟨hlo, hlt, hrest⟩ := h
    exact ⟨hlo, hlt, ih hrest⟩

/-- The occurrences between two of those found are the ones in the range between the two. -/
theorem InOrder.filter_between {α : Type} {lo hi : Nat} {os mid ps : List (Occurrence α)}
    {o p : Occurrence α} (h : InOrder lo (os ++ o :: (mid ++ p :: ps)) hi) :
    (os ++ o :: (mid ++ p :: ps)).filter (fun q => o.stop ≤ q.start ∧ q.stop ≤ p.start) = mid := by
  have hlt := h.lt_of_mem
  have ho : o.start < o.stop := hlt o (by simp)
  have hp : p.start < p.stop := hlt p (by simp)
  have hos : os.filter (fun q => o.stop ≤ q.start ∧ q.stop ≤ p.start) = [] := by
    apply List.filter_eq_nil_iff.mpr
    intro q hq
    have hbefore := (h.front.bounds_of_mem q hq).2
    have hq := hlt q (by simp [hq])
    simp only [decide_eq_true_eq]
    omega
  have hmid : mid.filter (fun q => o.stop ≤ q.start ∧ q.stop ≤ p.start) = mid := by
    apply List.filter_eq_self.mpr
    intro q hq
    simpa using h.behind.front.bounds_of_mem q hq
  have hps : ps.filter (fun q => o.stop ≤ q.start ∧ q.stop ≤ p.start) = [] := by
    apply List.filter_eq_nil_iff.mpr
    intro q hq
    have hbehind := (h.behind.behind.bounds_of_mem q hq).1
    have hq := hlt q (by simp [hq])
    simp only [decide_eq_true_eq]
    omega
  rw [List.filter_append, hos, List.filter_cons_of_neg (by simp; omega), List.filter_append, hmid,
    List.filter_cons_of_neg (by simp; omega), hps]
  simp

/-- The tags of the text between two tags are the ones of the template in that range. -/
theorem tags_slice_eq_filter {t : Text} {os mid ps : List (Occurrence Tag)} {o p : Occurrence Tag}
    (h : tags t = os ++ o :: (mid ++ p :: ps)) :
    (tags (t.slice o.stop p.start)).map (Occurrence.shift o.stop)
      = (tags t).filter fun q => o.stop ≤ q.start ∧ q.stop ≤ p.start := by
  have horder : InOrder 0 (tags t) t.length := occurrences_inOrder tagAt t
  rw [h] at horder
  rw [tags_slice h, h, horder.filter_between]

/-! ## How a tree has come about -/

/-- Of all trees of a walk, completed or inside an open one, each has a property. -/
def Grove.Each (p : BlockTree → Prop) (g : Grove) : Prop :=
  (∀ tree ∈ g.completed, p tree) ∧ ∀ o ∈ g.opened, ∀ tree ∈ o.trees, p tree

namespace Grove.Each

variable {p : BlockTree → Prop} {g : Grove}

theorem add (h : g.Each p) {tree : BlockTree} (htree : p tree) : (g.add [tree]).Each p := by
  obtain ⟨completed, opened⟩ := g
  cases opened with
  | nil =>
    refine ⟨?_, h.2⟩
    intro tree' htree'
    rcases List.mem_append.mp htree' with htree' | htree'
    · exact h.1 tree' htree'
    · rwa [List.mem_singleton.mp htree']
  | cons o os =>
    refine ⟨h.1, ?_⟩
    intro o' ho' tree' htree'
    rcases List.mem_cons.mp ho' with rfl | ho'
    · rw [OpenTree.trees_inside] at htree'
      rcases List.mem_append.mp htree' with htree' | htree'
      · exact h.2 o List.mem_cons_self tree' htree'
      · rwa [List.mem_singleton.mp htree']
    · exact h.2 o' (List.mem_cons_of_mem o ho') tree' htree'

/-- One tag makes one new tree at most, by closing the innermost open one. -/
theorem take (h : g.Each p) (tag : Occurrence Tag)
    (hclose : ∀ o os, g.opened = o :: os → p (o.close tag)) : (g.take tag).Each p := by
  obtain ⟨completed, opened⟩ := g
  unfold Grove.take
  cases tag.item.name with
  | start kind =>
    refine ⟨h.1, ?_⟩
    intro o ho tree htree
    rcases List.mem_cons.mp ho with rfl | ho
    · cases htree
    · exact h.2 o ho tree htree
  | otherwise =>
    cases opened with
    | nil => exact h
    | cons o os =>
      show Grove.Each p (Grove.branch ⟨completed, o :: os⟩ tag)
      unfold Grove.branch
      dsimp only
      split
      · rename_i haccept
        refine ⟨h.1, ?_⟩
        intro o' ho' tree htree
        rcases List.mem_cons.mp ho' with rfl | ho'
        · rw [OpenTree.trees_branch (Option.isNone_iff_eq_none.mp haccept.2)] at htree
          exact h.2 o List.mem_cons_self tree htree
        · exact h.2 o' (List.mem_cons_of_mem o ho') tree htree
      · exact h
  | finish kind =>
    cases opened with
    | nil => exact h
    | cons o os =>
      show Grove.Each p (Grove.close ⟨completed, o :: os⟩ kind tag)
      unfold Grove.close
      dsimp only
      split
      · apply Grove.Each.add
        · exact ⟨h.1, fun o' ho' => h.2 o' (List.mem_cons_of_mem o ho')⟩
        · exact hclose o os rfl
      · exact h

end Grove.Each

/-- A tag of those found has made the tree, by closing the innermost open one. -/
def BlockTree.ClosedBy (found : List (Occurrence Tag)) (closer : Occurrence Tag)
    (tree : BlockTree) : Prop :=
  ∃ before behind o os, found = before ++ closer :: behind ∧
    (before.foldl Grove.take .empty).opened = o :: os ∧ tree = o.close closer

theorem foldl_take_closedBy (found : List (Occurrence Tag)) :
    (found.foldl Grove.take .empty).Each fun tree => ∃ closer, tree.ClosedBy found closer := by
  induction found using List.reverseRecOn with
  | nil => exact ⟨nofun, nofun⟩
  | append_singleton found tag ih =>
    have hmono (tree : BlockTree) : (∃ closer, tree.ClosedBy found closer) →
        ∃ closer, tree.ClosedBy (found ++ [tag]) closer := by
      rintro ⟨closer, before, behind, o, os, rfl, hopened, rfl⟩
      exact ⟨closer, before, behind ++ [tag], o, os, by simp, hopened, rfl⟩
    rw [List.foldl_append]
    apply Grove.Each.take
    · exact ⟨fun tree htree => hmono tree (ih.1 tree htree),
        fun o ho tree htree => hmono tree (ih.2 o ho tree htree)⟩
    · intro o os hopened
      exact ⟨tag, found, [], o, os, rfl, hopened, rfl⟩

/-- Each tree that tags make was made by one of them. -/
theorem treesOf_closedBy (found : List (Occurrence Tag)) :
    ∀ tree ∈ treesOf found, ∃ closer, tree.ClosedBy found closer := by
  have h := foldl_take_closedBy found
  intro tree htree
  rcases List.mem_append.mp htree with htree | htree
  · exact h.1 tree htree
  · obtain ⟨o, ho, htree⟩ := List.mem_flatMap.mp htree
    exact h.2 o (List.mem_reverse.mp ho) tree htree

/-! ## Branches -/

/-- A walk with more trees in front. -/
def Grove.behind (front : List BlockTree) (g : Grove) : Grove :=
  { g with completed := front ++ g.completed }

theorem Grove.take_behind (front : List BlockTree) (g : Grove) (tag : Occurrence Tag) :
    (g.behind front).take tag = (g.take tag).behind front := by
  obtain ⟨completed, opened⟩ := g
  unfold Grove.take
  cases tag.item.name with
  | start kind => rfl
  | otherwise =>
    cases opened with
    | nil => rfl
    | cons o os =>
      show Grove.branch ⟨front ++ completed, o :: os⟩ tag
        = (Grove.branch ⟨completed, o :: os⟩ tag).behind front
      unfold Grove.branch
      dsimp only
      split <;> rfl
  | finish kind =>
    cases opened with
    | nil => rfl
    | cons o os =>
      show Grove.close ⟨front ++ completed, o :: os⟩ kind tag
        = (Grove.close ⟨completed, o :: os⟩ kind tag).behind front
      unfold Grove.close
      dsimp only
      split
      · cases os with
        | nil => simp [Grove.add, Grove.behind]
        | cons o' os => rfl
      · rfl

theorem Grove.foldl_take_behind (front : List BlockTree) (g : Grove)
    (found : List (Occurrence Tag)) :
    found.foldl Grove.take (g.behind front) = (found.foldl Grove.take g).behind front := by
  induction found generalizing g with
  | nil => rfl
  | cons tag found ih => rw [List.foldl_cons, Grove.take_behind, ih, List.foldl_cons]

/-- A tag for another branch does nothing where no block is open, so that the trees before it and
those behind it are made apart. -/
theorem treesOf_append_branch {before behind : List (Occurrence Tag)} {tag : Occurrence Tag}
    {first : List BlockTree} (hbefore : before.foldl Grove.take .empty = ⟨first, []⟩)
    (hname : tag.item.name = .otherwise) :
    treesOf (before ++ tag :: behind) = treesOf before ++ treesOf behind := by
  have htag : (Grove.mk first []).take tag = Grove.empty.behind first := by
    unfold Grove.take
    rw [hname]
    simp [Grove.branch, Grove.behind, Grove.empty]
  rw [treesOf_of_foldl hbefore]
  unfold treesOf
  rw [List.foldl_append, hbefore, List.foldl_cons, htag, Grove.foldl_take_behind]
  simp [Grove.finish, Grove.behind]

/-! ## Blocks -/

/-- The tag of another branch is one of the template. -/
theorem alternative_of_mem_blocks {template : Text} {b : Block} (hb : b ∈ blocks template)
    {tag : Occurrence Tag} (h : b.alternative = some tag) :
    tag ∈ tags template ∧ tag.item.name = .otherwise := by
  obtain ⟨i, j, -, -, -, hpair, -⟩ := (blocks_shows template b).mp hb
  obtain ⟨-, m, -, -, htag, ⟨⟨tag', htag', hname⟩, -⟩, -⟩ := (hpair.alternative tag).mp h
  rw [htag] at htag'
  cases htag'
  exact ⟨List.mem_of_getElem? htag, hname⟩

/-- The blocks of a part of a template stand in that part. -/
theorem bounds_of_mem_blocks_slice {t : Text} {start stop : Nat} (h : start ≤ stop) :
    ∀ c ∈ (blocks (t.slice start stop)).map (Block.shift start),
      start ≤ c.start ∧ c.stop ≤ stop := by
  intro c hc
  have horder := inOrder_shift (blocks_laid (t.slice start stop)).inOrder start
  obtain ⟨hstart, hstop⟩ := horder.bounds_of_mem c.occurrence (List.mem_map_of_mem hc)
  have hlength : (t.slice start stop).length ≤ stop - start := by
    unfold Text.slice
    rw [List.length_drop, List.length_take]
    omega
  have hstop : c.stop ≤ start + (t.slice start stop).length := hstop
  exact ⟨hstart, by omega⟩

/-- The innermost open tree when the scan of a template comes to the closing tag of a block, with
the tags since the opening tag. -/
structure Block.Open (b : Block) (found : List (Occurrence Tag)) (o : OpenTree)
    (since : List (Occurrence Tag)) : Prop where
  kind : o.kind = b.kind
  opener : o.opener = b.opener
  alternative : o.alternative.map Prod.fst = b.alternative
  grown : o.Since [] since
  found : ∃ front os behind, found = front ++ b.opener :: (since ++ b.closer :: behind) ∧
    ((front ++ b.opener :: since).foldl Grove.take .empty).opened = o :: os

theorem exists_open {template : Text} {b : Block} (hb : b ∈ blocks template) :
    ∃ o since, b.Open (tags template) o since := by
  rw [blocks, ← block_treesOf] at hb
  obtain ⟨tree, htree, rfl⟩ := List.mem_map.mp hb
  obtain ⟨closer, before, behind, o, os, hfound, hopened, rfl⟩ := treesOf_closedBy _ tree htree
  obtain ⟨-, front, since, rfl, hsince⟩ := (Grove.Grown.whole before).opened [] o os hopened
  rw [o.block_close closer]
  refine ⟨o, since, rfl, rfl, rfl, hsince, front, os, behind, ?_, hopened⟩
  rw [hfound]
  simp

namespace Block.Open

variable {template : Text} {b : Block} {o : OpenTree} {since : List (Occurrence Tag)}

/-- What is inside the open tree is what the tags since its opening tag make by themselves. -/
theorem treesOf_since (h : b.Open (tags template) o since) (hb : b ∈ blocks template) :
    treesOf since = o.trees := by
  have hgrown := h.grown
  obtain ⟨kind, opener, alternative, inside⟩ := o
  cases alternative with
  | none => exact treesOf_of_foldl hgrown
  | some alternative =>
    obtain ⟨tag, first⟩ := alternative
    obtain ⟨before, behind, rfl, hbefore, hbehind⟩ := hgrown
    obtain ⟨-, hname⟩ := alternative_of_mem_blocks hb h.alternative.symm
    rw [treesOf_append_branch hbefore hname, treesOf_of_foldl hbefore, treesOf_of_foldl hbehind]
    rfl

/-- The tags since the opening tag are those of the enclosed text. -/
theorem tags_enclosed (h : b.Open (tags template) o since) :
    (tags (template.slice b.bodyStart b.bodyStop)).map (Occurrence.shift b.bodyStart) = since := by
  obtain ⟨front, os, behind, hfound, -⟩ := h.found
  exact tags_slice hfound

/-- With another branch, the tags of the branches make the trees of each by themselves. -/
theorem blocks_branches (h : b.Open (tags template) o since) {tag : Occurrence Tag}
    (halt : b.alternative = some tag) :
    (blocks (b.branches template).1).map (Block.shift b.bodyStart)
        ++ (blocks (b.branches template).2).map (Block.shift tag.stop)
      = o.trees.map BlockTree.block := by
  obtain ⟨front, os, behind, hfound, -⟩ := h.found
  have halternative := h.alternative
  have hgrown := h.grown
  obtain ⟨kind, opener, alternative, inside⟩ := o
  rw [halt] at halternative
  obtain ⟨⟨tag', first⟩, rfl, rfl⟩ := Option.map_eq_some_iff.mp halternative
  obtain ⟨before, rest, rfl, hbefore, hrest⟩ := hgrown
  have hrest : rest.foldl Grove.take .empty = ⟨inside, []⟩ := hrest
  have hbody : (b.branches template).1 = template.slice b.bodyStart tag'.start := by
    unfold Block.branches
    rw [halt]
  have hother : (b.branches template).2 = template.slice tag'.stop b.bodyStop := by
    unfold Block.branches
    rw [halt]
  have hfirst : tags template
      = front ++ b.opener :: (before ++ tag' :: (rest ++ b.closer :: behind)) := by
    rw [hfound]
    simp
  have hsecond : tags template
      = (front ++ b.opener :: before) ++ tag' :: (rest ++ b.closer :: behind) := by
    rw [hfound]
    simp
  have hblocks : (blocks (template.slice b.bodyStart tag'.start)).map (Block.shift b.bodyStart)
      = first.map BlockTree.block := by
    rw [← treesOf_of_foldl hbefore]
    exact blocks_shift (tags_slice hfirst)
  have hrestBlocks : (blocks (template.slice tag'.stop b.bodyStop)).map (Block.shift tag'.stop)
      = inside.map BlockTree.block := by
    rw [← treesOf_of_foldl hrest]
    exact blocks_shift (tags_slice hsecond)
  rw [hbody, hother, hblocks, hrestBlocks, ← List.map_append]
  rfl

end Block.Open

/-- **Nested blocks are found again when what a block encloses is scanned by itself.**  The enclosed
text has the tags that stand there in the template.  Its outermost blocks are those that the scan of
the template had completed directly inside the block, the innermost open one, when it came to the
closing tag.  With another branch, they are the outermost blocks of the two branches, those of the
first before the tag between them and those of the second behind it. -/
theorem blocks_of_enclosed (template : Text) (b : Block) (hb : b ∈ blocks template) :
    let enclosed := template.slice b.bodyStart b.bodyStop
    let inside := (blocks enclosed).map (Block.shift b.bodyStart)
    (tags enclosed).map (Occurrence.shift b.bodyStart)
        = (tags template).filter (fun o => b.bodyStart ≤ o.start ∧ o.stop ≤ b.bodyStop) ∧
      (∃ before behind, tags template = before ++ b.closer :: behind ∧
        (before.foldl Nest.take ⟨[], []⟩).opened.head?
          = some ⟨b.kind, b.opener, b.alternative, inside⟩) ∧
      ∀ tag, b.alternative = some tag →
        inside = (blocks (b.branches template).1).map (Block.shift b.bodyStart)
            ++ (blocks (b.branches template).2).map (Block.shift tag.stop) ∧
          ∀ c ∈ inside, c.stop ≤ tag.start ∨ tag.stop ≤ c.start := by
  intro enclosed inside
  obtain ⟨o, since, h⟩ := exists_open hb
  have hinside : inside = o.trees.map BlockTree.block := by
    rw [← h.treesOf_since hb]
    exact blocks_shift h.tags_enclosed
  refine ⟨?_, ?_, ?_⟩
  · obtain ⟨front, os, behind, hfound, -⟩ := h.found
    exact tags_slice_eq_filter hfound
  · obtain ⟨front, os, behind, hfound, hopened⟩ := h.found
    refine ⟨front ++ b.opener :: since, behind, by rw [hfound]; simp, ?_⟩
    have houtline := Grove.outline_foldl .empty (front ++ b.opener :: since)
    have hwalk : ((front ++ b.opener :: since).foldl Nest.take ⟨[], []⟩).opened
        = (o :: os).map OpenTree.outline := by
      rw [← hopened]
      exact congrArg Nest.opened houtline.symm
    rw [hwalk, hinside, ← h.kind, ← h.opener, ← h.alternative]
    rfl
  · intro tag halt
    rw [hinside]
    have hbranches := h.blocks_branches halt
    refine ⟨hbranches.symm, ?_⟩
    intro c hc
    obtain ⟨h1, h2, h3⟩ := ((blocks_laid template).parts b hb).alternative tag halt
    rw [← hbranches] at hc
    unfold Block.branches at hc
    rw [halt] at hc
    rcases List.mem_append.mp hc with hc | hc
    · left
      exact (bounds_of_mem_blocks_slice h1 c hc).2
    · right
      exact (bounds_of_mem_blocks_slice h3 c hc).1

/-- A loop with a tag for another branch of its own, a closing tag that closes nothing behind the tag
between the branches, and a conditional behind that. -/
theorem blocks_of_enclosed_of_branches :
    let loop : Text := "{% for x in xs %}{% else %}{% endfor %}".toList
    let body : Text := loop ++ "{% else %}{% endfor %}{% if b %}{% endif %}".toList
    let template : Text := "{% if a %}".toList ++ body ++ "{% endif %}".toList
    ∃ b, b ∈ blocks template ∧ (blocks body).length = 2 ∧ b.alternative.isSome = true ∧
      let enclosed := template.slice b.bodyStart b.bodyStop
      let inside := (blocks enclosed).map (Block.shift b.bodyStart)
      (tags enclosed).map (Occurrence.shift b.bodyStart)
          = (tags template).filter (fun o => b.bodyStart ≤ o.start ∧ o.stop ≤ b.bodyStop) ∧
        (∃ before behind, tags template = before ++ b.closer :: behind ∧
          (before.foldl Nest.take ⟨[], []⟩).opened.head?
            = some ⟨b.kind, b.opener, b.alternative, inside⟩) ∧
        ∀ tag, b.alternative = some tag →
          inside = (blocks (b.branches template).1).map (Block.shift b.bodyStart)
              ++ (blocks (b.branches template).2).map (Block.shift tag.stop) ∧
            ∀ c ∈ inside, c.stop ≤ tag.start ∨ tag.stop ≤ c.start := by
  intro loop body template
  have hempty : (blocks template).isEmpty = false := by decide +kernel
  have halternative : ∀ b ∈ blocks template, b.alternative.isSome = true := by decide +kernel
  obtain ⟨b, bs, hblocks⟩ := List.exists_cons_of_ne_nil (List.isEmpty_eq_false_iff.mp hempty)
  have hb : b ∈ blocks template := by
    rw [hblocks]
    exact List.mem_cons_self
  exact ⟨b, hb, by decide +kernel, halternative b hb, blocks_of_enclosed template b hb⟩

end Stencil
