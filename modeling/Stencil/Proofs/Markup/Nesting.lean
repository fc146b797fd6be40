import Stencil.Markup.Block

/-!
# The pairing of tags

Every block of a template is built from two of its tags, an opening one of the kind of the block
and a closing one of the same kind (`blocks_built`).  The walk over the tags keeps this for the
blocks that it has completed, and for the ones that it holds open as far as they have come
(`Nest.Built`), so that it holds in the end.
-/

namespace Stencil

/-- A block that is made of the tags of a template. -/
structure Block.Built (found : List (Occurrence Tag)) (b : Block) : Prop where
  opener_mem : b.opener ∈ found
  opener_name : b.opener.item.name = .start b.kind
  closer_mem : b.closer ∈ found
  closer_name : b.closer.item.name = .finish b.kind

/-- An open block whose opening tag is one of the template, and so are the tags of the blocks
inside. -/
structure OpenBlock.Built (found : List (Occurrence Tag)) (o : OpenBlock) : Prop where
  opener_mem : o.opener ∈ found
  opener_name : o.opener.item.name = .start o.kind
  inside : ∀ b ∈ o.inside, b.Built found

/-- What the walk keeps. -/
structure Nest.Built (found : List (Occurrence Tag)) (n : Nest) : Prop where
  completed : ∀ b ∈ n.completed, b.Built found
  opened : ∀ o ∈ n.opened, o.Built found

namespace Nest.Built

variable {found : List (Occurrence Tag)} {n : Nest}

theorem add (h : n.Built found) {bs : List Block} (hb : ∀ b ∈ bs, b.Built found) :
    (n.add bs).Built found := by
  obtain ⟨completed, opened⟩ := n
  cases opened with
  | nil =>
    refine ⟨fun b hmem => ?_, h.opened⟩
    rcases List.mem_append.mp hmem with hmem | hmem
    · exact h.completed b hmem
    · exact hb b hmem
  | cons o os =>
    have ho := h.opened o List.mem_cons_self
    refine ⟨h.completed, fun o' hmem => ?_⟩
    rcases List.mem_cons.mp hmem with rfl | hmem
    · refine ⟨ho.opener_mem, ho.opener_name, fun b hmem => ?_⟩
      rcases List.mem_append.mp hmem with hmem | hmem
      · exact ho.inside b hmem
      · exact hb b hmem
    · exact h.opened o' (List.mem_cons_of_mem _ hmem)

theorem branch (h : n.Built found) (tag : Occurrence Tag) : (n.branch tag).Built found := by
  obtain ⟨completed, opened⟩ := n
  cases opened with
  | nil => exact h
  | cons o os =>
    unfold Nest.branch
    dsimp only
    split
    · have ho := h.opened o List.mem_cons_self
      refine ⟨h.completed, fun o' hmem => ?_⟩
      rcases List.mem_cons.mp hmem with rfl | hmem
      · exact ⟨ho.opener_mem, ho.opener_name, ho.inside⟩
      · exact h.opened o' (List.mem_cons_of_mem _ hmem)
    · exact h

theorem close (h : n.Built found) {kind : BlockKind} {tag : Occurrence Tag} (hmem : tag ∈ found)
    (hname : tag.item.name = .finish kind) : (n.close kind tag).Built found := by
  obtain ⟨completed, opened⟩ := n
  cases opened with
  | nil => exact h
  | cons o os =>
    unfold Nest.close
    dsimp only
    split
    · rename_i hkind
      have ho := h.opened o List.mem_cons_self
      have hos : Nest.Built found ⟨completed, os⟩ :=
        ⟨h.completed, fun o' ho' => h.opened o' (List.mem_cons_of_mem _ ho')⟩
      refine hos.add fun b hb => ?_
      rw [List.mem_singleton] at hb
      subst hb
      exact ⟨ho.opener_mem, hkind ▸ ho.opener_name, hmem, hname⟩
    · exact h

theorem take (h : n.Built found) {tag : Occurrence Tag} (hmem : tag ∈ found) :
    (n.take tag).Built found := by
  unfold Nest.take
  split
  · rename_i kind hname
    refine ⟨h.completed, fun o ho => ?_⟩
    rcases List.mem_cons.mp ho with rfl | ho
    · exact ⟨hmem, hname, nofun⟩
    · exact h.opened o ho
  · exact h.branch tag
  · rename_i kind hname
    exact h.close hmem hname

theorem finish (h : n.Built found) : ∀ b ∈ n.finish, b.Built found := by
  intro b hb
  rcases List.mem_append.mp hb with hb | hb
  · exact h.completed b hb
  · obtain ⟨o, ho, hb⟩ := List.mem_flatMap.mp hb
    exact (h.opened o (List.mem_reverse.mp ho)).inside b hb

end Nest.Built

/-- Every block of a template is made of its tags. -/
theorem blocks_built (t : Text) : ∀ b ∈ blocks t, b.Built (tags t) := by
  suffices h : ∀ (walk : List (Occurrence Tag)) (n : Nest), (∀ tag ∈ walk, tag ∈ tags t) →
      n.Built (tags t) → (walk.foldl Nest.take n).Built (tags t) from
    (h (tags t) ⟨[], []⟩ (fun _ => id) ⟨nofun, nofun⟩).finish
  intro walk
  induction walk with
  | nil => exact fun n _ hn => hn
  | cons tag walk ih =>
    intro n hw hn
    exact ih _ (fun o ho => hw o (List.mem_cons_of_mem _ ho)) (hn.take (hw tag List.mem_cons_self))

end Stencil
