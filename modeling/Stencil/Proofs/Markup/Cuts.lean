import Mathlib.Data.List.Basic
import Stencil.Proofs.Markup.Enclosed
import Stencil.Proofs.Markup.Nesting
import Stencil.Proofs.Markup.TagScan

/-!
# Cutting a template at its blocks

The offsets of a block cut a template into pieces that can be put together again (`blocks_cut`):

    start      bodyStart                                        bodyStop       stop
    {% if c %} first          {% else %}          second        {% endif %}
                       tag.start      tag.stop

The tags at both ends are spelled in the template between these offsets, and so is the one between
the branches.  No block begins before the end of the one in front of it.  This holds of the blocks
inside openers that are never closed as well, for the walk over the tags gives them back in the order
of the template (`blocks_laid`).  So the spans of any of the blocks may be replaced one after the
other, and their own texts give the template again.
-/

namespace Stencil

/-- A tag that is found is spelled between its offsets. -/
theorem spelled_of_mem_tags {t : Text} {tag : Occurrence Tag} (h : tag ∈ tags t) :
    Tag.Spelled (t.slice tag.start tag.stop) tag.item := by
  obtain ⟨-, -, hspelled⟩ := (tagAt_takes.leftmost t 0).spells_of_mem tag h
  exact hspelled

/-- A block whose offsets are in order and cut its template at the tags of the block. -/
structure Block.Cuts (b : Block) (t : Text) : Prop where
  start_lt : b.start < b.bodyStart
  body_le : b.bodyStart ≤ b.bodyStop
  stop_lt : b.bodyStop < b.stop
  stop_le : b.stop ≤ t.length
  opener : Tag.Spelled (t.slice b.start b.bodyStart) ⟨.start b.kind, b.argument⟩
  closer : ∃ argument, Tag.Spelled (t.slice b.bodyStop b.stop) ⟨.finish b.kind, argument⟩
  /-- The tag between the branches is within the body, which is made of it and the branches. -/
  alternative : ∀ tag, b.alternative = some tag →
    (b.bodyStart ≤ tag.start ∧ tag.start < tag.stop ∧ tag.stop ≤ b.bodyStop) ∧
    (∃ argument, Tag.Spelled (t.slice tag.start tag.stop) ⟨.otherwise, argument⟩) ∧
    (b.branches t).1 ++ t.slice tag.start tag.stop ++ (b.branches t).2
      = t.slice b.bodyStart b.bodyStop
  single : b.alternative = none → b.branches t = (t.slice b.bodyStart b.bodyStop, [])

/-- The branches with the tag between them are the body. -/
theorem Block.Laid.branches_append {b : Block} (h : b.Laid) (t : Text) {tag : Occurrence Tag}
    (halt : b.alternative = some tag) :
    (b.branches t).1 ++ t.slice tag.start tag.stop ++ (b.branches t).2
      = t.slice b.bodyStart b.bodyStop := by
  obtain ⟨hfirst, hlt, hsecond⟩ := h.alternative tag halt
  unfold Block.branches
  rw [halt]
  dsimp only
  rw [t.slice_append_slice hfirst (Nat.le_of_lt hlt), t.slice_append_slice (by omega) hsecond]

theorem cuts_of_mem_blocks {t : Text} {b : Block} (hb : b ∈ blocks t) : b.Cuts t := by
  have hlaid := (blocks_laid t).parts b hb
  obtain ⟨-, hstop⟩ :=
    (blocks_laid t).inOrder.bounds_of_mem b.occurrence (List.mem_map_of_mem hb)
  have hbuilt := blocks_built t b hb
  refine ⟨hlaid.start_lt, hlaid.body_le, hlaid.stop_lt, hstop, ?_, ?_, ?_, ?_⟩
  · have hspelled := spelled_of_mem_tags hbuilt.opener_mem
    rwa [show b.opener.item = ⟨.start b.kind, b.argument⟩ from
      congrArg (Tag.mk · b.argument) hbuilt.opener_name] at hspelled
  · have hspelled := spelled_of_mem_tags hbuilt.closer_mem
    rw [show b.closer.item = ⟨.finish b.kind, b.closer.item.argument⟩ from
      congrArg (Tag.mk · b.closer.item.argument) hbuilt.closer_name] at hspelled
    exact ⟨_, hspelled⟩
  · intro tag halt
    obtain ⟨hmem, hname⟩ := alternative_of_mem_blocks hb halt
    have hspelled := spelled_of_mem_tags hmem
    rw [show tag.item = ⟨.otherwise, tag.item.argument⟩ from
      congrArg (Tag.mk · tag.item.argument) hname] at hspelled
    exact ⟨hlaid.alternative tag halt, ⟨_, hspelled⟩, hlaid.branches_append t halt⟩
  · intro halt
    unfold Block.branches
    rw [halt]

/-! ## Putting the pieces together -/

/-- The edit that leaves the text between two offsets as it is. -/
def Text.keep {α : Type} (t : Text) (o : Occurrence α) : Edit :=
  ⟨o.start, o.stop, t.slice o.start o.stop⟩

/-- Spans in order may be cut out and put in again. -/
theorem splice_keep {α : Type} {t : Text} {pos hi : Nat} {os : List (Occurrence α)}
    (h : InOrder pos os hi) : splice pos (os.map t.keep) (t.drop pos) = t.drop pos := by
  induction os generalizing pos with
  | nil => rfl
  | cons o os ih =>
    obtain ⟨hpos, hlt, hrest⟩ := h
    calc splice pos (⟨o.start, o.stop, t.slice o.start o.stop⟩ :: os.map t.keep) (t.drop pos)
        = t.slice pos o.start ++ t.slice o.start o.stop
            ++ splice o.stop (os.map t.keep) (t.drop o.stop) :=
          t.splice_cons_drop (by omega) _ _
      _ = t.slice pos o.stop ++ t.drop o.stop := by
          rw [ih hrest, t.slice_append_slice hpos (Nat.le_of_lt hlt)]
      _ = t.drop pos := t.slice_append_drop (by omega)

/-- **The blocks of a template cut it into pieces that make it up again.**  The offsets of each block
are in order and within the template, with the tags of the block between them; each block ends
before the next one begins; and when any of the blocks are cut out and put in again, the template is
as it was. -/
theorem blocks_cut (template : Text) :
    (∀ b ∈ blocks template, b.Cuts template) ∧
      (blocks template).Pairwise (fun b c => b.stop ≤ c.start) ∧
      ∀ chosen : Block → Bool,
        splice 0 (((blocks template).filter chosen).map fun b => template.keep b.occurrence) template
          = template := by
  have horder := (blocks_laid template).inOrder
  refine ⟨fun b hb => cuts_of_mem_blocks hb, ?_, fun chosen => ?_⟩
  · exact List.pairwise_map.mp horder.apart
  · have hchosen := horder.sublist ((List.filter_sublist (p := chosen)).map Block.occurrence)
    have hwhole := splice_keep (t := template) hchosen
    rwa [List.map_map, List.drop_zero] at hwhole

/-- Two blocks inside openers that are never closed, one of them with two branches. -/
theorem blocks_cut_of_unclosed :
    let template : Text := ("{% if a %}{% for x in xs %}{% endfor %}{% for y in ys %}" ++
      "{% if b %}p{% else %}q{% endif %}").toList
    ∃ b c, blocks template = [b, c] ∧ c.alternative.isSome = true ∧
      b.Cuts template ∧ c.Cuts template ∧ b.stop ≤ c.start := by
  intro template
  have hlength : (blocks template).length = 2 := by decide +kernel
  have hlast : ((blocks template).getLast?.bind Block.alternative).isSome = true := by
    decide +kernel
  obtain ⟨b, c, hblocks⟩ := List.length_eq_two.mp hlength
  obtain ⟨hcuts, hapart, -⟩ := blocks_cut template
  rw [hblocks] at hcuts hapart hlast
  exact ⟨b, c, hblocks, hlast, hcuts b (by simp), hcuts c (by simp),
    List.rel_of_pairwise_cons hapart (by simp)⟩

end Stencil
