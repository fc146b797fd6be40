import Stencil.Markup.Block
import Stencil.Proofs.Template.Reading

/-!
# Blocks of a printed tree

The tags of a printed tree are those that the printing has put there (`Tree.tags_print`).  The walk
over them pairs them as they belong together: whatever is open already, the tags of a tree add its
outermost blocks to it and leave all else as it was (`Tree.foldl_take`).  So the stages of blocks
see the constructs of the tree, and between them chunks that are no block (`Tree.blocks_print`).
-/

namespace Stencil

/-! ## Tags -/

def ifTag (condition : Text) : Chunk Tag :=
  ⟨ifMark condition, some ⟨.start .conditional, condition.strip⟩⟩

def forTag (name path : Text) : Chunk Tag :=
  ⟨forMark name path, some ⟨.start .loop, name ++ " in ".toList ++ path⟩⟩

def elseTag : Chunk Tag :=
  ⟨elseMark, some ⟨.otherwise, []⟩⟩

def endTag : BlockKind → Chunk Tag
  | .conditional => ⟨endifMark, some ⟨.finish .conditional, []⟩⟩
  | .loop => ⟨endforMark, some ⟨.finish .loop, []⟩⟩

/-- The tree for the recogniser of tags. -/
def Tree.tagChunks : Tree → List (Chunk Tag)
  | done => []
  | piece p rest => ⟨p.print, none⟩ :: rest.tagChunks
  | conditional condition body rest =>
    ifTag condition :: (body.tagChunks ++ endTag .conditional :: rest.tagChunks)
  | either condition body other rest =>
    ifTag condition :: (body.tagChunks ++ elseTag ::
      (other.tagChunks ++ endTag .conditional :: rest.tagChunks))
  | loop name path body rest =>
    forTag name path :: (body.tagChunks ++ endTag .loop :: rest.tagChunks)

theorem Tree.join_tagChunks (tree : Tree) : Chunk.join tree.tagChunks = tree.print := by
  induction tree with
  | done => rfl
  | piece p rest ih => simp only [tagChunks, print, Chunk.join_cons, ih]
  | conditional condition body rest ihb ihr =>
    simp only [tagChunks, print, Chunk.join_cons, Chunk.join_append, ihb, ihr, ifTag, endTag,
      List.append_assoc]
  | either condition body other rest ihb iho ihr =>
    simp only [tagChunks, print, Chunk.join_cons, Chunk.join_append, ihb, iho, ihr, ifTag, elseTag,
      endTag, List.append_assoc]
  | loop name path body rest ihb ihr =>
    simp only [tagChunks, print, Chunk.join_cons, Chunk.join_append, ihb, ihr, forTag, endTag,
      List.append_assoc]

theorem readBy_ifTag {condition : Text} (h : ¬ ['%', '}'] <:+: condition) :
    (ifTag condition).ReadBy tagAt :=
  Chunk.readBy_of_eq (List.cons_ne_nil '{' _) (tagAt_if h)

theorem readBy_forTag {name path : Text} (hn : name.isWord = true) (hp : path.isPath = true) :
    (forTag name path).ReadBy tagAt :=
  Chunk.readBy_of_eq (List.cons_ne_nil '{' _) (tagAt_for hn hp)

theorem readBy_elseTag : elseTag.ReadBy tagAt :=
  Chunk.readBy_of_eq (List.cons_ne_nil '{' _) (tagAt_bare .otherwise)

theorem readBy_endTag (kind : BlockKind) : (endTag kind).ReadBy tagAt := by
  cases kind with
  | conditional =>
    exact Chunk.readBy_of_eq (List.cons_ne_nil '{' _) (tagAt_bare (.finish .conditional))
  | loop => exact Chunk.readBy_of_eq (List.cons_ne_nil '{' _) (tagAt_bare (.finish .loop))

theorem Tree.readBy_tagChunks {tree : Tree} (h : tree.WellFormed) :
    ∀ c ∈ tree.tagChunks, c.ReadBy tagAt := by
  induction tree with
  | done => exact fun _ h => by cases h
  | piece p rest ih =>
    exact List.forall_mem_cons.mpr ⟨Piece.passed_tagAt h.1, ih h.2⟩
  | conditional condition body rest ihb ihr =>
    refine List.forall_mem_cons.mpr ⟨readBy_ifTag h.1, List.forall_mem_append.mpr ⟨ihb h.2.1, ?_⟩⟩
    exact List.forall_mem_cons.mpr ⟨readBy_endTag _, ihr h.2.2⟩
  | either condition body other rest ihb iho ihr =>
    refine List.forall_mem_cons.mpr ⟨readBy_ifTag h.1, List.forall_mem_append.mpr ⟨ihb h.2.1, ?_⟩⟩
    refine List.forall_mem_cons.mpr ⟨readBy_elseTag, List.forall_mem_append.mpr ⟨iho h.2.2.1, ?_⟩⟩
    exact List.forall_mem_cons.mpr ⟨readBy_endTag _, ihr h.2.2.2⟩
  | loop name path body rest ihb ihr =>
    refine List.forall_mem_cons.mpr
      ⟨readBy_forTag h.1 h.2.1, List.forall_mem_append.mpr ⟨ihb h.2.2.1, ?_⟩⟩
    exact List.forall_mem_cons.mpr ⟨readBy_endTag _, ihr h.2.2.2⟩

theorem Tree.tags_print {tree : Tree} (h : tree.WellFormed) :
    tags tree.print = Chunk.found 0 tree.tagChunks := by
  rw [← tree.join_tagChunks]
  exact Chunk.occurrences_join (readBy_tagChunks h)

/-! ## Blocks -/

/-- What the stages see of a block: its kind, its argument and its two branches. -/
structure Construct where
  kind : BlockKind
  argument : Text
  body : Text
  other : Text

/-- What is seen of a block of a template, at its place. -/
def Block.seen (template : Text) (b : Block) : Occurrence Construct :=
  ⟨⟨b.kind, b.argument, (b.branches template).1, (b.branches template).2⟩, b.start, b.stop⟩

theorem Block.seen_of_none (template : Text) (kind : BlockKind) (opener closer : Occurrence Tag) :
    Block.seen template ⟨kind, opener, closer, none⟩ = ⟨⟨kind, opener.item.argument,
      Text.slice template opener.stop closer.start, []⟩, opener.start, closer.stop⟩ :=
  rfl

theorem Block.seen_of_some (template : Text) (kind : BlockKind)
    (opener closer alternative : Occurrence Tag) :
    Block.seen template ⟨kind, opener, closer, some alternative⟩ = ⟨⟨kind, opener.item.argument,
      Text.slice template opener.stop alternative.start,
      Text.slice template alternative.stop closer.start⟩, opener.start, closer.stop⟩ :=
  rfl

/-- The tree for the stages of blocks. -/
def Tree.chunks : Tree → List (Chunk Construct)
  | done => []
  | piece p rest => ⟨p.print, none⟩ :: rest.chunks
  | conditional condition body rest =>
    ⟨ifMark condition ++ body.print ++ endifMark,
      some ⟨.conditional, condition.strip, body.print, []⟩⟩ :: rest.chunks
  | either condition body other rest =>
    ⟨ifMark condition ++ body.print ++ elseMark ++ other.print
      ++ endifMark,
      some ⟨.conditional, condition.strip, body.print, other.print⟩⟩ :: rest.chunks
  | loop name path body rest =>
    ⟨forMark name path ++ body.print ++ endforMark,
      some ⟨.loop, name ++ " in ".toList ++ path, body.print, []⟩⟩ :: rest.chunks

theorem Tree.join_chunks (tree : Tree) : Chunk.join tree.chunks = tree.print := by
  induction tree with
  | done => rfl
  | piece p rest ih => simp only [chunks, print, Chunk.join_cons, ih]
  | conditional condition body rest ihb ihr =>
    simp only [chunks, print, Chunk.join_cons, ihr, List.append_assoc]
  | either condition body other rest ihb iho ihr =>
    simp only [chunks, print, Chunk.join_cons, ihr, List.append_assoc]
  | loop name path body rest ihb ihr =>
    simp only [chunks, print, Chunk.join_cons, ihr, List.append_assoc]

/-! ## Pairing -/

theorem slice_append {t front middle back : Text} (h : t = front ++ (middle ++ back)) {i j : Nat}
    (hi : i = front.length) (hj : j = i + middle.length) : Text.slice t i j = middle := by
  have hlen : j = (front ++ middle).length := by
    rw [hj, hi, List.length_append]
  unfold Text.slice
  rw [h, hlen, ← List.append_assoc, List.take_left, hi, List.drop_left]

theorem Nest.add_nil (n : Nest) : n.add [] = n := by
  obtain ⟨completed, opened⟩ := n
  cases opened with
  | nil => simp [add]
  | cons o os => simp [add]

theorem Nest.add_add (n : Nest) (bs cs : List Block) : (n.add bs).add cs = n.add (bs ++ cs) := by
  obtain ⟨completed, opened⟩ := n
  cases opened with
  | nil => simp [add]
  | cons o os => simp [add]

theorem Nest.branch_opened (n : Nest) (o : OpenBlock) (hk : o.kind = .conditional)
    (ha : o.alternative = none) (tag : Occurrence Tag) :
    Nest.branch ⟨n.completed, o :: n.opened⟩ tag
      = ⟨n.completed, { o with alternative := some tag } :: n.opened⟩ :=
  if_pos ⟨hk, by rw [ha]; rfl⟩

theorem Nest.close_opened (n : Nest) (o : OpenBlock) (tag : Occurrence Tag) :
    Nest.close ⟨n.completed, o :: n.opened⟩ o.kind tag
      = n.add [⟨o.kind, o.opener, tag, o.alternative⟩] :=
  if_pos rfl

/-- Wherever the tree stands in the template, the walk over its tags adds its outermost blocks. -/
def Tree.Paired (template : Text) (tree : Tree) : Prop :=
  ∀ (pos : Nat) (front back : Text) (n : Nest), template = front ++ (tree.print ++ back) →
    pos = front.length → ∃ bs, (Chunk.found pos tree.tagChunks).foldl Nest.take n = n.add bs ∧
      bs.map (Block.seen template) = Chunk.found pos tree.chunks

/-- A block without another branch is paired if its body and the rest are. -/
theorem foldl_take_block {template : Text} {body rest : Tree} (hbody : body.Paired template)
    (hrest : rest.Paired template) (kind : BlockKind) (opening argument : Text) {pos : Nat}
    {front back : Text} (n : Nest)
    (ht : template
      = front ++ (opening ++ body.print ++ (endTag kind).text ++ rest.print ++ back))
    (hpos : pos = front.length) :
    ∃ bs, (Chunk.found pos (⟨opening, some ⟨.start kind, argument⟩⟩ ::
        (body.tagChunks ++ endTag kind :: rest.tagChunks))).foldl Nest.take n = n.add bs ∧
      bs.map (Block.seen template)
        = Chunk.found pos (⟨opening ++ body.print ++ (endTag kind).text,
          some ⟨kind, argument, body.print, []⟩⟩ :: rest.chunks) := by
  obtain ⟨closing, hclosing⟩ : ∃ closing, endTag kind = ⟨closing, some ⟨.finish kind, []⟩⟩ := by
    cases kind <;> exact ⟨_, rfl⟩
  rw [hclosing] at ht ⊢
  let opener : Occurrence Tag := ⟨⟨.start kind, argument⟩, pos, pos + opening.length⟩
  let closer : Occurrence Tag := ⟨⟨.finish kind, []⟩, pos + opening.length + body.print.length,
    pos + opening.length + body.print.length + closing.length⟩
  obtain ⟨inside, hinside, -⟩ := hbody (pos + opening.length) (front ++ opening)
    (closing ++ rest.print ++ back) ⟨n.completed, ⟨kind, opener, none, []⟩ :: n.opened⟩
    (by simpa using ht) (by rw [hpos, List.length_append])
  obtain ⟨bs, hbs, hseen⟩ := hrest closer.stop (front ++ opening ++ body.print ++ closing) back
    (n.add [⟨kind, opener, closer, none⟩]) (by simpa using ht) (by
      show pos + opening.length + body.print.length + closing.length = _
      simp only [List.length_append, hpos])
  have hclose : (Nest.add ⟨n.completed, ⟨kind, opener, none, []⟩ :: n.opened⟩ inside).take closer
      = n.add [⟨kind, opener, closer, none⟩] :=
    n.close_opened ⟨kind, opener, none, [] ++ inside⟩ closer
  have hslice : Text.slice template opener.stop closer.start = body.print :=
    slice_append (show template = (front ++ opening) ++ (body.print ++ _) by simpa using ht)
      (by rw [List.length_append, ← hpos]) rfl
  refine ⟨⟨kind, opener, closer, none⟩ :: bs, ?_, ?_⟩
  · rw [Chunk.found, Chunk.found_append, Tree.join_tagChunks, Chunk.found, List.foldl_cons,
      List.foldl_append, List.foldl_cons]
    show (Chunk.found closer.stop rest.tagChunks).foldl Nest.take
      (((Chunk.found (pos + opening.length) body.tagChunks).foldl Nest.take
        ⟨n.completed, ⟨kind, opener, none, []⟩ :: n.opened⟩).take closer) = _
    rw [hinside, hclose, hbs, Nest.add_add]
    rfl
  · have hstop : closer.stop = pos + (opening ++ body.print ++ closing).length := by
      show pos + opening.length + body.print.length + closing.length = _
      simp only [List.length_append, Nat.add_assoc]
    rw [List.map_cons, hseen, Chunk.found, ← hstop, Block.seen_of_none, hslice]

/-- A conditional with another branch is paired if both branches and the rest are. -/
theorem foldl_take_either {template : Text} {body other rest : Tree}
    (hbody : body.Paired template) (hother : other.Paired template) (hrest : rest.Paired template)
    (opening argument : Text) {pos : Nat} {front back : Text} (n : Nest)
    (ht : template = front ++ (opening ++ body.print ++ elseMark ++ other.print ++ endifMark
      ++ rest.print ++ back))
    (hpos : pos = front.length) :
    ∃ bs, (Chunk.found pos (⟨opening, some ⟨.start .conditional, argument⟩⟩ ::
        (body.tagChunks ++ elseTag :: (other.tagChunks ++ endTag .conditional :: rest.tagChunks)))
        ).foldl Nest.take n = n.add bs ∧
      bs.map (Block.seen template)
        = Chunk.found pos (⟨opening ++ body.print ++ elseMark ++ other.print ++ endifMark,
          some ⟨.conditional, argument, body.print, other.print⟩⟩ :: rest.chunks) := by
  let opener : Occurrence Tag := ⟨⟨.start .conditional, argument⟩, pos, pos + opening.length⟩
  let between : Occurrence Tag := ⟨⟨.otherwise, []⟩, pos + opening.length + body.print.length,
    pos + opening.length + body.print.length + elseMark.length⟩
  let closer : Occurrence Tag := ⟨⟨.finish .conditional, []⟩, between.stop + other.print.length,
    between.stop + other.print.length + endifMark.length⟩
  obtain ⟨inside, hinside, -⟩ := hbody (pos + opening.length) (front ++ opening)
    (elseMark ++ other.print ++ endifMark ++ rest.print ++ back)
    ⟨n.completed, ⟨.conditional, opener, none, []⟩ :: n.opened⟩
    (by simpa only [List.append_assoc] using ht) (by rw [hpos, List.length_append])
  obtain ⟨inside', hinside', -⟩ := hother between.stop (front ++ opening ++ body.print ++ elseMark)
    (endifMark ++ rest.print ++ back)
    ⟨n.completed, ⟨.conditional, opener, some between, inside⟩ :: n.opened⟩
    (by simpa only [List.append_assoc] using ht) (by
      show pos + opening.length + body.print.length + elseMark.length = _
      simp only [List.length_append, hpos])
  obtain ⟨bs, hbs, hseen⟩ := hrest closer.stop
    (front ++ opening ++ body.print ++ elseMark ++ other.print ++ endifMark) back
    (n.add [⟨.conditional, opener, closer, some between⟩])
    (by simpa only [List.append_assoc] using ht) (by
      show pos + opening.length + body.print.length + elseMark.length + other.print.length
        + endifMark.length = _
      simp only [List.length_append, hpos])
  have hbranch : (Nest.add ⟨n.completed, ⟨.conditional, opener, none, []⟩ :: n.opened⟩ inside).take
      between = ⟨n.completed, ⟨.conditional, opener, some between, inside⟩ :: n.opened⟩ :=
    n.branch_opened ⟨.conditional, opener, none, [] ++ inside⟩ rfl rfl between
  have hclose : (Nest.add ⟨n.completed, ⟨.conditional, opener, some between, inside⟩ :: n.opened⟩
      inside').take closer = n.add [⟨.conditional, opener, closer, some between⟩] :=
    n.close_opened ⟨.conditional, opener, some between, inside ++ inside'⟩ closer
  have hfirst : Text.slice template opener.stop between.start = body.print :=
    slice_append (show template = (front ++ opening) ++ (body.print ++ _) by
      simpa only [List.append_assoc] using ht) (by rw [List.length_append, ← hpos]) rfl
  have hsecond : Text.slice template between.stop closer.start = other.print :=
    slice_append (show template = (front ++ opening ++ body.print ++ elseMark)
      ++ (other.print ++ _) by simpa only [List.append_assoc] using ht) (by
        show pos + opening.length + body.print.length + elseMark.length = _
        simp only [List.length_append, hpos]) rfl
  refine ⟨⟨.conditional, opener, closer, some between⟩ :: bs, ?_, ?_⟩
  · show ((opener :: Chunk.found (pos + opening.length) (body.tagChunks ++ elseTag ::
      (other.tagChunks ++ endTag .conditional :: rest.tagChunks))).foldl Nest.take n) = _
    rw [Chunk.found_append, Tree.join_tagChunks]
    show ((opener :: (Chunk.found (pos + opening.length) body.tagChunks ++ between ::
      Chunk.found between.stop (other.tagChunks ++ endTag .conditional :: rest.tagChunks))).foldl
        Nest.take n) = _
    rw [Chunk.found_append, Tree.join_tagChunks, List.foldl_cons, List.foldl_append,
      List.foldl_cons, List.foldl_append]
    show (Chunk.found closer.stop rest.tagChunks).foldl Nest.take
      (((Chunk.found between.stop other.tagChunks).foldl Nest.take
        (((Chunk.found (pos + opening.length) body.tagChunks).foldl Nest.take
          ⟨n.completed, ⟨.conditional, opener, none, []⟩ :: n.opened⟩).take between)).take closer)
        = _
    rw [hinside, hbranch, hinside', hclose, hbs, Nest.add_add]
    rfl
  · have hstop : closer.stop
        = pos + (opening ++ body.print ++ elseMark ++ other.print ++ endifMark).length := by
      show pos + opening.length + body.print.length + elseMark.length + other.print.length
        + endifMark.length = _
      simp only [List.length_append, Nat.add_assoc]
    rw [List.map_cons, hseen, Chunk.found, ← hstop, Block.seen_of_some, hfirst, hsecond]

/-- Trees are paired as they are meant to be. -/
theorem Tree.foldl_take (template : Text) (tree : Tree) : tree.Paired template := by
  induction tree with
  | done =>
    intro pos front back n _ _
    exact ⟨[], (Nest.add_nil n).symm, rfl⟩
  | piece p rest ih =>
    intro pos front back n ht hpos
    exact ih (pos + p.print.length) (front ++ p.print) back n
      (by simpa only [print, List.append_assoc] using ht) (by rw [hpos, List.length_append])
  | conditional condition body rest ihb ihr =>
    intro pos front back n ht hpos
    exact foldl_take_block ihb ihr .conditional (ifMark condition) condition.strip n ht hpos
  | either condition body other rest ihb iho ihr =>
    intro pos front back n ht hpos
    exact foldl_take_either ihb iho ihr (ifMark condition) condition.strip n ht hpos
  | loop name path body rest ihb ihr =>
    intro pos front back n ht hpos
    exact foldl_take_block ihb ihr .loop (forMark name path) (name ++ " in ".toList ++ path) n ht
      hpos

/-- **What the stages see of a printed tree**: its outermost blocks, at their places. -/
theorem Tree.blocks_print {tree : Tree} (h : tree.WellFormed) :
    (blocks tree.print).map (Block.seen tree.print) = Chunk.found 0 tree.chunks := by
  obtain ⟨bs, hbs, hseen⟩ := Tree.foldl_take tree.print tree 0 [] [] ⟨[], []⟩
    (by simp) rfl
  have hblocks : blocks tree.print = bs := by
    unfold blocks
    rw [tags_print h, hbs]
    simp [Nest.add, Nest.finish]
  rw [hblocks, hseen]

end Stencil
