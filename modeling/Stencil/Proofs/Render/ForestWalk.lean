import Mathlib.Data.List.Infix
import Stencil.Proofs.Markup.Forest
import Stencil.Proofs.Render.Invariant

/-!
# Conditionals as one walk over the trees of a template

The stage of conditionals keeps no tree: it takes the outermost blocks, and scans a chosen branch
again for those inside it.  What it does is one walk over the trees that a single scan of the
template makes (`conditionalStage_eq_walk`):

    loop         the block as it stands, with all that it encloses
    conditional  the branch that the condition chooses, walked over with its trees one level deeper
    otherwise    the text as it stands

A chosen branch that holds `{%` is dropped where no level is left, and that is what exhausts the
limit.  The branch is a span of the template, and its tags are those of the template there, so that
scanning it gives the trees below the block (`Region.branches`).
-/

namespace Stencil

/-! ## The walk -/

namespace Block

/-- Where the first branch ends. -/
def firstStop (b : Block) : Nat :=
  match b.alternative with
  | none => b.bodyStop
  | some tag => tag.start

/-- Where the other branch begins; without a tag for it, it is empty. -/
def otherStart (b : Block) : Nat :=
  match b.alternative with
  | none => b.bodyStop
  | some tag => tag.stop

end Block

/-- Nothing, in place of what is dropped; or else the text, and whether anything in it is dropped. -/
def orDropped (dropped : Bool) (text : Except Failure (Text × Bool)) : Except Failure (Text × Bool) :=
  if dropped then .ok ([], true) else text

section

variable (template : Text) (scope : Scope) (maxDepth : Nat)

/-- Whether a branch is too deep: it holds what may begin a tag, and no level is left. -/
def tooDeep (depth start stop : Nat) : Bool :=
  ['{', '%'] <:+: template.slice start stop ∧ maxDepth ≤ depth

mutual

/-- The text in place of a tree, and whether a branch in it is dropped. -/
def BlockTree.walk (depth : Nat) : BlockTree → Except Failure (Text × Bool)
  | .node b body other =>
    match b.kind with
    | .loop => return (template.slice b.start b.stop, false)
    | .conditional => do
      if ← (Condition.ofText b.argument).holds scope then
        orDropped (tooDeep template maxDepth depth b.bodyStart b.firstStop)
          (walkTrees (depth + 1) b.bodyStart b.firstStop body)
      else
        orDropped (tooDeep template maxDepth depth b.otherStart b.bodyStop)
          (walkTrees (depth + 1) b.otherStart b.bodyStop other)

/-- The text from one offset up to another, with the trees that stand there walked over. -/
def walkTrees (depth start stop : Nat) : List BlockTree → Except Failure (Text × Bool)
  | [] => return (template.slice start stop, false)
  | tree :: trees => do
    let (text, dropped) ← tree.walk depth
    let (rest, droppedToo) ← walkTrees depth tree.block.stop stop trees
    return (template.slice start tree.block.start ++ text ++ rest, dropped || droppedToo)

end

/-- The walk over a chosen branch, one level deeper if it is not dropped. -/
def walkBranch (depth start stop : Nat) (trees : List BlockTree) : Except Failure (Text × Bool) :=
  orDropped (tooDeep template maxDepth depth start stop)
    (walkTrees template scope maxDepth (depth + 1) start stop trees)

/-- The walk over all trees of the template. -/
def walkForest (depth : Nat) : Except Failure (Text × Bool) :=
  walkTrees template scope maxDepth depth 0 template.length (forest template)

end

section

variable {template : Text} {scope : Scope} {maxDepth depth : Nat} {b : Block}
  {body other : List BlockTree}

theorem walk_loop (h : b.kind = .loop) :
    (BlockTree.node b body other).walk template scope maxDepth depth
      = .ok (template.slice b.start b.stop, false) := by
  rw [BlockTree.walk, h]
  rfl

theorem walk_conditional (h : b.kind = .conditional) :
    (BlockTree.node b body other).walk template scope maxDepth depth
      = (Condition.ofText b.argument).holds scope >>= fun holds =>
        if holds then walkBranch template scope maxDepth depth b.bodyStart b.firstStop body
        else walkBranch template scope maxDepth depth b.otherStart b.bodyStop other := by
  rw [BlockTree.walk, h]
  rfl

theorem walkTrees_cons (start stop : Nat) (tree : BlockTree) (trees : List BlockTree) :
    walkTrees template scope maxDepth depth start stop (tree :: trees) = do
      let (text, dropped) ← tree.walk template scope maxDepth depth
      let (rest, droppedToo) ←
        walkTrees template scope maxDepth depth tree.block.stop stop trees
      return (template.slice start tree.block.start ++ text ++ rest, dropped || droppedToo) := by
  rw [walkTrees]

/-- The text before the first tree may be taken apart. -/
theorem walkTrees_from {start middle stop : Nat} {trees : List BlockTree} (h : start ≤ middle)
    (htrees : InOrder middle (trees.map fun tree => tree.block.occurrence) stop) :
    walkTrees template scope maxDepth depth start stop trees
      = (walkTrees template scope maxDepth depth middle stop trees).map
        fun p => (template.slice start middle ++ p.1, p.2) := by
  cases trees with
  | nil =>
    have hmiddle : middle ≤ stop := htrees
    rw [walkTrees, walkTrees, ← template.slice_append_slice h hmiddle]
    rfl
  | cons tree trees =>
    obtain ⟨hstart, -, -⟩ := htrees
    have hstart : middle ≤ tree.block.start := hstart
    rw [walkTrees_cons, walkTrees_cons, ← template.slice_append_slice h hstart]
    cases tree.walk template scope maxDepth depth with
    | error e => rfl
    | ok p =>
      cases walkTrees template scope maxDepth depth tree.block.stop stop trees with
      | error e => rfl
      | ok q => simp [bind, Except.bind, Except.map, pure, Except.pure]

/-- A loop is walked over like the text around it. -/
theorem walkTrees_loop_cons {start stop : Nat} {trees : List BlockTree} (hkind : b.kind = .loop)
    (hstart : start ≤ b.start) (hlt : b.start < b.stop)
    (htrees : InOrder b.stop (trees.map fun tree => tree.block.occurrence) stop) :
    walkTrees template scope maxDepth depth start stop (.node b body other :: trees)
      = walkTrees template scope maxDepth depth start stop trees := by
  have hle : b.start ≤ b.stop := Nat.le_of_lt hlt
  rw [walkTrees_cons, walk_loop hkind, BlockTree.block,
    walkTrees_from (Nat.le_trans hstart hle) htrees, ← template.slice_append_slice hstart hle]
  cases walkTrees template scope maxDepth depth b.stop stop trees with
  | error e => rfl
  | ok p => simp [bind, Except.bind, Except.map, pure, Except.pure]

end

/-! ## Runs that settle on a result -/

/-- A run has left the counters as they were. -/
structure State.Kept (before after : State) : Prop where
  limits : after.limits = before.limits
  depth : after.depth = before.depth
  substitutions : after.substitutions = before.substitutions

namespace State.Kept

theorem refl (s : State) : s.Kept s := ⟨rfl, rfl, rfl⟩

theorem trans {a b c : State} (h : a.Kept b) (g : b.Kept c) : a.Kept c :=
  ⟨g.limits.trans h.limits, g.depth.trans h.depth, g.substitutions.trans h.substitutions⟩

theorem room {a b : State} (h : a.Kept b) : b.room = a.room := by
  rw [State.room, h.limits, h.depth, State.room]

theorem of_enter {s after : State} (h : s.enter.Kept after) : s.Kept after.leave where
  limits := h.limits
  depth := by
    show after.depth - 1 = s.depth
    rw [h.depth]
    exact Nat.add_sub_cancel s.depth 1
  substitutions := h.substitutions

end State.Kept

namespace Render

variable {α β : Type}

/-- A run from a state ends as expected, with the counters kept.  If it returns, a limit has been
reached if one had been before, or if the expectation says so. -/
def Settles (x : Render α) (s : State) : Except Failure (α × Bool) → Prop
  | .ok (a, dropped) =>
    ∃ after, x s = .ok a after ∧ s.Kept after ∧ after.exhausted = (s.exhausted || dropped)
  | .error e => ∃ after, x s = .error e after ∧ s.Kept after

theorem settles_pure (a : α) (s : State) : Settles (pure a) s (.ok (a, false)) :=
  ⟨s, rfl, .refl s, (Bool.or_false _).symm⟩

theorem settles_bind {x : Render α} {f : α → Render β} {s : State}
    {r : Except Failure (α × Bool)} {q : α → Except Failure (β × Bool)} (hx : Settles x s r)
    (hf : ∀ a after, s.Kept after → Settles (f a) after (q a)) :
    Settles (x >>= f) s (do
      let (a, dropped) ← r
      let (b, droppedToo) ← q a
      return (b, dropped || droppedToo)) := by
  cases r with
  | error e =>
    obtain ⟨after, hrun, hkept⟩ := hx
    exact ⟨after, bind_of_error hrun, hkept⟩
  | ok p =>
    obtain ⟨a, dropped⟩ := p
    obtain ⟨middle, hrun, hkept, hexhausted⟩ := hx
    have h := hf a middle hkept
    show Settles _ s (do
      let (b, droppedToo) ← q a
      return (b, dropped || droppedToo))
    cases hq : q a with
    | error e =>
      rw [hq] at h
      obtain ⟨after, hrun', hkept'⟩ := h
      exact ⟨after, (bind_of_ok hrun).trans hrun', hkept.trans hkept'⟩
    | ok p =>
      rw [hq] at h
      obtain ⟨after, hrun', hkept', hexhausted'⟩ := h
      refine ⟨after, (bind_of_ok hrun).trans hrun', hkept.trans hkept', ?_⟩
      rw [hexhausted', hexhausted, Bool.or_assoc]

/-- The first part of a run drops nothing. -/
theorem settles_bind_kept {x : Render α} {f : α → Render β} {s : State} {r : Except Failure α}
    {q : α → Except Failure (β × Bool)} (hx : Settles x s (r.map (·, false)))
    (hf : ∀ a after, s.Kept after → Settles (f a) after (q a)) :
    Settles (x >>= f) s (r >>= q) := by
  have h := settles_bind hx hf
  cases r with
  | error e => exact h
  | ok a =>
    have hq : (do
        let (b, dropped) ← q a
        return (b, false || dropped)) = q a := by
      cases q a <;> rfl
    have h : Settles (x >>= f) s (do
        let (b, dropped) ← q a
        return (b, false || dropped)) := h
    rwa [hq] at h

theorem settles_map {x : Render α} {s : State} {r : Except Failure (α × Bool)} (f : α → β)
    (hx : Settles x s r) : Settles (do return f (← x)) s (r.map fun p => (f p.1, p.2)) := by
  cases r with
  | error e =>
    obtain ⟨after, hrun, hkept⟩ := hx
    exact ⟨after, bind_of_error hrun, hkept⟩
  | ok p =>
    obtain ⟨after, hrun, hkept⟩ := hx
    exact ⟨after, bind_of_ok hrun, hkept⟩

theorem exists_of_map_ok {x : Render α} {f : α → β} {s t : State} {b : β}
    (h : (do return f (← x)) s = .ok b t) : ∃ a, x s = .ok a t ∧ f a = b := by
  cases hx : x s with
  | ok a u =>
    rw [bind_of_ok hx] at h
    cases h
    exact ⟨a, rfl, rfl⟩
  | error e u =>
    rw [bind_of_error hx] at h
    cases h

theorem error_of_map_error {x : Render α} {f : α → β} {s t : State} {e : Failure}
    (h : (do return f (← x)) s = .error e t) : x s = .error e t := by
  cases hx : x s with
  | ok a u =>
    rw [bind_of_ok hx] at h
    cases h
  | error e u =>
    rw [bind_of_error hx] at h
    cases h
    rfl

theorem settles_reads (stage : Stage) (t : Text) (s : State) :
    Settles (reads stage t) s ((Except.ok ()).map (·, false)) :=
  ⟨_, rfl, ⟨rfl, rfl, rfl⟩, (Bool.or_false _).symm⟩

theorem settles_note (n : Notice) (s : State) :
    Settles (note n) s ((Except.ok ()).map (·, false)) :=
  ⟨_, rfl, ⟨rfl, rfl, rfl⟩, (Bool.or_false _).symm⟩

theorem settles_ofExcept (r : Except Failure α) (s : State) :
    Settles (ofExcept r) s (r.map (·, false)) := by
  cases r with
  | error e => exact ⟨s, rfl, .refl s⟩
  | ok a => exact settles_pure a s

theorem settles_deeper {x : Render α} {s : State} {r : Except Failure (α × Bool)}
    (h : Settles x s.enter r) : Settles (deeper x) s r := by
  unfold Settles deeper
  cases r with
  | error e =>
    obtain ⟨after, hrun, hkept⟩ := h
    exact ⟨after.leave, by rw [hrun], .of_enter hkept⟩
  | ok p =>
    obtain ⟨after, hrun, hkept, hexhausted⟩ := h
    exact ⟨after.leave, by rw [hrun], .of_enter hkept, hexhausted⟩

/-- What may not go deeper is dropped. -/
theorem settles_descend_none (s : State) : Settles (descend none) s (.ok ([], true)) := by
  refine ⟨s.exhaust (.nestingLimit s.limits.maxDepth), rfl, ?_, ?_⟩
  · unfold State.exhaust
    split <;> exact ⟨rfl, rfl, rfl⟩
  · rw [exhausted_exhaust, Bool.or_true]

end Render

open Render

/-! ## Regions of a template -/

/-- A span of a template with the tags that the template has there. -/
structure Region (template : Text) (start stop : Nat) (found : List (Occurrence Tag)) : Prop where
  le : start ≤ stop
  le_length : stop ≤ template.length
  tags_slice : (tags (template.slice start stop)).map (Occurrence.shift start) = found
  found_isInfix : found <:+: tags template

namespace Region

variable {template : Text} {start stop : Nat} {found : List (Occurrence Tag)}

theorem whole (template : Text) : Region template 0 template.length (tags template) where
  le := Nat.zero_le _
  le_length := Nat.le_refl _
  tags_slice := by
    rw [template.slice_whole]
    exact (List.map_congr_left fun o _ => o.shift_zero).trans (List.map_id _)
  found_isInfix := List.infix_refl _

theorem empty {start : Nat} (h : start ≤ template.length) : Region template start start [] where
  le := Nat.le_refl _
  le_length := h
  tags_slice := by
    rw [template.slice_self]
    rfl
  found_isInfix := List.nil_infix

/-- The region between two tags. -/
theorem between {os mid ps : List (Occurrence Tag)} {o p : Occurrence Tag}
    (h : tags template = os ++ o :: (mid ++ p :: ps)) : Region template o.stop p.start mid where
  le := by
    have horder := occurrences_inOrder tagAt template
    rw [show occurrences tagAt template = _ from h] at horder
    exact (horder.behind.bounds_of_mem p (by simp)).1
  le_length := by
    have horder := occurrences_inOrder tagAt template
    rw [show occurrences tagAt template = _ from h] at horder
    have := horder.behind.bounds_of_mem p (by simp)
    have := horder.behind.lt_of_mem p (by simp)
    omega
  tags_slice := Stencil.tags_slice h
  found_isInfix := ⟨os ++ [o], p :: ps, by rw [h]; simp⟩

/-- **The branches of a block are regions** whose tags make the trees below it. -/
theorem branches (h : Region template start stop found) {b : Block} {body other : List BlockTree}
    (htree : .node b body other ∈ treesOf found) :
    ∃ first second, Region template b.bodyStart b.firstStop first ∧
      Region template b.otherStart b.bodyStop second ∧
      body = treesOf first ∧ other = treesOf second := by
  obtain ⟨front, back, hfound⟩ := h.found_isInfix
  cases treesOf_grown found _ htree with
  | @plain os mid ps _ htags hname hnone =>
    have hbody : tags template = (front ++ os) ++ b.opener :: (mid ++ b.closer :: (ps ++ back)) := by
      rw [← hfound, htags]
      simp
    have hmid := between hbody
    refine ⟨mid, [], ?_, ?_, rfl, rfl⟩
    · unfold Block.firstStop
      rw [hnone]
      exact hmid
    · unfold Block.otherStart
      rw [hnone]
      exact empty hmid.le_length
  | @either os first second ps _ tag htags hname hsome =>
    have hfirst : tags template = (front ++ os) ++ b.opener ::
        (first ++ tag :: (second ++ b.closer :: (ps ++ back))) := by
      rw [← hfound, htags]
      simp
    have hsecond : tags template = (front ++ os ++ b.opener :: first) ++ tag ::
        (second ++ b.closer :: (ps ++ back)) := by
      rw [← hfound, htags]
      simp
    refine ⟨first, second, ?_, ?_, rfl, rfl⟩
    · unfold Block.firstStop
      rw [hsome]
      exact between hfirst
    · unfold Block.otherStart
      rw [hsome]
      exact between hsecond

end Region

/-! ## One level -/

section

variable {template : Text} {scope : Scope} {start stop : Nat} {found : List (Occurrence Tag)}

theorem settles_judge (scope : Scope) (argument : Text) (s : State) :
    Settles (judge scope argument) s
      (((Condition.ofText argument).holds scope).map (·, false)) := by
  unfold judge
  cases Condition.ofText argument with
  | unsupported t =>
    exact settles_bind_kept (settles_note _ s) fun _ after _ =>
      settles_ofExcept ((Condition.unsupported t).holds scope) after
  | path p => exact settles_ofExcept _ s
  | comparison p negated literal => exact settles_ofExcept _ s
  | negation p => exact settles_ofExcept _ s

/-- At this many levels the regions of a template are resolved as the walk over their trees says. -/
def WalkedAt (template : Text) (scope : Scope) (room : Nat) : Prop :=
  ∀ start stop found (s : State), Region template start stop found → s.room = room →
    Settles (resolveConditionals scope room (template.slice start stop)) s
      (walkTrees template scope s.limits.maxDepth s.depth start stop (treesOf found))

theorem settles_resolveBranch (h : Region template start stop found) (s : State)
    (hbelow : ∀ below, s.room = below + 1 → WalkedAt template scope below) :
    Settles (resolveBranch (branchesBelow scope s.room) (template.slice start stop)) s
      (walkBranch template scope s.limits.maxDepth s.depth start stop (treesOf found)) := by
  unfold resolveBranch walkBranch
  by_cases hmay : ['{', '%'] <:+: template.slice start stop
  · rw [if_pos ((mayHoldTags_iff _).mpr hmay)]
    cases hroom : s.room with
    | zero =>
      have hdeep : tooDeep template s.limits.maxDepth s.depth start stop = true := by
        unfold State.room at hroom
        exact decide_eq_true ⟨hmay, by omega⟩
      rw [hdeep]
      exact settles_descend_none s
    | succ below =>
      have hdeep : tooDeep template s.limits.maxDepth s.depth start stop = false := by
        unfold State.room at hroom
        refine decide_eq_false fun hdeep => ?_
        omega
      rw [hdeep]
      exact settles_deeper (hbelow below hroom start stop found s.enter h (room_enter hroom))
  · have hfree : ¬ mayHoldTags (template.slice start stop) = true :=
      fun hholds => hmay ((mayHoldTags_iff _).mp hholds)
    have hdeep : tooDeep template s.limits.maxDepth s.depth start stop = false :=
      decide_eq_false fun hdeep => hmay hdeep.1
    have hnil : found = [] := by
      rw [← h.tags_slice, tags_of_free hmay]
      rfl
    rw [if_neg hfree, hdeep, hnil]
    exact settles_pure _ s

/-- The branches of a block of a region, at their places in the template. -/
theorem branches_slice (h : Region template start stop found) {b : Block}
    (hb : b ∈ blocks (template.slice start stop)) :
    b.branches (template.slice start stop)
      = (template.slice (b.shift start).bodyStart (b.shift start).firstStop,
        template.slice (b.shift start).otherStart (b.shift start).bodyStop) := by
  have hlaid := blocks_laid (template.slice start stop)
  have hparts := hlaid.parts b hb
  have hstop : start + b.bodyStop ≤ stop := by
    have hbounds := hlaid.inOrder.bounds_of_mem b.occurrence (List.mem_map_of_mem hb)
    rw [template.length_slice h.le_length] at hbounds
    have hle : b.stop ≤ stop - start := hbounds.2
    have := hparts.start_lt
    have := hparts.body_le
    have := hparts.stop_lt
    have := h.le
    omega
  obtain ⟨kind, opener, closer, alternative⟩ := b
  cases alternative with
  | none =>
    refine Prod.ext (template.slice_slice hstop) ?_
    exact (template.slice_self _).symm
  | some tag =>
    obtain ⟨-, hlt, hle⟩ := hparts.alternative tag rfl
    have hfirst : start + tag.start ≤ stop := by omega
    exact Prod.ext (template.slice_slice hfirst) (template.slice_slice hstop)

theorem settles_chooseBranch (h : Region template start stop found) (s : State)
    (hbelow : ∀ below, s.room = below + 1 → WalkedAt template scope below) {b : Block}
    (hb : b ∈ blocks (template.slice start stop)) (hkind : b.kind = .conditional)
    {body other : List BlockTree} (htree : .node (b.shift start) body other ∈ treesOf found) :
    Settles (chooseBranch (branchesBelow scope s.room) scope (template.slice start stop) b) s
      (((BlockTree.node (b.shift start) body other).walk template scope s.limits.maxDepth s.depth).map
        fun p => (some p.1, p.2)) := by
  obtain ⟨first, second, hfirst, hsecond, rfl, rfl⟩ := h.branches htree
  have hshift : (b.shift start).kind = .conditional := hkind
  unfold chooseBranch
  rw [if_pos hkind, branches_slice h hb, walk_conditional hshift]
  -- the branch is resolved in a state that the condition has only added a notice to
  have hchosen (holds : Bool) (after : State) (hkept : s.Kept after) :
      Settles (do
        return some (← resolveBranch (branchesBelow scope s.room) (if holds then
          template.slice (b.shift start).bodyStart (b.shift start).firstStop
          else template.slice (b.shift start).otherStart (b.shift start).bodyStop))) after
        ((if holds then
          walkBranch template scope s.limits.maxDepth s.depth (b.shift start).bodyStart
            (b.shift start).firstStop (treesOf first)
        else
          walkBranch template scope s.limits.maxDepth s.depth (b.shift start).otherStart
            (b.shift start).bodyStop (treesOf second)).map fun p => (some p.1, p.2)) := by
    rw [← hkept.room, ← hkept.limits, ← hkept.depth]
    have hbelow' : ∀ below, after.room = below + 1 → WalkedAt template scope below := by
      rw [hkept.room]
      exact hbelow
    cases holds with
    | true => exact settles_map some (settles_resolveBranch hfirst after hbelow')
    | false => exact settles_map some (settles_resolveBranch hsecond after hbelow')
  have hrun := settles_bind_kept (settles_judge scope b.argument s) hchosen
  have hmap {r : Except Failure Bool} {q : Bool → Except Failure (Text × Bool)} :
      (r >>= q).map (fun p => (some p.1, p.2))
        = r >>= fun a => (q a).map fun p => (some p.1, p.2) := by
    cases r <;> rfl
  rw [hmap]
  exact hrun

/-- What is put in the places of some occurrences, and what the rest of the text becomes. -/
theorem settles_edits_cons {newText : Block → Render (Option Text)} {o : Occurrence Block}
    {os : List (Occurrence Block)} {t : Text} {pos : Nat} {s : State} (hpos : pos ≤ o.stop)
    {q q' : Except Failure (Text × Bool)}
    (hfirst : Settles (newText o.item) s (q.map fun p => (some p.1, p.2)))
    (hrest : ∀ after, s.Kept after →
      Settles (do return splice o.stop (← edits newText os) (t.drop o.stop)) after q') :
    Settles (do return splice pos (← edits newText (o :: os)) (t.drop pos)) s (do
      let (text, dropped) ← q
      let (rest, droppedToo) ← q'
      return (t.slice pos o.start ++ text ++ rest, dropped || droppedToo)) := by
  cases q with
  | error e =>
    obtain ⟨after, hrun, hkept⟩ := hfirst
    exact ⟨after, bind_of_error (bind_of_error hrun), hkept⟩
  | ok p =>
    obtain ⟨text, dropped⟩ := p
    obtain ⟨middle, hrun, hkept, hexhausted⟩ := hfirst
    have hrest := hrest middle hkept
    cases q' with
    | error e =>
      obtain ⟨after, hafter, hkept'⟩ := hrest
      have hedits : edits newText (o :: os) s = .error e after :=
        (bind_of_ok hrun).trans (bind_of_error (error_of_map_error hafter))
      exact ⟨after, bind_of_error hedits, hkept.trans hkept'⟩
    | ok p' =>
      obtain ⟨rest, droppedToo⟩ := p'
      obtain ⟨after, hafter, hkept', hexhausted'⟩ := hrest
      obtain ⟨es, hes, rfl⟩ := exists_of_map_ok hafter
      have hedits : edits newText (o :: os) s = .ok (⟨o.start, o.stop, text⟩ :: es) after :=
        (bind_of_ok hrun).trans (bind_of_ok hes)
      refine ⟨after, ?_, hkept.trans hkept', ?_⟩
      · rw [← t.splice_cons_drop hpos text es]
        exact bind_of_ok hedits
      · rw [hexhausted', hexhausted, Bool.or_assoc]

/-- A loop is not edited. -/
theorem edits_loop_cons {inner : Option (Text → Render Text)} {t : Text} {b : Block}
    (hkind : b.kind = .loop) (bs : List Block) :
    edits (chooseBranch inner scope t) ((b :: bs).map Block.occurrence)
      = edits (chooseBranch inner scope t) (bs.map Block.occurrence) := by
  have hnone : chooseBranch inner scope t b = pure none := by
    unfold chooseBranch
    rw [if_neg (by rw [hkind]; nofun)]
  rw [List.map_cons, edits, Block.occurrence, hnone]
  rfl

/-- Putting branches in the place of blocks is the walk over their trees. -/
theorem settles_edits (h : Region template start stop found) {maxDepth depth room : Nat}
    (hroom : room = maxDepth - depth)
    (hbelow : ∀ below, room = below + 1 → WalkedAt template scope below)
    (bs : List Block) (trees : List BlockTree)
    (hbs : ∀ b ∈ bs, b ∈ blocks (template.slice start stop))
    (htrees : ∀ tree ∈ trees, tree ∈ treesOf found)
    (hroots : bs.map (Block.shift start) = trees.map BlockTree.block) (pos : Nat)
    (horder : InOrder pos (bs.map Block.occurrence) (stop - start)) (s : State)
    (hmax : s.limits.maxDepth = maxDepth) (hdepth : s.depth = depth) :
    Settles (do
      return splice pos (← edits (chooseBranch (branchesBelow scope room) scope
        (template.slice start stop)) (bs.map Block.occurrence))
        ((template.slice start stop).drop pos)) s
      (walkTrees template scope maxDepth depth (start + pos) stop trees) := by
  induction trees generalizing bs pos s with
  | nil =>
    obtain rfl : bs = [] := by simpa using hroots
    have hdrop : (template.slice start stop).drop pos = template.slice (start + pos) stop := by
      unfold Text.slice
      rw [List.drop_drop]
    rw [walkTrees, ← hdrop]
    exact settles_pure _ s
  | cons tree trees ih =>
    cases bs with
    | nil => simp at hroots
    | cons b bs =>
      obtain ⟨hroot, hbelowRoots⟩ := List.cons.inj hroots
      obtain ⟨hb, hbs⟩ := List.forall_mem_cons.mp hbs
      obtain ⟨htree, hothers⟩ := List.forall_mem_cons.mp htrees
      obtain ⟨hstart, hlt, hrest⟩ := horder
      obtain ⟨block, body, other⟩ := tree
      obtain rfl : b.shift start = block := hroot
      have hstart : pos ≤ b.start := hstart
      have hlt : b.start < b.stop := hlt
      have hstop : b.stop ≤ stop - start := hrest.le
      have hnext (pos : Nat) (hpos : pos ≤ b.stop) (after : State) (hkept : s.Kept after) :=
        ih bs hbs hothers hbelowRoots pos (hrest.of_le_left hpos) after (hkept.limits ▸ hmax)
          (hkept.depth.trans hdepth)
      cases hkind : b.kind with
      | conditional =>
        have hsroom : s.room = room := by
          unfold State.room
          rw [hmax, hdepth, hroom]
        have hchoose := settles_chooseBranch h s (hsroom ▸ hbelow) hb hkind htree
        rw [hsroom, hmax, hdepth] at hchoose
        have hslice : (template.slice start stop).slice pos b.start
            = template.slice (start + pos) (b.shift start).start :=
          template.slice_slice (by omega)
        rw [walkTrees_cons, BlockTree.block, ← hslice]
        exact settles_edits_cons (o := b.occurrence) (by omega) hchoose
          (hnext b.stop (Nat.le_refl _))
      | loop =>
        have hinOrder : InOrder (b.shift start).stop
            (trees.map fun tree => tree.block.occurrence) stop := by
          have hshift := inOrder_shift hrest start
          rw [hbelowRoots, List.map_map, Nat.add_sub_cancel' h.le] at hshift
          exact hshift
        have hshift : (b.shift start).kind = .loop := hkind
        rw [edits_loop_cons hkind, walkTrees_loop_cons hshift (Nat.add_le_add_left hstart start)
          (Nat.add_lt_add_left hlt start) hinOrder]
        exact hnext pos (by omega) s (.refl s)

theorem WalkedAt.of_below {room : Nat}
    (hbelow : ∀ below, room = below + 1 → WalkedAt template scope below) :
    WalkedAt template scope room := by
  intro start stop found s h hroom
  have hroots := blocks_shift h.tags_slice
  have hlaid := blocks_laid (template.slice start stop)
  rw [template.length_slice h.le_length] at hlaid
  have hsettles (after : State) (hkept : s.Kept after) := settles_edits h hroom.symm hbelow
    (blocks (template.slice start stop)) (treesOf found) (fun _ hb => hb) (fun _ htree => htree)
    hroots 0 hlaid.inOrder after (congrArg Limits.maxDepth hkept.limits) hkept.depth
  have hrun := settles_bind_kept (settles_reads .conditionals (template.slice start stop) s)
    fun _ => hsettles
  rw [resolveConditionals_eq]
  exact hrun

/-- **Scanning branches again is walking over the trees of a single scan**, at any number of
levels. -/
theorem walkedAt (template : Text) (scope : Scope) (room : Nat) :
    WalkedAt template scope room := by
  induction room with
  | zero => exact .of_below nofun
  | succ room ih =>
    refine .of_below fun below hbelow => ?_
    obtain rfl := Nat.succ.inj hbelow
    exact ih

/-! ## Walks that return -/

/-- No condition among the tags fails. -/
def Decides (scope : Scope) (found : List (Occurrence Tag)) : Prop :=
  ∀ tag ∈ found, tag.item.name = .start .conditional →
    ∃ holds, (Condition.ofText tag.item.argument).holds scope = .ok holds

instance (r : Except Failure Bool) : Decidable (∃ holds, r = .ok holds) :=
  match r with
  | .ok holds => isTrue ⟨holds, rfl⟩
  | .error _ => isFalse fun ⟨_, h⟩ => by cases h

instance (scope : Scope) (found : List (Occurrence Tag)) : Decidable (Decides scope found) :=
  inferInstanceAs (Decidable (∀ tag ∈ found, _ → _))

theorem exists_walkBranch {maxDepth depth : Nat} {trees : List BlockTree}
    (h : ∃ r, walkTrees template scope maxDepth (depth + 1) start stop trees = .ok r) :
    ∃ r, walkBranch template scope maxDepth depth start stop trees = .ok r := by
  unfold walkBranch orDropped
  split
  · exact ⟨_, rfl⟩
  · exact h

theorem exists_walk {maxDepth depth : Nat} {b : Block} {body other : List BlockTree}
    (hholds : b.kind = .conditional →
      ∃ holds, (Condition.ofText b.argument).holds scope = .ok holds)
    (hbody : ∀ start stop, ∃ r, walkTrees template scope maxDepth (depth + 1) start stop body = .ok r)
    (hother : ∀ start stop,
      ∃ r, walkTrees template scope maxDepth (depth + 1) start stop other = .ok r) :
    ∃ r, (BlockTree.node b body other).walk template scope maxDepth depth = .ok r := by
  cases hkind : b.kind with
  | loop => exact ⟨_, walk_loop hkind⟩
  | conditional =>
    obtain ⟨holds, hholds⟩ := hholds hkind
    rw [walk_conditional hkind, hholds]
    cases holds with
    | true => exact exists_walkBranch (hbody _ _)
    | false => exact exists_walkBranch (hother _ _)

theorem exists_walkTrees {maxDepth : Nat} (hfound : Decides scope found) (depth start stop : Nat) :
    ∃ r, walkTrees template scope maxDepth depth start stop (treesOf found) = .ok r := by
  induction hlength : found.length using Nat.strongRecOn generalizing found depth start stop with
  | ind n ih =>
    subst hlength
    have hbelow {mid : List (Occurrence Tag)} (hmid : mid ⊆ found ∧ mid.length < found.length)
        (start stop : Nat) :
        ∃ r, walkTrees template scope maxDepth (depth + 1) start stop (treesOf mid) = .ok r :=
      ih mid.length hmid.2 (fun tag htag => hfound tag (hmid.1 htag)) (depth + 1) start stop rfl
    have hgrown := treesOf_grown found
    -- the trees are walked over one after the other
    generalize treesOf found = trees at hgrown
    induction trees generalizing start with
    | nil => exact ⟨_, rfl⟩
    | cons tree trees ihtrees =>
      obtain ⟨htree, htrees⟩ := List.forall_mem_cons.mp hgrown
      obtain ⟨b, body, other⟩ := tree
      obtain ⟨hopener, hname⟩ := htree.opener_mem
      obtain ⟨first, second, rfl, rfl, hfirst, hsecond⟩ := htree.below
      obtain ⟨p, hp⟩ := exists_walk (fun hkind => hfound b.opener hopener (hkind ▸ hname))
        (hbelow hfirst) (hbelow hsecond)
      obtain ⟨q, hq⟩ := ihtrees b.stop htrees
      rw [walkTrees_cons, hp, BlockTree.block, hq]
      exact ⟨_, rfl⟩

end

/-! ## Top theorem -/

/-- **The stage of conditionals is one walk over the trees of the template.**  It scans branches
again, but its text is what the walk gives, and where a condition fails it fails with it; depth,
substitutions and limits are as before, and a limit has been reached if one had been before, or if the
walk drops a branch.  The walk returns if no condition in the template fails. -/
theorem conditionalStage_eq_walk (template : Text) (scope : Scope) (s : State) :
    Settles (conditionalStage template scope) s
        (walkForest template scope s.limits.maxDepth s.depth) ∧
      (Decides scope (tags template) →
        ∃ r, walkForest template scope s.limits.maxDepth s.depth = .ok r) := by
  constructor
  · have hwalked := walkedAt template scope s.room 0 template.length (tags template) s
      (.whole template) rfl
    rw [template.slice_whole] at hwalked
    exact hwalked
  · exact fun h => exists_walkTrees h s.depth 0 template.length

example : (walkForest "{% if b %}{% if a %}x{% endif %}".toList
    [(.text "a".toList, .bool true)] 32 0).toOption
      = some ("{% if b %}x".toList, false) := by
  decide +kernel

/-- A conditional that nothing closes gives way to the one inside it. -/
theorem conditionalStage_eq_walk_of_unclosed :
    Decides [(.text "a".toList, .bool true)]
        (tags "{% if b %}{% if a %}x{% endif %}".toList) ∧
      ∃ r, walkForest "{% if b %}{% if a %}x{% endif %}".toList
        [(.text "a".toList, .bool true)] 32 0 = .ok r := by
  have h : Decides [(.text "a".toList, .bool true)]
      (tags "{% if b %}{% if a %}x{% endif %}".toList) := by decide +kernel
  exact ⟨h, (conditionalStage_eq_walk _ _ {}).2 h⟩

end Stencil
