import Stencil.Proofs.Render.Substitution
import Stencil.Proofs.Template.Blocks
import Stencil.Proofs.Template.Residue

/-!
# The stages on a printed tree

What each stage yields on the text of a tree, of the parts that are left of it, or of pieces, as long
as no limit is reached: the text of what the stage makes of the tree (`yields_conditionals`,
`yields_loops`, `yields_plainStage`, `yields_filteredStage`).
-/

namespace Stencil

open Render

variable {room : Nat}

/-! ## Constructs -/

/-- The text in place of a construct, in the stage of conditionals. -/
def chooseConstruct (inner : Option (Text → Render Text)) (scope : Scope) (c : Construct) :
    Render (Option Text) :=
  if c.kind = .conditional then do
    let chosen := if ← judge scope c.argument then c.body else c.other
    return some (← resolveBranch inner chosen)
  else pure none

/-- The text in place of a construct, in the stage of loops. -/
def expandConstruct (inner : Option BodyRenderer) (scope : Scope) (c : Construct) :
    Render (Option Text) :=
  if c.kind = .loop then expandLoop inner scope c.argument c.body else pure none

theorem edits_seen {template : Text} {f : Block → Render (Option Text)}
    {g : Construct → Render (Option Text)} (h : ∀ b, f b = g (b.seen template).item)
    (bs : List Block) : edits f (bs.map Block.occurrence) = edits g (bs.map (Block.seen template)) := by
  induction bs with
  | nil => rfl
  | cons b bs ih =>
    rw [List.map_cons, List.map_cons, edits, edits, ih]
    show (f b >>= _) = _
    rw [h b]
    rfl

/-- On a printed tree the stages of blocks go from construct to construct. -/
theorem substitute_blocks {tree : Tree} (ht : tree.WellFormed) {f : Block → Render (Option Text)}
    {g : Construct → Render (Option Text)} (h : ∀ b, f b = g (b.seen tree.print).item) :
    substitute ((blocks tree.print).map Block.occurrence) f tree.print
      = Chunk.rewrite g tree.chunks := by
  have hfound := Chunk.substitute_found g tree.chunks
  rw [tree.join_chunks] at hfound
  rw [← hfound, ← Tree.blocks_print ht]
  unfold substitute
  rw [edits_seen h]

theorem built_chooseConstruct (scope : Scope) (c : Construct) :
    Built room (chooseConstruct (branchesBelow scope room) scope c) := by
  unfold chooseConstruct
  split
  · refine .bind (.of_oneLevel (oneLevel_judge scope _)) fun _ => ?_
    exact .bind (built_resolveBranch scope _) fun _ => .of_oneLevel (.pure _)
  · exact .of_oneLevel (.pure _)

theorem built_expandConstruct (filters : Registry) (scope : Scope) (c : Construct) :
    Built room (expandConstruct (bodiesBelow filters room) scope c) := by
  unfold expandConstruct
  split
  · exact built_expandLoop filters scope _ _
  · exact .of_oneLevel (.pure _)

theorem resolveConditionals_print {tree : Tree} (ht : tree.WellFormed) (scope : Scope) :
    resolveConditionals scope room tree.print = (do
      Render.reads .conditionals tree.print
      Chunk.rewrite (chooseConstruct (branchesBelow scope room) scope) tree.chunks) := by
  rw [resolveConditionals_eq]
  unfold chooseBranches
  rw [substitute_blocks ht (f := chooseBranch (branchesBelow scope room) scope tree.print)
    (g := chooseConstruct (branchesBelow scope room) scope) fun _ => rfl]

theorem expandLoops_print {tree : Tree} (ht : tree.WellFormed) (filters : Registry) (scope : Scope) :
    expandLoops (bodiesBelow filters room) scope tree.print = (do
      Render.reads .loops tree.print
      Chunk.rewrite (expandConstruct (bodiesBelow filters room) scope) tree.chunks) := by
  unfold expandLoops
  rw [substitute_blocks ht (f := expandBlock (bodiesBelow filters room) scope tree.print)
    (g := expandConstruct (bodiesBelow filters room) scope) fun _ => rfl]

/-! ## Conditionals -/

def Part.print : Part → Text
  | piece p => p.print
  | loop name path body => forMark name path ++ body.print ++ endforMark

/-- A condition is judged by what it says; blanks around it do not matter. -/
theorem yields_judge (scope : Scope) (condition : Text) :
    Yields room (judge scope condition.strip)
      ((Condition.ofText condition).holds scope).toOption := by
  have hstrip : Condition.ofText condition.strip = Condition.ofText condition := by
    unfold Condition.ofText
    rw [Text.strip_strip]
  unfold judge
  rw [hstrip]
  cases Condition.ofText condition with
  | unsupported t =>
    exact yields_after_note (.unsupportedCondition t) (yields_ofExcept room _)
  | path p => exact yields_ofExcept room _
  | comparison p n l => exact yields_ofExcept room _
  | negation p => exact yields_ofExcept room _

theorem mayHoldTags_of_append {t u : Text} (h : mayHoldTags (t ++ u) = false) :
    mayHoldTags u = false := by
  have htail {c : Char} {t : Text} (h : mayHoldTags (c :: t) = false) : mayHoldTags t = false := by
    unfold mayHoldTags at h
    split at h
    · cases h
    · rename_i he
      rwa [(List.cons.inj he).2]
    · rename_i he
      cases he
  induction t with
  | nil => exact h
  | cons c t ih => exact ih (htail h)

/-- A text without tags has no conditional to decide. -/
theorem decide_of_mayHoldTags {tree : Tree} (h : mayHoldTags tree.print = false) (scope : Scope) :
    (tree.decide scope).map (·.flatMap Part.print) = some tree.print := by
  induction tree with
  | done => rfl
  | piece p rest ih =>
    rw [Tree.decide, map_both, ih (mayHoldTags_of_append h), map_flatMap_singleton]
    rfl
  | conditional | either | loop => cases h

/-- A branch is resolved to what is decided of its tree, if its tree is resolved so below. -/
theorem yields_resolveBranch {tree : Tree} (ht : tree.WellFormed) (scope : Scope)
    (h : ∀ below, Yields below
      (Chunk.rewrite (chooseConstruct (branchesBelow scope below) scope) tree.chunks)
      ((tree.decide scope).map (·.flatMap Part.print))) :
    Yields room (resolveBranch (branchesBelow scope room) tree.print)
      ((tree.decide scope).map (·.flatMap Part.print)) := by
  unfold resolveBranch
  split
  · refine yields_descend fun w hw => ?_
    cases room with
    | zero => cases hw
    | succ below =>
      cases hw
      refine ⟨below, rfl, ?_⟩
      show Yields below (resolveConditionals scope below tree.print) _
      rw [resolveConditionals_print ht]
      exact yields_after_reads _ _ (h below)
  · rename_i hnone
    rw [decide_of_mayHoldTags (by simpa using hnone)]
    exact yields_pure room _

/-- A conditional is resolved to what is decided of the branch that its condition chooses. -/
theorem yields_chooseConstruct {body other : Tree} (hb : body.WellFormed) (ho : other.WellFormed)
    (scope : Scope) (condition : Text)
    (hbody : ∀ below, Yields below
      (Chunk.rewrite (chooseConstruct (branchesBelow scope below) scope) body.chunks)
      ((body.decide scope).map (·.flatMap Part.print)))
    (hother : ∀ below, Yields below
      (Chunk.rewrite (chooseConstruct (branchesBelow scope below) scope) other.chunks)
      ((other.decide scope).map (·.flatMap Part.print))) :
    Yields room (chooseConstruct (branchesBelow scope room) scope
        ⟨.conditional, condition.strip, body.print, other.print⟩)
      (((((Condition.ofText condition).holds scope).toOption.bind fun truth =>
        if truth then body.decide scope else other.decide scope).map
          (·.flatMap Part.print)).map some) := by
  have hadv (t : Text) : Advances room (resolveBranch (branchesBelow scope room) t) :=
    (built_resolveBranch scope t).advances
  have hjudge : Yields room (judge scope condition.strip) _ := yields_judge scope condition
  have hstep := yields_bind ((oneLevel_judge scope condition.strip).advances room)
    (fun truth => advances_bind (hadv (if truth then body.print else other.print)) fun t =>
      advances_pure room (some t)) hjudge
    (q := fun truth => ((if truth then body.decide scope else other.decide scope).map
      (·.flatMap Part.print)).map some) fun truth _ => by
        cases truth with
        | true => exact yields_map (yields_resolveBranch hb scope hbody)
        | false => exact yields_map (yields_resolveBranch ho scope hother)
  have hresult : (((((Condition.ofText condition).holds scope).toOption.bind fun truth =>
      if truth then body.decide scope else other.decide scope).map
        (·.flatMap Part.print)).map some)
      = ((Condition.ofText condition).holds scope).toOption.bind fun truth =>
        ((if truth then body.decide scope else other.decide scope).map
          (·.flatMap Part.print)).map some := by
    cases ((Condition.ofText condition).holds scope).toOption <;> rfl
  rw [hresult]
  exact hstep

theorem map_some_getD (r : Option Text) (t : Text) : (r.map some).map (·.getD t) = r := by
  cases r <;> rfl

theorem wellFormed_done : Tree.done.WellFormed := trivial

theorem yields_chunks_done {f : Construct → Render (Option Text)} (scope : Scope) :
    Yields room (Chunk.rewrite f Tree.done.chunks)
      ((Tree.done.decide scope).map (·.flatMap Part.print)) :=
  yields_pure room _

/-- From construct to construct, the stage of conditionals leaves what is decided of the tree. -/
theorem yields_decide {tree : Tree} (ht : tree.WellFormed) (scope : Scope) (room : Nat) :
    Yields room (Chunk.rewrite (chooseConstruct (branchesBelow scope room) scope) tree.chunks)
      ((tree.decide scope).map (·.flatMap Part.print)) := by
  induction tree generalizing room with
  | done => exact yields_chunks_done scope
  | piece p rest ih =>
    have hrest := Chunk.yields_rewrite_none (ih ht.2 room) p.print
    rw [Tree.decide, map_both, map_flatMap_singleton]
    exact hrest
  | conditional condition body rest ihb ihr =>
    have hchosen : Yields room _ _ := yields_chooseConstruct ht.2.1 wellFormed_done scope condition
      (ihb ht.2.1) fun _ => yields_chunks_done scope
    have := Chunk.yields_rewrite_some (built_chooseConstruct scope) (ihr ht.2.2 room)
      (ifMark condition ++ body.print ++ endifMark) hchosen
    rw [map_some_getD] at this
    rw [Tree.decide, map_both]
    exact this
  | either condition body other rest ihb iho ihr =>
    have hchosen : Yields room _ _ := yields_chooseConstruct ht.2.1 ht.2.2.1 scope condition
      (ihb ht.2.1) (iho ht.2.2.1)
    have := Chunk.yields_rewrite_some (built_chooseConstruct scope) (ihr ht.2.2.2 room)
      (ifMark condition ++ body.print ++ elseMark ++ other.print ++ endifMark) hchosen
    rw [map_some_getD] at this
    rw [Tree.decide, map_both]
    exact this
  | loop name path body rest _ ihr =>
    have hkept : Yields room (chooseConstruct (branchesBelow scope room) scope
        ⟨.loop, name ++ " in ".toList ++ path, body.print, []⟩) (some none) :=
      yields_pure room none
    have hrest := Chunk.yields_rewrite_some (built_chooseConstruct scope) (ihr ht.2.2.2 room)
      (forMark name path ++ body.print ++ endforMark) hkept
    rw [Tree.decide, map_both, map_flatMap_singleton]
    exact hrest

/-- The stage of conditionals on a printed tree. -/
theorem yields_conditionals {tree : Tree} (ht : tree.WellFormed) (scope : Scope) :
    Yields room (resolveConditionals scope room tree.print)
      ((tree.decide scope).map (·.flatMap Part.print)) := by
  rw [resolveConditionals_print ht]
  exact yields_after_reads _ _ (yields_decide ht scope room)

/-! ## Loops -/

/-- A part that a stage can expand: it is well-formed, and the turns of a loop are settled. -/
def Part.Sound (outer : List Scope) (scope : Scope) : Part → Prop
  | piece p => p.WellFormed
  | loop name path body =>
    (Tree.loop name path body .done).WellFormed ∧
      (Tree.loop name path body .done).Settled outer scope

/-- The parts that a tree is decided to be are sound. -/
theorem sound_of_decide {tree : Tree} (ht : tree.WellFormed) {scope : Scope} {outer : List Scope}
    (hsettled : tree.Settled outer scope) {parts : List Part}
    (h : tree.decide scope = some parts) : ∀ part ∈ parts, part.Sound outer scope := by
  induction tree generalizing parts with
  | done => cases h; exact fun _ h => by cases h
  | piece p rest ih =>
    obtain ⟨qs, rs, hq, hr, rfl⟩ := both_eq_some_iff.mp h
    cases hq
    exact List.forall_mem_append.mpr
      ⟨List.forall_mem_singleton.mpr ht.1, ih ht.2 hsettled.2 hr⟩
  | conditional condition body rest ihb ihr =>
    obtain ⟨qs, rs, hq, hr, rfl⟩ := both_eq_some_iff.mp h
    refine List.forall_mem_append.mpr
      ⟨forall_mem_of_chosen hq (fun htrue hb => ?_) fun _ hb => ?_, ihr ht.2.2 hsettled.2 hr⟩
    · exact ihb ht.2.1 (hsettled.1 htrue) hb
    · cases hb
      exact fun _ h => by cases h
  | either condition body other rest ihb iho ihr =>
    obtain ⟨qs, rs, hq, hr, rfl⟩ := both_eq_some_iff.mp h
    refine List.forall_mem_append.mpr
      ⟨forall_mem_of_chosen hq (fun htrue hb => ?_) fun hfalse hb => ?_,
        ihr ht.2.2.2 hsettled.2.2 hr⟩
    · exact ihb ht.2.1 (hsettled.1 htrue) hb
    · exact iho ht.2.2.1 (hsettled.2.1 hfalse) hb
  | loop name path body rest _ ihr =>
    obtain ⟨qs, rs, hq, hr, rfl⟩ := both_eq_some_iff.mp h
    cases hq
    exact List.forall_mem_append.mpr ⟨List.forall_mem_singleton.mpr
      ⟨⟨ht.1, ht.2.1, ht.2.2.1, trivial⟩, hsettled.1, trivial⟩, ihr ht.2.2.2 hsettled.2 hr⟩

/-- Parts as a tree. -/
def Tree.ofParts : List Part → Tree
  | [] => done
  | .piece p :: parts => piece p (ofParts parts)
  | .loop name path body :: parts => loop name path body (ofParts parts)

theorem print_ofParts (parts : List Part) :
    (Tree.ofParts parts).print = parts.flatMap Part.print := by
  induction parts with
  | nil => rfl
  | cons part parts ih =>
    cases part with
    | piece p => exact congrArg (p.print ++ ·) ih
    | loop name path body => exact congrArg (forMark name path ++ body.print ++ endforMark ++ ·) ih

theorem wellFormed_ofParts {outer : List Scope} {scope : Scope} {parts : List Part}
    (h : ∀ part ∈ parts, part.Sound outer scope) : (Tree.ofParts parts).WellFormed := by
  induction parts with
  | nil => trivial
  | cons part parts ih =>
    obtain ⟨hpart, hparts⟩ := List.forall_mem_cons.mp h
    cases part with
    | piece p => exact ⟨hpart, ih hparts⟩
    | loop name path body =>
      exact ⟨hpart.1.1, hpart.1.2.1, hpart.1.2.2.1, ih hparts⟩

/-- Turns leave the text of what each turn leaves. -/
theorem yields_turns {body : Scope → Render Text} (hbody : ∀ scope, Built room (body scope))
    {name : Text} {scope : Scope} {residue : Value → Option (List Piece)} {items : List Value}
    (h : ∀ item ∈ items, Yields room (body (scope.bind name item))
      ((residue item).map (·.flatMap Piece.print))) :
    Yields room (turns body name scope items)
      ((allBoth residue items).map (·.flatMap Piece.print)) := by
  induction items with
  | nil => exact yields_pure room _
  | cons item items ih =>
    have hbody' := (hbody (scope.bind name item)).advances
    have hturns := (built_turns hbody name scope items).advances
    have hturn := Chunk.yields_both hbody' hturns (h item List.mem_cons_self)
      (ih fun item hi => h item (List.mem_cons_of_mem _ hi))
    rw [allBoth, map_both]
    refine yields_bind (r := some true) (advances_spend room) (fun paid => ?_) (yields_spend room)
      (q := fun _ => both _ _) fun paid hp => ?_
    · cases paid with
      | false => exact advances_pure room _
      | true => exact advances_bind hbody' fun _ => advances_bind hturns fun _ =>
          advances_pure room _
    · cases hp
      exact hturn

/-- A loop is expanded to the text of what its turns leave, if its body is rendered so below. -/
theorem yields_expandLoop {filters : Registry} {scope : Scope} {name path : Text} {body : Tree}
    (hn : name.isWord = true) (hp : path.isPath = true)
    (hbody : ∀ below, room = below + 1 → ∀ value, scope.resolve path = .ok value →
      ∀ item ∈ itemsOf value, Yields below
        (renderWithin filters below body.print (scope.bind name item))
        ((body.residue (scope.bind name item)).map (·.flatMap Piece.print))) :
    Yields room (expandLoop (bodiesBelow filters room) scope (name ++ " in ".toList ++ path)
        body.print)
      (((turnsResidue body name path scope).map (·.flatMap Piece.print)).map some) := by
  have hheader := loopHeader_ofArgument?_written hn hp
  unfold turnsResidue
  cases hresolve : scope.resolve path with
  | error e =>
    rw [expandLoop_of_error _ _ hheader hresolve]
    exact fun _ _ _ => rfl
  | ok value =>
    show Yields room _ (((allBoth (fun item => body.residue (scope.bind name item))
      (itemsOf value)).map (·.flatMap Piece.print)).map some)
    by_cases hsequence : ∃ kind items, value = some (.sequence kind items)
    · obtain ⟨kind, items, rfl⟩ := hsequence
      rw [expandLoop_of_sequence _ _ hheader hresolve]
      refine yields_map (yields_descend fun w hw => ?_)
      cases room with
      | zero => cases hw
      | succ below =>
        cases hw
        refine ⟨below, rfl, yields_turns (built_renderWithin filters below body.print) ?_⟩
        exact hbody below rfl _ hresolve
    · have hother : ∀ kind items, value ≠ some (.sequence kind items) := fun kind items he =>
        hsequence ⟨kind, items, he⟩
      have hitems : itemsOf value = [] := by
        unfold itemsOf
        split
        · exact absurd rfl (hother _ _)
        · rfl
      rw [hitems]
      rw [expandLoop_of_not_sequence _ _ hheader hresolve hother]
      exact yields_after_note _ (yields_pure room _)

/-- What is known of the bodies of loops, one level below. -/
def YieldsBelow (filters : Registry) (room : Nat) : Prop :=
  ∀ below, room = below + 1 → ∀ (tree : Tree) (scope : Scope) (outer : List Scope),
    tree.WellFormed → Value.EntriesNoBrace scope → tree.Settled outer scope →
      Yields below (renderWithin filters below tree.print scope)
        ((tree.residue scope).map (·.flatMap Piece.print))

/-- From construct to construct, the stage of loops leaves what the parts are expanded to. -/
theorem yields_expand {filters : Registry} (hbelow : YieldsBelow filters room) {scope : Scope}
    {outer : List Scope} (hs : Value.EntriesNoBrace scope) {parts : List Part}
    (h : ∀ part ∈ parts, part.Sound outer scope) :
    Yields room (Chunk.rewrite (expandConstruct (bodiesBelow filters room) scope)
        (Tree.ofParts parts).chunks)
      ((allBoth (Part.expand scope) parts).map (·.flatMap Piece.print)) := by
  induction parts with
  | nil => exact yields_pure room _
  | cons part parts ih =>
    obtain ⟨hpart, hparts⟩ := List.forall_mem_cons.mp h
    rw [allBoth, map_both]
    cases part with
    | piece p =>
      have hrest := Chunk.yields_rewrite_none (ih hparts)
        p.print
      rw [Part.expand, map_flatMap_singleton]
      exact hrest
    | loop name path body =>
      obtain ⟨⟨hn, hp, hb, -⟩, hsettled, -⟩ := hpart
      have hloop : Yields room (expandConstruct (bodiesBelow filters room) scope
          ⟨.loop, name ++ " in ".toList ++ path, body.print, []⟩) _ :=
        yields_expandLoop hn hp fun below hroom value hvalue item hitem =>
          hbelow below hroom body _ (scope :: outer) hb
            (Scope.noBrace_bind hs (brace_not_mem_word hn) (noBrace_itemsOf hs hvalue item hitem))
            (hsettled value hvalue item hitem)
      have := Chunk.yields_rewrite_some (built_expandConstruct filters scope) (ih hparts)
        (forMark name path ++ body.print ++ endforMark) hloop
      rw [map_some_getD] at this
      exact this

/-- The stage of loops on the text of the parts that are left of a tree. -/
theorem yields_loops {filters : Registry} (hbelow : YieldsBelow filters room) {scope : Scope}
    {outer : List Scope} (hs : Value.EntriesNoBrace scope) {parts : List Part}
    (h : ∀ part ∈ parts, part.Sound outer scope) :
    Yields room (expandLoops (bodiesBelow filters room) scope (parts.flatMap Part.print))
      ((allBoth (Part.expand scope) parts).map (·.flatMap Piece.print)) := by
  rw [← print_ofParts, expandLoops_print (wellFormed_ofParts h)]
  exact yields_after_reads _ _ (yields_expand hbelow hs h)

/-! ## Placeholders -/

theorem join_map_chunk {α : Type} {chunk : Piece → Chunk α}
    (h : ∀ p, (chunk p).text = p.print) (ps : List Piece) :
    Chunk.join (ps.map chunk) = ps.flatMap Piece.print := by
  induction ps with
  | nil => rfl
  | cons p ps ih => rw [List.map_cons, Chunk.join_cons, ih, h, List.flatMap_cons]

/-- On the text of pieces a stage of placeholders goes from piece to piece. -/
theorem substitute_pieces {α : Type} {r : Recogniser α} {chunk : Piece → Chunk α}
    (htext : ∀ p, (chunk p).text = p.print) {ps : List Piece}
    (h : ∀ p ∈ ps, (chunk p).ReadBy r) (f : α → Render (Option Text)) :
    substitute (occurrences r (ps.flatMap Piece.print)) f (ps.flatMap Piece.print)
      = Chunk.rewrite f (ps.map chunk) := by
  rw [← join_map_chunk htext, Chunk.occurrences_join (by simpa using h), Chunk.substitute_found]

theorem yields_payAndDisplay (value : Option Value) :
    Yields room (payAndDisplay value) (displayed value).toOption := by
  cases value with
  | none => exact yields_pure room _
  | some v =>
    have hresult : (displayed (some v)).toOption = v.display.toOption.map some := by
      show (v.display >>= fun t => .ok (some t)).toOption = _
      cases v.display <;> rfl
    rw [hresult]
    refine yields_bind (r := some true) (advances_spend room) (fun paid => ?_) (yields_spend room)
      (q := fun _ => v.display.toOption.map some) fun paid hp => ?_
    · cases paid with
      | false => exact advances_pure room _
      | true => exact advances_bind (advances_ofExcept room _) fun _ => advances_pure room _
    · cases hp
      exact yields_map (yields_ofExcept room v.display)

theorem yields_fillPlain (scope : Scope) (path : Text) :
    Yields room (fillPlain scope path) ((Piece.plain path).fill scope).toOption := by
  show Yields room _ (scope.resolve path >>= displayed).toOption
  rw [toOption_bind]
  exact yields_ofExcept_bind fun value _ => yields_payAndDisplay value

/-- Where the usual filters are known, a chain of calls applies them. -/
theorem yields_applyChain {filters : Registry} (hf : filters.HasBuiltins) {calls : List Call}
    (hc : ∀ c ∈ calls, c.WellFormed) (value : Option Value) :
    Yields room (applyChain filters value (chain calls)) (applyCalls calls value).toOption := by
  unfold applyChain
  rw [segments_chain hc]
  clear hc
  induction calls generalizing value with
  | nil => exact yields_pure room _
  | cons c calls ih =>
    have hsegment : applySegment filters value c.segment
        = Render.ofExcept (c.filter.apply value (readArguments c.arguments)) := by
      unfold applySegment
      rw [show c.segment.filter = c.filter.name from rfl, hf c.filter]
      rfl
    unfold applyCalls
    rw [List.map_cons, List.foldlM_cons, List.foldlM_cons, toOption_bind, hsegment]
    exact yields_ofExcept_bind fun v _ => ih v

theorem yields_fillFiltered {filters : Registry} (hf : filters.HasBuiltins) (scope : Scope)
    (path : Text) {calls : List Call} (hc : ∀ c ∈ calls, c.WellFormed) :
    Yields room (fillFiltered filters scope ⟨path, chain calls⟩)
      ((Piece.filtered path calls).fill scope).toOption := by
  show Yields room _ (scope.resolve path >>= fun value =>
    applyCalls calls value >>= displayed).toOption
  rw [toOption_bind]
  refine yields_ofExcept_bind fun value _ => ?_
  rw [toOption_bind]
  exact yields_bind ((oneLevel_applyChain filters value _).advances room)
    (fun result => (oneLevel_payAndDisplay result).advances room)
    (yields_applyChain hf hc value) fun result _ => yields_payAndDisplay result

/-- A stage that fills some of the pieces and keeps the others leaves the text of what it leaves of
each. -/
theorem yields_pieces {α : Type} {f : α → Render (Option Text)} (hf : ∀ a, Built room (f a))
    {chunk : Piece → Chunk α} {settle : Piece → Option (List Piece)} (scope : Scope)
    {ps : List Piece}
    (h : ∀ p ∈ ps, (chunk p = ⟨p.print, none⟩ ∧ settle p = some [p]) ∨
      ∃ a, chunk p = ⟨p.print, some a⟩ ∧ settle p = p.settle scope ∧
        Yields room (f a) (p.fill scope).toOption) :
    Yields room (Chunk.rewrite f (ps.map chunk)) ((allBoth settle ps).map (·.flatMap Piece.print)) := by
  induction ps with
  | nil => exact yields_pure room _
  | cons p ps ih =>
    obtain ⟨hp, hps⟩ := List.forall_mem_cons.mp h
    rw [List.map_cons, allBoth, map_both]
    rcases hp with ⟨hchunk, hsettle⟩ | ⟨a, hchunk, hsettle, ha⟩
    · rw [hchunk, hsettle, map_flatMap_singleton]
      exact Chunk.yields_rewrite_none (ih hps) p.print
    · rw [hchunk, hsettle, Piece.map_settle]
      exact Chunk.yields_rewrite_some hf (ih hps) p.print ha

/-- The stage of plain placeholders on the text of pieces. -/
theorem yields_plainStage {ps : List Piece} (h : ∀ p ∈ ps, p.WellFormed) (scope : Scope) :
    Yields room (plainStage (ps.flatMap Piece.print) scope)
      ((allBoth (Piece.settlePlain scope) ps).map (·.flatMap Piece.print)) := by
  unfold plainStage
  rw [substitute_pieces Piece.text_plainChunk fun p hp => Piece.readBy_plainAt (h p hp)]
  refine yields_after_reads _ _ (yields_pieces
    (fun path => .of_oneLevel (oneLevel_fillPlain scope path)) scope fun p _ => ?_)
  cases p with
  | literal t => exact .inl ⟨rfl, rfl⟩
  | filtered path calls => exact .inl ⟨rfl, rfl⟩
  | plain path => exact .inr ⟨path, rfl, rfl, yields_fillPlain scope path⟩

/-- The stage of filtered placeholders on the text of pieces. -/
theorem yields_filteredStage {filters : Registry} (hf : filters.HasBuiltins) {ps : List Piece}
    (h : ∀ p ∈ ps, p.WellFormed) (scope : Scope) :
    Yields room (filteredStage filters (ps.flatMap Piece.print) scope)
      ((allBoth (Piece.settleFiltered scope) ps).map (·.flatMap Piece.print)) := by
  unfold filteredStage
  rw [substitute_pieces Piece.text_filteredChunk fun p hp => Piece.readBy_filteredAt (h p hp)]
  refine yields_after_reads _ _ (yields_pieces
    (fun path => .of_oneLevel (oneLevel_fillFiltered filters scope path)) scope fun p hp => ?_)
  cases p with
  | literal t => exact .inl ⟨rfl, rfl⟩
  | plain path => exact .inl ⟨rfl, rfl⟩
  | filtered path calls =>
    exact .inr ⟨⟨path, chain calls⟩, rfl, rfl, yields_fillFiltered hf scope path (h _ hp).2.2⟩

end Stencil
