import Stencil.Proofs.Template.Stages
import Stencil.Proofs.Template.Totality

/-!
# The pipeline is a walk

Rendering a printed tree comes to walking over the tree once (`render_print_eq_walk`), though the
pipeline goes over the text of the template four times, and over what the turns of loops leave again
and again.  The level below is what the proof goes by: what the turns of a loop yield there are
pieces that the stages above keep as they are.
-/

namespace Stencil

open Render

variable {room : Nat}

theorem wellFormed_of_settlePlain {ps qs : List Piece} (h : ∀ p ∈ ps, p.WellFormed) {scope : Scope}
    (hs : Value.EntriesNoBrace scope) (hq : allBoth (Piece.settlePlain scope) ps = some qs) :
    ∀ q ∈ qs, q.WellFormed := by
  intro q hmem
  obtain ⟨p, hp, rs, hrs, hmem⟩ := mem_of_allBoth hq hmem
  cases p with
  | literal t => cases hrs; cases List.mem_singleton.mp hmem; exact h _ hp
  | filtered path calls => cases hrs; cases List.mem_singleton.mp hmem; exact h _ hp
  | plain path =>
    have hleft : q.Left [] := Piece.left_of_settle (h _ hp) hs (fun _ _ _ _ ho => by cases ho) hrs
      q hmem
    exact hleft.wellFormed

theorem wellFormed_of_expand {parts : List Part} {scope : Scope} {outer : List Scope}
    (h : ∀ part ∈ parts, part.Sound outer scope) (hs : Value.EntriesNoBrace scope)
    {ps : List Piece} (hp : allBoth (Part.expand scope) parts = some ps) :
    ∀ p ∈ ps, p.WellFormed := by
  intro p hmem
  obtain ⟨part, hpart, qs, hqs, hmem⟩ := mem_of_allBoth hp hmem
  have hsound := h part hpart
  cases part with
  | piece q => cases hqs; cases List.mem_singleton.mp hmem; exact hsound
  | loop name path body =>
    obtain ⟨⟨hn, -, hb, -⟩, hsettled, -⟩ := hsound
    exact (left_of_turnsResidue hn hs hsettled
      (fun inner hi hbody rs hrs => Tree.left_of_residue hb hi hbody hrs) hqs p hmem).wellFormed

/-- One level: each stage yields what it makes of the pieces and parts before it. -/
theorem yields_level {filters : Registry} (hf : filters.HasBuiltins)
    (hbelow : YieldsBelow filters room) {tree : Tree} (ht : tree.WellFormed) {scope : Scope}
    (hs : Value.EntriesNoBrace scope) {outer : List Scope} (hsettled : tree.Settled outer scope) :
    Yields room (renderWithin filters room tree.print scope)
      ((tree.residue scope).map (·.flatMap Piece.print)) := by
  have hfiltered (t : Text) : Advances room (filteredStage filters t scope) :=
    (oneLevel_filteredStage filters t scope).advances room
  have hplain (t : Text) : Advances room (plainStage t scope) :=
    (oneLevel_plainStage t scope).advances room
  have hfill (t : Text) : Advances room
      (plainStage t scope >>= fun t => filteredStage filters t scope) :=
    advances_bind (hplain t) hfiltered
  have hloops (t : Text) : Advances room (expandLoops (bodiesBelow filters room) scope t) :=
    (built_expandLoops filters scope t).advances
  have hstages : Yields room (renderWithin filters room tree.print scope)
      ((tree.decide scope).bind fun parts =>
        (allBoth (Part.expand scope) parts).bind fun ps =>
          (allBoth (Piece.settlePlain scope) ps).bind fun qs =>
            (allBoth (Piece.settleFiltered scope) qs).map (·.flatMap Piece.print)) := by
    rw [renderWithin_eq]
    refine yields_bind_map (built_resolveConditionals scope room _).advances
      (fun t => advances_bind (hloops t) hfill) (yields_conditionals ht scope) fun parts hparts => ?_
    have hsound := sound_of_decide ht hsettled hparts
    refine yields_bind_map (hloops _) hfill
      (yields_loops hbelow hs hsound) fun ps hps => ?_
    have hps := wellFormed_of_expand hsound hs hps
    refine yields_bind_map (hplain _) hfiltered
      (yields_plainStage hps scope) fun qs hqs => ?_
    exact yields_filteredStage hf (wellFormed_of_settlePlain hps hs hqs) scope
  have hresult : ((tree.decide scope).bind fun parts =>
        (allBoth (Part.expand scope) parts).bind fun ps =>
          (allBoth (Piece.settlePlain scope) ps).bind fun qs =>
            (allBoth (Piece.settleFiltered scope) qs).map (·.flatMap Piece.print))
      = (tree.residue scope).map (·.flatMap Piece.print) := by
    have hpieces (ps : List Piece) : ((allBoth (Piece.settlePlain scope) ps).bind fun qs =>
          (allBoth (Piece.settleFiltered scope) qs).map (·.flatMap Piece.print))
        = (allBoth (Piece.settle scope) ps).map (·.flatMap Piece.print) := by
      rw [← allBoth_settle, Option.map_bind]
      rfl
    rw [← Tree.stages_eq_residue ht hs hsettled]
    simp only [hpieces, Option.map_bind, Option.bind_assoc, Function.comp_def]
  rwa [hresult] at hstages

/-- At every level a render of a printed tree yields the text of what a walk leaves. -/
theorem yields_renderWithin {filters : Registry} (hf : filters.HasBuiltins) (room : Nat)
    {tree : Tree} (ht : tree.WellFormed) {scope : Scope} (hs : Value.EntriesNoBrace scope)
    {outer : List Scope} (hsettled : tree.Settled outer scope) :
    Yields room (renderWithin filters room tree.print scope)
      ((tree.residue scope).map (·.flatMap Piece.print)) := by
  induction room generalizing tree scope outer with
  | zero => exact yields_level hf (fun below h => by cases h) ht hs hsettled
  | succ room ih =>
    refine yields_level hf (fun below h tree scope outer ht hs hsettled => ?_) ht hs hsettled
    cases h
    exact ih ht hs hsettled

/-- **The pipeline is a walk.**  A render of a printed tree that reaches no limit comes to what one
walk over the tree says; if the walk fails, the template comes out.  Nor does the walk fail, if all
values can be written, no index is too long, and what is counted can be counted. -/
theorem render_print_eq_walk {filters : Registry} (hf : filters.HasBuiltins) {tree : Tree}
    (ht : tree.WellFormed) {scope : Scope} (hs : Value.EntriesNoBrace scope)
    (hsettled : tree.Settled [] scope) {limits : Limits}
    (hlimits : ((renderStages filters tree.print scope).endState { limits := limits }).exhausted
      = false) :
    (render filters limits tree.print scope).output = (tree.walk scope).toOption.getD tree.print ∧
      (scope.Writable → (∀ path ∈ tree.paths, ShortIndices path) → tree.Counted scope →
        ∃ t, tree.walk scope = .ok t ∧ (render filters limits tree.print scope).output = t) := by
  have hyields := yields_renderWithin hf limits.maxDepth ht hs hsettled
  have houtput : (render filters limits tree.print scope).output
      = (tree.walk scope).toOption.getD tree.print := by
    rw [render_output_eq, hyields { limits := limits } rfl hlimits, Tree.toOption_walk]
  refine ⟨houtput, fun hwritable hshort hcounted => ?_⟩
  obtain ⟨t, hwalk⟩ := Tree.exists_walk_eq_ok hwritable hshort hcounted
  refine ⟨t, hwalk, ?_⟩
  rw [houtput, hwalk]
  rfl

theorem hasBuiltins_standard : Registry.standard.HasBuiltins := by
  intro b
  cases b <;> rfl

/-- A loop in a branch, with a conditional in its body, beside a chain of filters. -/
theorem render_print_eq_walk_of_nested :
    let body : Tree := .piece (.plain "n".toList) <|
      .conditional "n == 'b'".toList (.piece (.literal "!".toList) .done) <|
      .piece (.plain "m".toList) .done
    let tree : Tree := .either "xs".toList (.loop "n".toList "xs".toList body .done)
      (.piece (.literal "none".toList) .done) <|
      .piece (.filtered "k".toList [⟨.upper, none⟩, ⟨.length, none⟩]) .done
    let scope : Scope := [(.text "xs".toList, .sequence .list
      [.text "a".toList, .text "b".toList]), (.text "k".toList, .text "cd".toList)]
    (tree.WellFormed ∧ Value.EntriesNoBrace scope ∧ tree.Settled [] scope ∧
      ((renderStages .standard tree.print scope).endState {}).exhausted = false ∧
      scope.Writable ∧ (∀ path ∈ tree.paths, ShortIndices path) ∧ tree.Counted scope) ∧
    (render .standard {} tree.print scope).output = "a{{ m }}b!{{ m }}2".toList := by
  intro body tree scope
  have ht : tree.WellFormed := by decide +kernel
  have hs : Value.EntriesNoBrace scope := by decide +kernel
  have hsettled : tree.Settled [] scope := by decide +kernel
  have hlimits : ((renderStages .standard tree.print scope).endState {}).exhausted = false := by
    decide +kernel
  have hwritable : scope.Writable := by decide +kernel
  have hshort : ∀ path ∈ tree.paths, ShortIndices path := by decide +kernel
  have hcounted : tree.Counted scope := by decide +kernel
  refine ⟨⟨ht, hs, hsettled, hlimits, hwritable, hshort, hcounted⟩, ?_⟩
  obtain ⟨t, hwalk, houtput⟩ := (render_print_eq_walk hasBuiltins_standard ht hs hsettled hlimits).2
    hwritable hshort hcounted
  have hresult : (tree.walk scope).toOption = some "a{{ m }}b!{{ m }}2".toList := by
    decide +kernel
  rw [hwalk] at hresult
  rw [houtput]
  exact Option.some.inj hresult

end Stencil
