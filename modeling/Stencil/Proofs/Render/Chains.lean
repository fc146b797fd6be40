import Stencil.Proofs.Render.Placeholders
import Stencil.Proofs.Render.Substitution

/-!
# Chains of filters

A filtered placeholder is read twice.  Where it is found in a text, its segments are taken one
behind the other from the path on, up to the closing braces.  The chain between the two is cut out
as text, and its segments are looked for in that text alone, wherever they may start:

    {{ path | a | b(|c) }}    found whole, with the chain  | a | b(|c)
              | a | b(|c)     cut into a and b(|c)

Both come to the segments as they are spelled (`occurrences_filteredAt_of_spelled`,
`segments_of_spelled`).  The filters of these are applied from left to right, each to what the one
before it has left, up to the first that fails (`chains_applied_as_spelled`).
-/

namespace Stencil

open Render

/-! ## One placeholder -/

/-- A text that is one filtered placeholder is found whole. -/
theorem occurrences_filteredAt_of_spelled {piece : Text} {f : Filtered} (h : f.Spelled piece) :
    occurrences filteredAt piece = [⟨f, 0, piece.length⟩] := by
  have hne : piece ≠ [] := by
    rintro rfl
    exact filteredAt_takes.not_nil f h
  have hread : ∀ c ∈ [(⟨piece, some f⟩ : Chunk Filtered)], c.ReadBy filteredAt := by
    intro c hc
    obtain rfl := List.mem_singleton.mp hc
    exact Chunk.readBy_of_eq hne (filteredAt_of_spelled h)
  have hfound := Chunk.occurrences_join hread
  rw [Chunk.join_cons, Chunk.join_nil, List.append_nil] at hfound
  rw [hfound]
  simp [Chunk.found]

/-- On such a text the stage puts the new text in place of the whole, or keeps it. -/
theorem filteredStage_of_spelled {piece : Text} {f : Filtered} (h : f.Spelled piece)
    (filters : Registry) (scope : Scope) :
    filteredStage filters piece scope = (do
      Render.reads .filtered piece
      return (← fillFiltered filters scope f).getD piece) := by
  have hchunk := Chunk.substitute_found (fillFiltered filters scope) [⟨piece, some f⟩]
  simp only [Chunk.found, Chunk.join_cons, Chunk.join_nil, Chunk.rewrite, List.append_nil,
    pure_bind, Nat.zero_add] at hchunk
  unfold filteredStage
  rw [occurrences_filteredAt_of_spelled h, hchunk]

/-- A path with one segment behind it is a placeholder, and its chain is cut into that segment. -/
theorem spelled_of_segment {path chain : Text} {segment : Segment} (hpath : path.isPath = true)
    (h : segment.Spelled chain) :
    Filtered.Spelled ('{' :: '{' :: ([' '] ++ (path ++ ([' '] ++ (chain ++ ['}', '}'])))))
        ⟨path, chain⟩ ∧ segments chain = [segment] := by
  have hpieces : List.Forall₂ Segment.Spelled [chain] [segment] := .cons h .nil
  have hchain : chain = [chain].flatten := (List.append_nil chain).symm
  constructor
  · exact ⟨⟨[' '], [' '], Text.allBlank_blank, Text.allBlank_blank, hpath, rfl⟩, [chain], [segment],
      List.cons_ne_nil _ _, hchain, hpieces⟩
  · rw [hchain]
    exact segments_of_spelled hpieces

/-- A chain of one known filter applies that. -/
theorem applyChain_of_segment {filters : Registry} {chain : Text} {segment : Segment}
    {filter : Filter} (hsegments : segments chain = [segment])
    (hfind : filters.find? segment.filter = some filter) (value : Option Value) :
    applyChain filters value chain
      = Render.ofExcept (filter.apply value (readArguments segment.arguments)) := by
  unfold applyChain applySegment
  rw [hsegments, List.foldlM_cons]
  simp only [hfind]
  exact bind_pure _

/-! ## Filters in order -/

/-- The notices about the filters that are not known, in order. -/
def Registry.unknown (filters : Registry) (list : List Segment) : List Notice :=
  (list.filter fun segment => (filters.find? segment.filter).isNone).map fun segment =>
    .unknownFilter segment.filter

/-- Puts down notices, in order. -/
def State.noteAll (list : List Notice) (s : State) : State :=
  { s with notices := list.reverse ++ s.notices }

theorem State.noteAll_append (first rest : List Notice) (s : State) :
    s.noteAll (first ++ rest) = (s.noteAll first).noteAll rest := by
  simp [noteAll]

theorem Registry.unknown_append (filters : Registry) (first rest : List Segment) :
    filters.unknown (first ++ rest) = filters.unknown first ++ filters.unknown rest := by
  unfold unknown
  rw [List.filter_append, List.map_append]

/-- The course of one segment. -/
theorem applySegment_eq (filters : Registry) (value : Option Value) (segment : Segment)
    (s : State) : applySegment filters value segment s =
      match filters.pass value segment with
      | .ok next => .ok next (s.noteAll (filters.unknown [segment]))
      | .error e => .error e s := by
  unfold applySegment Registry.pass Registry.unknown
  cases hfind : filters.find? segment.filter with
  | none =>
    have hunknown : [segment].filter (fun segment => (filters.find? segment.filter).isNone)
        = [segment] := List.filter_cons_of_pos (by rw [hfind]; rfl)
    rw [hunknown]
    rfl
  | some filter =>
    have hknown : [segment].filter (fun segment => (filters.find? segment.filter).isNone) = [] :=
      List.filter_cons_of_neg (by simp [hfind])
    rw [hknown]
    dsimp only
    cases filter.apply value (readArguments segment.arguments) <;> rfl

/-- A program applies the filters of segments to a value, one after the other. -/
structure AppliesInOrder (filters : Registry) (list : List Segment) (value : Option Value)
    (x : Render (Option Value)) : Prop where
  /-- It returns what is left after the last one, with a notice for each that is not known. -/
  returns : ∀ s next t, x s = .ok next t ↔
    list.foldlM filters.pass value = .ok next ∧ t = s.noteAll (filters.unknown list)
  /-- It fails where the first one does, and has not come to those behind it. -/
  fails : ∀ s e t, x s = .error e t ↔ ∃ first segment rest v, list = first ++ segment :: rest ∧
    first.foldlM filters.pass value = .ok v ∧ filters.pass v segment = .error e ∧
    t = s.noteAll (filters.unknown first)

section
variable {filters : Registry} {segment : Segment} {rest : List Segment} {value : Option Value}

theorem appliesInOrder_nil (filters : Registry) (value : Option Value) :
    AppliesInOrder filters [] value (pure value) where
  returns s next t := by
    constructor
    · intro h
      cases h
      exact ⟨rfl, rfl⟩
    · rintro ⟨h, rfl⟩
      cases h
      rfl
  fails s e t := by
    constructor
    · intro h
      cases h
    · rintro ⟨first, segment, rest, v, h, -⟩
      simp at h

/-- Where the first filter fails, nothing is applied before it or behind it. -/
theorem appliesInOrder_of_error {e : Failure} (hpass : filters.pass value segment = .error e)
    (f : Option Value → Render (Option Value)) :
    AppliesInOrder filters (segment :: rest) value (applySegment filters value segment >>= f) := by
  have hstep (s : State) : applySegment filters value segment s = .error e s := by
    rw [applySegment_eq, hpass]
  constructor
  · intro s next t
    rw [bind_of_error (hstep s), List.foldlM_cons, hpass]
    constructor
    · intro h
      cases h
    · rintro ⟨h, -⟩
      cases h
  · intro s e' t
    rw [bind_of_error (hstep s)]
    constructor
    · intro h
      cases h
      exact ⟨[], segment, rest, value, rfl, rfl, hpass, rfl⟩
    · rintro ⟨first, segment', rest', v, hlist, hfirst, hfails, rfl⟩
      cases first with
      | nil =>
        cases hlist
        cases hfirst
        rw [hpass] at hfails
        cases hfails
        rfl
      | cons _ first =>
        cases hlist
        rw [List.foldlM_cons, hpass] at hfirst
        cases hfirst

/-- Where the first filter returns, the others are applied to what it has left. -/
theorem AppliesInOrder.cons {next : Option Value} {f : Option Value → Render (Option Value)}
    (hpass : filters.pass value segment = .ok next)
    (h : AppliesInOrder filters rest next (f next)) :
    AppliesInOrder filters (segment :: rest) value (applySegment filters value segment >>= f) := by
  have hstep (s : State) : applySegment filters value segment s
      = .ok next (s.noteAll (filters.unknown [segment])) := by
    rw [applySegment_eq, hpass]
  have hnoted (s : State) (list : List Segment) :
      (s.noteAll (filters.unknown [segment])).noteAll (filters.unknown list)
        = s.noteAll (filters.unknown (segment :: list)) := by
    rw [← State.noteAll_append, ← Registry.unknown_append]
    rfl
  constructor
  · intro s last t
    rw [bind_of_ok (hstep s), h.returns, List.foldlM_cons, hpass, hnoted]
    rfl
  · intro s e t
    rw [bind_of_ok (hstep s), h.fails]
    constructor
    · rintro ⟨first, segment', rest', v, rfl, hfirst, hfails, rfl⟩
      refine ⟨segment :: first, segment', rest', v, rfl, ?_, hfails, hnoted s first⟩
      rw [List.foldlM_cons, hpass]
      exact hfirst
    · rintro ⟨first, segment', rest', v, hlist, hfirst, hfails, rfl⟩
      cases first with
      | nil =>
        cases hlist
        cases hfirst
        rw [hpass] at hfails
        cases hfails
      | cons _ first =>
        cases hlist
        rw [List.foldlM_cons, hpass] at hfirst
        exact ⟨first, segment', rest', v, rfl, hfirst, hfails, (hnoted s first).symm⟩

theorem appliesInOrder_foldlM (filters : Registry) (list : List Segment) (value : Option Value) :
    AppliesInOrder filters list value (list.foldlM (applySegment filters) value) := by
  induction list generalizing value with
  | nil => exact appliesInOrder_nil filters value
  | cons segment rest ih =>
    rw [List.foldlM_cons]
    cases hpass : filters.pass value segment with
    | error e => exact appliesInOrder_of_error hpass _
    | ok next => exact .cons hpass (ih next)

end

/-- **A chain is read as it is spelled, and its filters are applied in order.**  A text that is one
filtered placeholder, with blanks wherever they may stand, is found whole, and its chain is cut into
just the segments that it is spelled with, whatever their argument lists hold.  Each known filter
gets the arguments of its own segment, an unknown one changes nothing, and the first failure ends
the chain.  So one chain behind another is applied to what the first has left. -/
theorem chains_applied_as_spelled {before path behind : Text} {pieces : List Text}
    {list : List Segment} (hbefore : before.AllBlank) (hbehind : behind.AllBlank)
    (hpath : path.isPath = true) (hne : pieces ≠ [])
    (hpieces : List.Forall₂ Segment.Spelled pieces list) :
    let chain := pieces.flatten
    let text := '{' :: '{' :: (before ++ (path ++ (behind ++ (chain ++ ['}', '}']))))
    occurrences filteredAt text = [⟨⟨path, chain⟩, 0, text.length⟩] ∧
    segments chain = list ∧
    ∀ (filters : Registry) (value : Option Value),
      AppliesInOrder filters list value (applyChain filters value chain) ∧
      ∀ (pieces' : List Text) (list' : List Segment),
        List.Forall₂ Segment.Spelled pieces' list' →
          applyChain filters value (chain ++ pieces'.flatten)
            = applyChain filters value chain >>= fun next =>
                applyChain filters next pieces'.flatten := by
  intro chain text
  have hspelled : Filtered.Spelled text ⟨path, chain⟩ :=
    ⟨⟨before, behind, hbefore, hbehind, hpath, rfl⟩, pieces, list, hne, rfl, hpieces⟩
  have hchain : segments chain = list := segments_of_spelled hpieces
  refine ⟨occurrences_filteredAt_of_spelled hspelled, hchain, fun filters value => ⟨?_, ?_⟩⟩
  · unfold applyChain
    rw [hchain]
    exact appliesInOrder_foldlM filters list value
  · intro pieces' list' hpieces'
    have hboth : segments (chain ++ pieces'.flatten) = list ++ list' := by
      rw [← List.flatten_append]
      exact segments_of_spelled (List.rel_append hpieces hpieces')
    unfold applyChain
    rw [hboth, hchain, segments_of_spelled hpieces', List.foldlM_append]

/-- An argument list with a bar, a parenthesis, braces and a line end, behind an unknown filter. -/
theorem chains_applied_as_spelled_of_bars :
    let argument : Text := "'| a(".toList ++ '}' :: '}' :: "\n'".toList
    let list : List Segment := [⟨"shout".toList, none⟩, ⟨"default".toList, some argument⟩]
    let pieces : List Text := ["|shout ".toList, "|\ndefault (".toList ++ argument ++ [')']]
    let text : Text := ['{', '{', '\t'] ++ "x.y".toList ++ pieces.flatten ++ ['}', '}']
    (Text.AllBlank ['\t'] ∧ Text.AllBlank [] ∧ Text.isPath "x.y".toList = true ∧ pieces ≠ [] ∧
      List.Forall₂ Segment.Spelled pieces list) ∧
    occurrences filteredAt text = [⟨⟨"x.y".toList, pieces.flatten⟩, 0, text.length⟩] ∧
    segments pieces.flatten = list ∧
    AppliesInOrder .standard list none (applyChain .standard none pieces.flatten) := by
  intro argument list pieces text
  have htab : Text.AllBlank ['\t'] := List.forall_mem_singleton.mpr (by decide)
  have hlineEnd : Text.AllBlank ['\n'] := List.forall_mem_singleton.mpr (by decide)
  have hnone : Text.AllBlank [] := nofun
  have hpath : Text.isPath "x.y".toList = true := by decide +kernel
  have hshout : Segment.Spelled "|shout ".toList ⟨"shout".toList, none⟩ :=
    ⟨[], [' '], [], [], hnone, Text.allBlank_blank, hnone, by decide +kernel, .none, rfl⟩
  have hdefault : Segment.Spelled ("|\ndefault (".toList ++ argument ++ [')'])
      ⟨"default".toList, some argument⟩ :=
    ⟨['\n'], [' '], _, [], hlineEnd, Text.allBlank_blank, hnone, by decide +kernel,
      .some (by decide), rfl⟩
  have hpieces : List.Forall₂ Segment.Spelled pieces list := .cons hshout (.cons hdefault .nil)
  have hne : pieces ≠ [] := List.cons_ne_nil _ _
  obtain ⟨hfound, hsegments, happlied⟩ :=
    chains_applied_as_spelled htab hnone hpath hne hpieces
  exact ⟨⟨htab, hnone, hpath, hne, hpieces⟩, hfound, hsegments, (happlied .standard none).1⟩

end Stencil
