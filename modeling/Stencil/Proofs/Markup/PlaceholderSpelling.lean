import Stencil.Markup.Placeholder
import Stencil.Proofs.Markup.Written
import Stencil.Proofs.Text.Chunk
import Stencil.Proofs.Text.Leftmost
import Stencil.Proofs.Text.Repeated

/-!
# How a placeholder is spelled

A placeholder is taken from the head of a text for what stands between its braces alone, blanks
aside (`plainAt_takes`, `filteredAt_takes`):

    {{  blanks  path  blanks                        }}
    {{  blanks  path  blanks  segment ... segment   }}
    segment:  |  blanks  name  blanks  ( list )  blanks

A list, if there is one, goes up to the first closing parenthesis, whatever else it holds.
-/

namespace Stencil

/-- The piece of a text that is taken for a plain placeholder with this path. -/
def PlainSpelled (piece path : Text) : Prop :=
  ∃ before behind : Text, before.AllBlank ∧ behind.AllBlank ∧ path.isPath = true ∧
    piece = '{' :: '{' :: (before ++ (path ++ (behind ++ ['}', '}'])))

/-- The argument list of a segment, with its parentheses, if there is one. -/
inductive ListSpelled : Text → Option Text → Prop
  | none : ListSpelled [] none
  | some {list : Text} (h : ')' ∉ list) : ListSpelled ('(' :: (list ++ [')'])) (some list)

/-- The piece of a text that is taken for a segment of a chain. -/
def Segment.Spelled (piece : Text) (segment : Segment) : Prop :=
  ∃ before middle list behind : Text, before.AllBlank ∧ middle.AllBlank ∧ behind.AllBlank ∧
    segment.filter.isWord = true ∧ ListSpelled list segment.arguments ∧
    piece = '|' :: (before ++ (segment.filter ++ (middle ++ (list ++ behind))))

/-- The piece of a text that is taken for a filtered placeholder. -/
def Filtered.Spelled (piece : Text) (f : Filtered) : Prop :=
  (∃ before behind : Text, before.AllBlank ∧ behind.AllBlank ∧ f.path.isPath = true ∧
    piece = '{' :: '{' :: (before ++ (f.path ++ (behind ++ (f.chain ++ ['}', '}']))))) ∧
  ∃ pieces segments, pieces ≠ [] ∧ f.chain = pieces.flatten ∧
    List.Forall₂ Segment.Spelled pieces segments

/-! ## The path of a placeholder -/

theorem placeholderPathAt_eq_some {t path rest : Text} (h : placeholderPathAt t = some (path, rest)) :
    ∃ before behind : Text, before.AllBlank ∧ behind.AllBlank ∧ path.isPath = true ∧
      t = '{' :: '{' :: (before ++ (path ++ (behind ++ rest))) := by
  unfold placeholderPathAt at h
  split at h
  · rename_i t
    obtain ⟨⟨word, u⟩, hrun, h⟩ := Option.bind_eq_some_iff.mp h
    cases h
    obtain ⟨hne, hstrip, hpath, -⟩ := Text.run?_eq_some_iff.mp hrun
    obtain ⟨before, hbefore, ht⟩ := Text.exists_blanks t
    obtain ⟨behind, hbehind, hu⟩ := Text.exists_blanks u
    refine ⟨before, behind, hbefore, hbehind, Text.isPath_iff.mpr ⟨hne, hpath⟩, ?_⟩
    rw [← hu, ← hstrip, ← ht]
  · cases h

/-- What begins with neither a blank nor a character of a path ends the path. -/
theorem placeholderPathAt_of_spelled {before path behind rest : Text} (hbefore : before.AllBlank)
    (hbehind : behind.AllBlank) (hpath : path.isPath = true)
    (hrest : ∀ c ∈ rest.head?, isBlank c = false ∧ isPathChar c = false) :
    placeholderPathAt ('{' :: '{' :: (before ++ (path ++ (behind ++ rest)))) = some (path, rest) := by
  have hstart : Text.stripStart (before ++ (path ++ (behind ++ rest))) = path ++ (behind ++ rest) := by
    rw [Text.stripStart_append_of_blank hbefore]
    exact Text.stripStart_append_of_path hpath _
  have hend : Text.stripStart (behind ++ rest) = rest := by
    rw [Text.stripStart_append_of_blank hbehind]
    exact Text.stripStart_of_head fun c hc => (hrest c hc).1
  have hrun := Text.run?_path hpath (t := behind ++ rest)
    (Text.head?_blanks_append (fun c => isPathChar_of_isBlank) hbehind fun c hc => (hrest c hc).2)
  unfold placeholderPathAt
  simp only [hstart, hrun, Option.bind_eq_bind, Option.bind_some, hend]
  rfl

theorem placeholderEnd?_eq_some_iff {t rest : Text} :
    placeholderEnd? t = some rest ↔ t = '}' :: '}' :: rest := by
  unfold placeholderEnd?
  split
  · simp
  · rename_i h
    simp only [reduceCtorEq, false_iff]
    rintro rfl
    exact h _ rfl

/-- What the closing braces end. -/
theorem brace_ends : ∀ (rest : Text), ∀ c ∈ ('}' :: rest).head?,
    isBlank c = false ∧ isPathChar c = false := by
  rintro rest c ⟨⟩
  decide +kernel

/-- What the bar of a segment ends. -/
theorem bar_ends : ∀ (rest : Text), ∀ c ∈ ('|' :: rest).head?,
    isBlank c = false ∧ isPathChar c = false := by
  rintro rest c ⟨⟩
  decide +kernel

/-- **A plain placeholder is what is spelled like one**, whatever follows. -/
theorem plainAt_takes : Recogniser.Takes plainAt PlainSpelled where
  not_nil := by
    rintro path ⟨before, behind, -, -, -, hpiece⟩
    cases hpiece
  eq_some_iff := by
    intro t path rest
    constructor
    · intro h
      obtain ⟨⟨p, u⟩, hp, h⟩ := Option.bind_eq_some_iff.mp h
      obtain ⟨v, hv, h⟩ := Option.bind_eq_some_iff.mp h
      cases h
      obtain ⟨before, behind, hbefore, hbehind, hpath, rfl⟩ := placeholderPathAt_eq_some hp
      obtain rfl := placeholderEnd?_eq_some_iff.mp hv
      exact ⟨_, by simp, before, behind, hbefore, hbehind, hpath, rfl⟩
    · rintro ⟨piece, rfl, before, behind, hbefore, hbehind, hpath, rfl⟩
      have hread := placeholderPathAt_of_spelled hbefore hbehind hpath (brace_ends ('}' :: rest))
      have ht : '{' :: '{' :: (before ++ (path ++ (behind ++ ['}', '}']))) ++ rest
          = '{' :: '{' :: (before ++ (path ++ (behind ++ '}' :: '}' :: rest))) := by
        simp
      rw [ht]
      unfold plainAt
      simp only [hread, Option.bind_eq_bind, Option.bind_some, placeholderEnd?]
      rfl

/-! ## Chains -/

theorem argumentListAt_eq_some {t list rest : Text} (h : argumentListAt t = some (list, rest)) :
    ')' ∉ list ∧ t = '(' :: (list ++ ')' :: rest) := by
  unfold argumentListAt at h
  split at h
  · rename_i t
    split at h
    · rename_i c rest' hdrop
      cases h
      have hlist : ∀ d ∈ t.takeWhile (· != ')'), (d != ')') = true :=
        List.all_eq_true.mp List.all_takeWhile
      obtain rfl : c = ')' := by
        have := List.head?_dropWhile_not (· != ')') t
        rw [hdrop] at this
        simpa using this
      have ht := List.takeWhile_append_dropWhile (p := (· != ')')) (l := t)
      rw [hdrop] at ht
      exact ⟨fun hmem => by simpa using hlist ')' hmem, by rw [ht]⟩
    · cases h
  · cases h

theorem argumentListAt_written {list : Text} (h : ')' ∉ list) (rest : Text) :
    argumentListAt ('(' :: (list ++ ')' :: rest)) = some (list, rest) := by
  simp only [argumentListAt, Text.dropWhile_ne h, Text.takeWhile_ne h]

/-- A text that does not belong to the segment before it. -/
def ClosesSegment (t : Text) : Prop :=
  ∀ c ∈ t.head?, isBlank c = false ∧ isWordChar c = false ∧ c ≠ '('

theorem closesSegment_nil : ClosesSegment [] :=
  nofun

theorem closesSegment_brace (rest : Text) : ClosesSegment ('}' :: rest) := by
  rintro c ⟨⟩
  decide +kernel

theorem Segment.Spelled.exists_cons {piece : Text} {segment : Segment} (h : segment.Spelled piece) :
    ∃ t, piece = '|' :: t := by
  obtain ⟨before, middle, list, behind, -, -, -, -, -, rfl⟩ := h
  exact ⟨_, rfl⟩

/-- A chain begins with a bar. -/
theorem closesSegment_flatten {pieces : List Text} {segments : List Segment}
    (h : List.Forall₂ Segment.Spelled pieces segments) {rest : Text} (hrest : ClosesSegment rest) :
    ClosesSegment (pieces.flatten ++ rest) := by
  cases h with
  | nil => exact hrest
  | cons hpiece _ =>
    obtain ⟨t, rfl⟩ := hpiece.exists_cons
    rintro c ⟨⟩
    decide +kernel

theorem segmentAt_eq_some {t rest : Text} {segment : Segment}
    (h : segmentAt t = some (segment, rest)) : ∃ piece, t = piece ++ rest ∧ segment.Spelled piece := by
  unfold segmentAt at h
  split at h
  · rename_i t
    obtain ⟨⟨word, u⟩, hrun, h⟩ := Option.bind_eq_some_iff.mp h
    obtain ⟨hne, hstrip, hword, -⟩ := Text.run?_eq_some_iff.mp hrun
    have hword : Text.isWord word = true := Text.isWord_iff.mpr ⟨hne, hword⟩
    obtain ⟨before, hbefore, ht⟩ := Text.exists_blanks t
    obtain ⟨middle, hmiddle, hu⟩ := Text.exists_blanks u
    rw [hstrip] at ht
    dsimp only at h
    split at h
    · rename_i list v hlist
      cases h
      obtain ⟨hclosed, hv⟩ := argumentListAt_eq_some hlist
      obtain ⟨behind, hbehind, hrest⟩ := Text.exists_blanks v
      refine ⟨_, ?_, before, middle, _, behind, hbefore, hmiddle, hbehind, hword, .some hclosed, rfl⟩
      conv => lhs; rw [ht, hu, hv, hrest]
      simp
    · cases h
      refine ⟨_, ?_, before, middle, _, [], hbefore, hmiddle, nofun, hword, .none, rfl⟩
      conv => lhs; rw [ht, hu]
      simp
  · cases h

/-- A segment is read back where nothing follows that belongs to it. -/
theorem segmentAt_of_spelled {piece rest : Text} {segment : Segment} (h : segment.Spelled piece)
    (hrest : ClosesSegment rest) : segmentAt (piece ++ rest) = some (segment, rest) := by
  obtain ⟨before, middle, list, behind, hbefore, hmiddle, hbehind, hword, hlist, rfl⟩ := h
  obtain ⟨filter, arguments⟩ := segment
  have hstart (t : Text) : Text.stripStart (before ++ (filter ++ t)) = filter ++ t := by
    rw [Text.stripStart_append_of_blank hbefore]
    exact Text.stripStart_append_of_path (Text.isPath_of_isWord hword) t
  have hend : Text.stripStart (behind ++ rest) = rest := by
    rw [Text.stripStart_append_of_blank hbehind]
    exact Text.stripStart_of_head fun c hc => (hrest c hc).1
  have hrun {t : Text} (ht : ∀ c ∈ t.head?, isWordChar c = false) :
      Text.run? isWordChar (filter ++ (middle ++ t)) = some (filter, middle ++ t) :=
    Text.run?_word hword (Text.head?_blanks_append (fun c => isWordChar_of_isBlank) hmiddle ht)
  cases hlist with
  | none =>
    have hblank : (middle ++ behind).AllBlank := fun c hc =>
      (List.mem_append.mp hc).elim (hmiddle c) (hbehind c)
    have hmiddleEnd : Text.stripStart (middle ++ (behind ++ rest)) = rest := by
      rw [Text.stripStart_append_of_blank hmiddle, hend]
    have hnoList : argumentListAt rest = none := by
      unfold argumentListAt
      split
      · exact absurd rfl (hrest '(' rfl).2.2
      · rfl
    have hread := hrun (Text.head?_blanks_append (fun c => isWordChar_of_isBlank) hbehind
      fun c hc => (hrest c hc).2.1)
    simp only [List.nil_append, List.cons_append, List.append_assoc]
    unfold segmentAt
    simp only [hstart, hread, Option.bind_eq_bind, Option.bind_some, hmiddleEnd, hnoList]
    rfl
  | @some list hclosed =>
    have hread := hrun (t := '(' :: (list ++ ')' :: (behind ++ rest)))
      (by rintro c ⟨⟩; decide +kernel)
    have hmiddleEnd : Text.stripStart (middle ++ '(' :: (list ++ ')' :: (behind ++ rest)))
        = '(' :: (list ++ ')' :: (behind ++ rest)) := by
      rw [Text.stripStart_append_of_blank hmiddle]
      exact Text.stripStart_of_head (by rintro c ⟨⟩; decide)
    simp only [List.nil_append, List.cons_append, List.append_assoc]
    unfold segmentAt
    simp only [hstart, hread, Option.bind_eq_bind, Option.bind_some, hmiddleEnd,
      argumentListAt_written hclosed, hend]
    rfl

theorem Segment.not_spelled_nil (segment : Segment) : ¬ segment.Spelled [] := by
  intro h
  obtain ⟨t, ht⟩ := h.exists_cons
  cases ht

/-- A chain is taken segment by segment. -/
theorem repeated_of_spelled {pieces : List Text} {segments : List Segment}
    (h : List.Forall₂ Segment.Spelled pieces segments) {rest : Text} (hrest : ClosesSegment rest)
    (hstop : segmentAt rest = none) :
    repeated segmentAt (pieces.flatten ++ rest) = (segments, rest) := by
  induction h with
  | nil => exact repeated_of_none hstop
  | @cons piece segment pieces segments hpiece hpieces ih =>
    have hne : piece ≠ [] := fun hnil => segment.not_spelled_nil (hnil ▸ hpiece)
    have hread := segmentAt_of_spelled hpiece (closesSegment_flatten hpieces hrest)
    rw [List.flatten_cons, List.append_assoc, repeated_of_some hne hread, ih]

/-- A chain on its own is read back segment by segment. -/
theorem segments_of_spelled {pieces : List Text} {found : List Segment}
    (h : List.Forall₂ Segment.Spelled pieces found) : segments pieces.flatten = found := by
  suffices hall : ∀ pos, (occurrencesFrom segmentAt 0 pos pieces.flatten).map Occurrence.item = found
    from hall 0
  induction h with
  | nil => exact fun _ => rfl
  | @cons piece segment pieces found hpiece hpieces ih =>
    intro pos
    have hclosed := closesSegment_flatten hpieces closesSegment_nil
    rw [List.append_nil] at hclosed
    have hread := segmentAt_of_spelled hpiece hclosed
    obtain ⟨t, rfl⟩ := hpiece.exists_cons
    rw [List.flatten_cons, List.cons_append, Chunk.occurrencesFrom_of_some hread, List.map_cons, ih]

/-- What stands before the rest of a text. -/
theorem take_before_rest {t piece rest : Text} (h : t = piece ++ rest) :
    t.take (t.length - rest.length) = piece := by
  rw [h, List.length_append, Nat.add_sub_cancel, List.take_left]

theorem filteredAt_eq_some {t rest : Text} {f : Filtered} (h : filteredAt t = some (f, rest)) :
    ∃ piece, t = piece ++ rest ∧ f.Spelled piece := by
  obtain ⟨⟨path, u⟩, hp, h⟩ := Option.bind_eq_some_iff.mp h
  dsimp only at h
  obtain ⟨v, hv, h⟩ := Option.bind_eq_some_iff.mp h
  split at h
  · cases h
  · rename_i hsome
    cases h
    obtain ⟨before, behind, hbefore, hbehind, hpath, rfl⟩ := placeholderPathAt_eq_some hp
    have hend := placeholderEnd?_eq_some_iff.mp hv
    obtain ⟨pieces, hu, hpieces⟩ := exists_pieces_of_repeated (r := segmentAt)
      Segment.not_spelled_nil (fun t a rest => segmentAt_eq_some) u
    have hchain := take_before_rest hu
    refine ⟨'{' :: '{' :: (before ++ (path ++ (behind ++ (pieces.flatten ++ ['}', '}'])))), ?_,
      ⟨before, behind, hbefore, hbehind, hpath, ?_⟩, pieces, _, ?_, hchain, hpieces⟩
    · conv => lhs; rw [hu, hend]
      simp
    · rw [hchain]
    · rintro rfl
      rw [List.forall₂_nil_left_iff.mp hpieces] at hsome
      exact hsome rfl

theorem filteredAt_of_spelled {piece : Text} {f : Filtered} (h : f.Spelled piece) (rest : Text) :
    filteredAt (piece ++ rest) = some (f, rest) := by
  obtain ⟨⟨before, behind, hbefore, hbehind, hpath, rfl⟩, pieces, found, hne, hchain, hpieces⟩ := h
  obtain ⟨path, chain⟩ := f
  obtain rfl : chain = pieces.flatten := hchain
  have hends : ∀ c ∈ (pieces.flatten ++ '}' :: '}' :: rest).head?,
      isBlank c = false ∧ isPathChar c = false := by
    cases hpieces with
    | nil => exact brace_ends _
    | cons hpiece _ =>
      obtain ⟨t, rfl⟩ := hpiece.exists_cons
      exact bar_ends _
  have hread := placeholderPathAt_of_spelled hbefore hbehind hpath hends
  have hrepeated := repeated_of_spelled hpieces (closesSegment_brace ('}' :: rest)) rfl
  have hsome : found.isEmpty = false := by
    cases hpieces with
    | nil => exact absurd rfl hne
    | cons => rfl
  have ht : '{' :: '{' :: (before ++ (path ++ (behind ++ (pieces.flatten ++ ['}', '}'])))) ++ rest
      = '{' :: '{' :: (before ++ (path ++ (behind ++ (pieces.flatten ++ '}' :: '}' :: rest)))) := by
    simp
  rw [ht]
  unfold filteredAt
  simp only [hread, Option.bind_eq_bind, Option.bind_some, hrepeated, placeholderEnd?, hsome,
    take_before_rest (rfl : pieces.flatten ++ '}' :: '}' :: rest = _)]
  rfl

/-- **A filtered placeholder is what is spelled like one**, whatever follows. -/
theorem filteredAt_takes : Recogniser.Takes filteredAt fun piece f => f.Spelled piece where
  not_nil := by
    rintro f ⟨⟨before, behind, -, -, -, hpiece⟩, -⟩
    cases hpiece
  eq_some_iff t f rest := by
    constructor
    · exact filteredAt_eq_some
    · rintro ⟨piece, rfl, hspelled⟩
      exact filteredAt_of_spelled hspelled rest

end Stencil
