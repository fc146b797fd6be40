import Stencil.Proofs.Markup.PlaceholderSpelling
import Stencil.Proofs.Template.NoBrace

/-!
# Pieces read back

How the recognisers read the pieces of a tree, whatever follows them in the text: the one for plain
placeholders finds these and passes over all else (`Piece.readBy_plainAt`), the one for filtered
placeholders likewise (`Piece.readBy_filteredAt`), and no piece is taken for a tag
(`Piece.passed_tagAt`).  A chain of filters is read back call by call (`segments_chain`).
-/

namespace Stencil

/-! ## Chains -/

/-- The segment that a call is read as. -/
def Call.segment (c : Call) : Segment :=
  ⟨c.filter.name, c.arguments⟩

/-- The text of a chain of filters. -/
def chain (calls : List Call) : Text :=
  calls.flatMap Call.print

theorem isWord_name (b : Builtin) : b.name.isWord = true := by
  cases b <;> decide +kernel

/-- A call is spelled as a segment. -/
theorem Call.spelled_segment {c : Call} (hc : c.WellFormed) : c.segment.Spelled c.print := by
  obtain ⟨filter, arguments⟩ := c
  have hname := isWord_name filter
  cases arguments with
  | none => exact ⟨[' '], [], [], [' '], Text.allBlank_blank, nofun, Text.allBlank_blank, hname,
      .none, by simp [print, segment]⟩
  | some list => exact ⟨[' '], [], _, [' '], Text.allBlank_blank, nofun, Text.allBlank_blank, hname,
      .some (hc list rfl).2, by simp [print, segment]⟩

/-- A chain is spelled as its segments. -/
theorem spelled_calls {calls : List Call} (hc : ∀ c ∈ calls, c.WellFormed) :
    List.Forall₂ Segment.Spelled (calls.map Call.print) (calls.map Call.segment) := by
  rw [List.forall₂_map_left_iff, List.forall₂_map_right_iff, List.forall₂_same]
  exact fun c hmem => Call.spelled_segment (hc c hmem)

/-- A chain on its own is read back call by call. -/
theorem segments_chain {calls : List Call} (hc : ∀ c ∈ calls, c.WellFormed) :
    segments (chain calls) = calls.map Call.segment :=
  segments_of_spelled (spelled_calls hc)

/-! ## Placeholders -/

theorem print_plain (path : Text) :
    (Piece.plain path).print = '{' :: '{' :: ' ' :: (path ++ ' ' :: '}' :: ['}']) := by
  show ['{', '{', ' '] ++ path ++ [' ', '}', '}'] = _
  simp

theorem print_filtered (path : Text) (calls : List Call) : (Piece.filtered path calls).print
    = '{' :: '{' :: ' ' :: (path ++ ' ' :: (chain calls ++ '}' :: ['}'])) := by
  show ['{', '{', ' '] ++ path ++ [' '] ++ calls.flatMap Call.print ++ ['}', '}'] = _
  simp [chain]

theorem placeholderPathAt_written {path : Text} (h : path.isPath = true) {rest : Text}
    (hrest : ∀ c ∈ rest.head?, isBlank c = false ∧ isPathChar c = false) :
    placeholderPathAt ('{' :: '{' :: ' ' :: (path ++ ' ' :: rest)) = some (path, rest) :=
  placeholderPathAt_of_spelled Text.allBlank_blank Text.allBlank_blank h hrest

theorem plainAt_plain {path : Text} (h : path.isPath = true) (rest : Text) :
    plainAt ((Piece.plain path).print ++ rest) = some (path, rest) :=
  (plainAt_takes.eq_some_iff _ _ _).mpr ⟨_, rfl, [' '], [' '], Text.allBlank_blank,
    Text.allBlank_blank, h, print_plain path⟩

theorem filteredAt_plain {path : Text} (h : path.isPath = true) (rest : Text) :
    filteredAt ((Piece.plain path).print ++ rest) = none := by
  have hread := placeholderPathAt_written h (brace_ends ('}' :: rest))
  rw [print_plain]
  simp only [List.cons_append, List.append_assoc, List.nil_append]
  unfold filteredAt
  rw [hread]
  rfl

theorem plainAt_filtered {path : Text} {calls : List Call}
    (h : (Piece.filtered path calls).WellFormed) (rest : Text) :
    plainAt ((Piece.filtered path calls).print ++ rest) = none := by
  obtain ⟨hpath, hne, -⟩ := h
  obtain ⟨c, calls, rfl⟩ := List.exists_cons_of_ne_nil hne
  have hbar : ∀ d ∈ (chain (c :: calls) ++ '}' :: '}' :: rest).head?,
      isBlank d = false ∧ isPathChar d = false := bar_ends _
  have hread := placeholderPathAt_written hpath hbar
  rw [print_filtered]
  simp only [List.cons_append, List.append_assoc, List.nil_append]
  unfold plainAt
  rw [hread]
  rfl

theorem filteredAt_filtered {path : Text} {calls : List Call}
    (h : (Piece.filtered path calls).WellFormed) (rest : Text) :
    filteredAt ((Piece.filtered path calls).print ++ rest)
      = some (⟨path, chain calls⟩, rest) := by
  obtain ⟨hpath, hne, hc⟩ := h
  refine (filteredAt_takes.eq_some_iff _ _ _).mpr ⟨_, rfl, ⟨[' '], [' '], Text.allBlank_blank,
    Text.allBlank_blank, hpath, print_filtered path calls⟩, calls.map Call.print, _, ?_, rfl,
    spelled_calls hc⟩
  simpa using hne

/-! ## Pieces as chunks -/

theorem placeholderPathAt_of_ne {c : Char} (h : c ≠ '{') (t : Text) :
    placeholderPathAt (c :: t) = none := by
  unfold placeholderPathAt
  split
  · rename_i he
    exact absurd (List.cons.inj he).1 h
  · rfl

theorem plainAt_of_ne (c : Char) (t : Text) (h : c ≠ '{') : plainAt (c :: t) = none := by
  unfold plainAt
  rw [placeholderPathAt_of_ne h]
  rfl

theorem filteredAt_of_ne (c : Char) (t : Text) (h : c ≠ '{') : filteredAt (c :: t) = none := by
  unfold filteredAt
  rw [placeholderPathAt_of_ne h]
  rfl

theorem tagAt_of_ne (c : Char) (t : Text) (h : c ≠ '{') : tagAt (c :: t) = none := by
  unfold tagAt
  split
  · rename_i he
    exact absurd (List.cons.inj he).1 h
  · rfl

theorem brace_not_mem_path {path : Text} (h : path.isPath = true) : '{' ∉ path := by
  intro hmem
  have := (Text.isPath_iff.mp h).2 '{' hmem
  rw [show isPathChar '{' = false by decide +kernel] at this
  cases this

theorem brace_not_mem_chain {calls : List Call} (hc : ∀ c ∈ calls, c.WellFormed) :
    '{' ∉ chain calls := by
  have hname (b : Builtin) : '{' ∉ b.name := brace_not_mem_path (Text.isPath_of_isWord (isWord_name b))
  intro hmem
  obtain ⟨⟨filter, arguments⟩, hcall, hmem⟩ := List.mem_flatMap.mp hmem
  have hlist := hc _ hcall
  cases arguments with
  | none => simp [Call.print, hname] at hmem
  | some list => simp [Call.print, hname, (hlist list rfl).1] at hmem

/-- A placeholder that a recogniser does not take is passed over: a brace opens nothing else. -/
theorem passed_placeholder {α : Type} {r : Recogniser α} (hr : ∀ c t, c ≠ '{' → r (c :: t) = none)
    (hblank : ∀ t, r ('{' :: ' ' :: t) = none) {u : Text} (hu : '{' ∉ u)
    (h : ∀ rest, r ('{' :: '{' :: ' ' :: (u ++ rest)) = none) :
    Chunk.Passed r ('{' :: '{' :: ' ' :: u) :=
  Chunk.passed_cons (fun rest => h rest) (Chunk.passed_cons (fun rest => hblank (u ++ rest))
    (Chunk.passed_of_not_mem hr (by simp [hu])))

namespace Piece

variable {p : Piece}

/-- A placeholder is two braces, a blank, and what has no brace in it. -/
theorem exists_print_eq (hp : p.WellFormed) :
    (∃ t, p = literal t ∧ '{' ∉ t) ∨ ∃ u, '{' ∉ u ∧ p.print = '{' :: '{' :: ' ' :: u := by
  cases p with
  | literal t => exact .inl ⟨t, rfl, hp⟩
  | plain path =>
    refine .inr ⟨_, ?_, print_plain path⟩
    simp [brace_not_mem_path hp]
  | filtered path calls =>
    refine .inr ⟨_, ?_, print_filtered path calls⟩
    simp [brace_not_mem_path hp.1, brace_not_mem_chain hp.2.2]

/-- A piece that a recogniser does not take at its head is passed over. -/
theorem passed_of_none {α : Type} {r : Recogniser α} (hr : ∀ c t, c ≠ '{' → r (c :: t) = none)
    (hblank : ∀ t, r ('{' :: ' ' :: t) = none) (hp : p.WellFormed)
    (h : ∀ u, p.print = '{' :: u → ∀ rest, r (p.print ++ rest) = none) :
    Chunk.Passed r p.print := by
  rcases exists_print_eq hp with ⟨t, rfl, ht⟩ | ⟨u, hu, he⟩
  · exact Chunk.passed_of_not_mem hr ht
  · have := h _ he
    rw [he] at this ⊢
    exact passed_placeholder hr hblank hu this

/-- No piece is taken for a tag. -/
theorem passed_tagAt (hp : p.WellFormed) : Chunk.Passed tagAt p.print := by
  refine passed_of_none tagAt_of_ne (fun _ => rfl) hp fun u hu rest => ?_
  rcases exists_print_eq hp with ⟨t, rfl, ht⟩ | ⟨v, hv, he⟩
  · rw [show t = '{' :: u from hu] at ht
    exact absurd List.mem_cons_self ht
  · rw [he]
    rfl

/-- The piece for the recogniser of plain placeholders. -/
def plainChunk : Piece → Chunk Text
  | plain path => ⟨(plain path).print, some path⟩
  | p => ⟨p.print, none⟩

theorem readBy_plainAt (hp : p.WellFormed) : p.plainChunk.ReadBy plainAt := by
  cases p with
  | literal t => exact Chunk.passed_of_not_mem plainAt_of_ne hp
  | plain path =>
    exact Chunk.readBy_of_eq (by rw [print_plain]; exact List.cons_ne_nil _ _) (plainAt_plain hp)
  | filtered path calls =>
    exact passed_of_none plainAt_of_ne (fun _ => rfl) hp fun _ _ => plainAt_filtered hp

/-- The piece for the recogniser of filtered placeholders. -/
def filteredChunk : Piece → Chunk Filtered
  | filtered path calls => ⟨(filtered path calls).print, some ⟨path, chain calls⟩⟩
  | p => ⟨p.print, none⟩

theorem readBy_filteredAt (hp : p.WellFormed) : p.filteredChunk.ReadBy filteredAt := by
  cases p with
  | literal t => exact Chunk.passed_of_not_mem filteredAt_of_ne hp
  | plain path =>
    exact passed_of_none filteredAt_of_ne (fun _ => rfl) hp fun _ _ => filteredAt_plain hp
  | filtered path calls =>
    exact Chunk.readBy_of_eq (by rw [print_filtered]; exact List.cons_ne_nil _ _)
      (filteredAt_filtered hp)

theorem text_plainChunk (p : Piece) : p.plainChunk.text = p.print := by
  cases p <;> rfl

theorem text_filteredChunk (p : Piece) : p.filteredChunk.text = p.print := by
  cases p <;> rfl

end Piece

end Stencil
