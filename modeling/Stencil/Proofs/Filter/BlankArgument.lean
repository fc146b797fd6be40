import Stencil.Proofs.Filter.ArgumentList
import Stencil.Proofs.Markup.Mention

/-!
# Blank positions of an argument list

Tokens without commas and quotes are written one after the other with commas between them, and with
blanks around each.  In a list of two tokens or more a position that holds no character at all is
dropped, and one that holds blanks only is read as an empty text (`readArguments_of_plain`):

    "a,,b"    a, b
    "a, ,b"   a, an empty text, b
    ", "      an empty text
    " "       nothing

So where a token is blank, the blanks around it are not without meaning.  What matters of them is
which of the positions that hold anything hold blanks only (`blankPattern`).
-/

namespace Stencil

/-- Which of the positions that hold any character hold blanks only. -/
def blankPattern (pieces : List Text) : List Bool :=
  (pieces.filter fun piece => !piece.isEmpty).map fun piece => piece.strip.isEmpty

section
variable {token piece tail rest : Text} {tokens pieces pieces' : List Text}

/-! ## Tokens and their places -/

namespace Argument.Padded

/-- The tokens that are not blank stand in the list as they are, when it is trimmed. -/
theorem strip_filter (h : List.Forall₂ Padded tokens pieces) :
    (pieces.filter fun piece => !piece.strip.isEmpty).map Text.strip
      = (tokens.filter fun token => !token.strip.isEmpty).map Text.strip := by
  induction h with
  | nil => rfl
  | @cons token piece tokens pieces hpiece _ ih =>
    rw [List.filter_cons, List.filter_cons, hpiece.strip_eq]
    split
    · rw [List.map_cons, List.map_cons, hpiece.strip_eq, ih]
    · exact ih

theorem plain_of_mem (h : List.Forall₂ Padded tokens pieces)
    (htokens : ∀ token ∈ tokens, Plain token) : ∀ piece ∈ pieces, Plain piece := by
  induction h with
  | nil => exact nofun
  | cons hpiece _ ih =>
    obtain ⟨htoken, htokens⟩ := List.forall_mem_cons.mp htokens
    exact List.forall_mem_cons.mpr ⟨hpiece.plain htoken, ih htokens⟩

end Argument.Padded

/-! ## Reading -/

/-- Where there is no argument, the comma is passed over. -/
theorem Followed.occurrencesFrom_argumentAt (h : Followed tail rest) (pos : Nat) :
    ∃ pos', occurrencesFrom argumentAt 0 pos tail = occurrencesFrom argumentAt 0 pos' rest := by
  cases h with
  | last => exact ⟨pos, rfl⟩
  | comma =>
    refine ⟨pos + 1, Chunk.occurrencesFrom_of_none ?_ pos⟩
    unfold argumentAt
    rw [Text.stripStart_cons isBlank_comma]
    rfl

/-- The positions that hold any character are taken one after the other. -/
theorem occurrencesFrom_of_plain (h : ∀ piece ∈ pieces, Argument.Plain piece) (pos : Nat) :
    (occurrencesFrom argumentAt 0 pos ([','].intercalate pieces)).map Occurrence.item
      = (pieces.filter fun piece => !piece.isEmpty).map Text.strip := by
  induction pieces generalizing pos with
  | nil => rfl
  | cons piece pieces ih =>
    obtain ⟨hpiece, hpieces⟩ := List.forall_mem_cons.mp h
    obtain ⟨tail, hfollowed, hlist⟩ := exists_followed piece pieces
    rw [hlist]
    cases piece with
    | nil =>
      obtain ⟨pos', hpos⟩ := hfollowed.occurrencesFrom_argumentAt pos
      rw [List.nil_append, hpos, ih hpieces]
      rfl
    | cons c t =>
      have hne := List.cons_ne_nil c t
      obtain ⟨stop, hfound⟩ :=
        hfollowed.occurrencesFrom_of_taken hne (argumentAt_of_plain hne hpiece hfollowed) pos
      rw [hfound, List.map_cons, ih hpieces]
      rfl

theorem readLiteral_strip (t : Text) : readLiteral t.strip = readLiteral t := by
  unfold readLiteral
  rw [Text.strip_strip]

/-- The values that are read where the arguments of a list are taken. -/
theorem map_readLiteral_of_plain (h : ∀ piece ∈ pieces, Argument.Plain piece) :
    ((occurrences argumentAt ([','].intercalate pieces)).map fun o => readLiteral o.item)
      = (pieces.filter fun piece => !piece.isEmpty).map readLiteral := by
  have hfound := congrArg (List.map readLiteral) (occurrencesFrom_of_plain h 0)
  rw [List.map_map, List.map_map] at hfound
  refine hfound.trans ?_
  exact List.map_congr_left fun piece _ => readLiteral_strip piece

/-- A list of one piece, or none, has no argument if it is blank. -/
theorem readArguments_of_short (h : ∀ piece ∈ pieces, Argument.Plain piece)
    (hlength : pieces.length ≤ 1) :
    readArguments (some ([','].intercalate pieces))
      = (pieces.filter fun piece => !piece.strip.isEmpty).map readLiteral := by
  match pieces, hlength with
  | [], _ => rfl
  | [piece], _ =>
    rw [List.intercalate_singleton]
    unfold readArguments
    cases hstrip : piece.strip with
    | nil => simp [hstrip]
    | cons c t =>
      have hne : piece ≠ [] := by
        rintro rfl
        cases hstrip
      have hread := map_readLiteral_of_plain h
      rw [List.intercalate_singleton] at hread
      simpa [hstrip, hne] using hread

/-- **The arguments of a longer list** are those positions that hold any character. -/
theorem readArguments_of_plain (h : ∀ piece ∈ pieces, Argument.Plain piece)
    (hlength : 1 < pieces.length) :
    readArguments (some ([','].intercalate pieces))
      = (pieces.filter fun piece => !piece.isEmpty).map readLiteral := by
  have hne : Text.strip ([','].intercalate pieces) ≠ [] := by
    match pieces, hlength with
    | first :: second :: rest, _ =>
      refine Text.strip_ne_nil (c := ',') ?_ isBlank_comma
      rw [List.intercalate_cons_cons]
      simp
  unfold readArguments
  simp only [List.isEmpty_iff, if_neg hne]
  exact map_readLiteral_of_plain h

/-! ## What the blanks change -/

/-- No word stands for a text. -/
theorem wordValue?_ne_text (word t : Text) : wordValue? word ≠ some (.text t) := by
  unfold wordValue?
  split_ifs <;> simp

/-- A plain token is read as an empty text just if it is blank. -/
theorem readLiteral_eq_empty_iff (h : Argument.Plain token) :
    readLiteral token = .text [] ↔ token.strip = [] := by
  have hplain : Argument.Plain token.strip := by
    intro c hc
    exact h c ((Text.strip_isInfix token).subset hc)
  have hunquote := hplain.unquote?
  unfold readLiteral
  simp only [hunquote]
  constructor
  · intro hread
    cases hword : wordValue? token.strip.lower with
    | some v =>
      rw [hword] at hread
      have hv : v = .text [] := hread
      subst hv
      exact absurd hword (wordValue?_ne_text _ _)
    | none =>
      cases hinteger : readInteger? token.strip with
      | some n => simp [hword, hinteger] at hread
      | none =>
        cases hfloat : readFloat? token.strip with
        | some x => simp [hword, hinteger, hfloat] at hread
        | none => simpa [hword, hinteger, hfloat] using hread
  · intro hstrip
    rw [hstrip]
    rfl

theorem map_eq_map_of_map_eq {α β γ : Type} {f : α → β} {g : α → γ} {as bs : List α}
    (hfg : ∀ a ∈ as, ∀ b ∈ bs, f a = f b → g a = g b) (h : as.map f = bs.map f) :
    as.map g = bs.map g := by
  induction as generalizing bs with
  | nil =>
    rw [List.map_nil, eq_comm, List.map_eq_nil_iff] at h
    rw [h]
  | cons a as ih =>
    obtain ⟨b, bs, rfl, hab, h⟩ := List.map_eq_cons_iff.mp h.symm
    rw [List.map_cons, List.map_cons, hfg a List.mem_cons_self b List.mem_cons_self hab.symm,
      ih (fun a ha b hb => hfg a (List.mem_cons_of_mem _ ha) b (List.mem_cons_of_mem _ hb)) h.symm]

/-- Texts are known when trimmed by those that are not blank and by where the blank ones stand. -/
theorem map_strip_eq_of_pattern {as bs : List Text}
    (hpattern : (as.map fun a => a.strip.isEmpty) = bs.map fun b => b.strip.isEmpty)
    (hfilter : (as.filter fun a => !a.strip.isEmpty).map Text.strip
      = (bs.filter fun b => !b.strip.isEmpty).map Text.strip) :
    as.map Text.strip = bs.map Text.strip := by
  induction as generalizing bs with
  | nil =>
    rw [List.map_nil, eq_comm, List.map_eq_nil_iff] at hpattern
    rw [hpattern]
  | cons a as ih =>
    obtain ⟨b, bs, rfl, hab, hpattern⟩ := List.map_eq_cons_iff.mp hpattern.symm
    rw [List.filter_cons, List.filter_cons, hab] at hfilter
    rw [List.map_cons, List.map_cons]
    split at hfilter
    · rw [List.map_cons, List.map_cons] at hfilter
      obtain ⟨hhead, hfilter⟩ := List.cons.inj hfilter
      rw [hhead, ih hpattern.symm hfilter]
    · rename_i hblank
      have ha : a.strip.isEmpty = true := by simpa using hblank
      rw [List.isEmpty_iff.mp ha, List.isEmpty_iff.mp (hab.trans ha), ih hpattern.symm hfilter]

/-- A position that is not blank holds a character. -/
theorem filter_strip_filter (pieces : List Text) :
    (pieces.filter fun piece => !piece.isEmpty).filter (fun piece => !piece.strip.isEmpty)
      = pieces.filter fun piece => !piece.strip.isEmpty := by
  rw [List.filter_filter]
  refine List.filter_congr fun piece _ => ?_
  cases piece with
  | nil => rfl
  | cons c t => simp

/-- Texts that are the same when trimmed are read as the same values. -/
theorem map_readLiteral_of_strip {as bs : List Text} (h : as.map Text.strip = bs.map Text.strip) :
    as.map readLiteral = bs.map readLiteral := by
  refine map_eq_map_of_map_eq (fun a _ b _ hab => ?_) h
  rw [← readLiteral_strip a, hab, readLiteral_strip]

/-- In a list of two positions or more the blank ones are dropped just if they hold no blanks. -/
theorem readArguments_eq_filter_iff (h : ∀ piece ∈ pieces, Argument.Plain piece)
    (hlength : 1 < pieces.length) :
    readArguments (some ([','].intercalate pieces))
        = (pieces.filter fun piece => !piece.strip.isEmpty).map readLiteral ↔
      ∀ piece ∈ pieces, piece.AllBlank → piece = [] := by
  rw [readArguments_of_plain h hlength]
  constructor
  · intro heq piece hpiece hblank
    have hall := congrArg List.length heq
    rw [List.length_map, List.length_map, ← filter_strip_filter, eq_comm,
      List.length_filter_eq_length_iff] at hall
    by_contra hne
    have hheld := hall piece (List.mem_filter.mpr ⟨hpiece, by simpa using hne⟩)
    rw [Text.strip_eq_nil_iff.mpr hblank] at hheld
    exact Bool.false_ne_true hheld
  · intro hempty
    congr 1
    refine List.filter_congr fun piece hpiece => ?_
    have hiff : piece = [] ↔ piece.strip = [] := by
      rw [Text.strip_eq_nil_iff]
      constructor
      · rintro rfl
        exact Text.allBlank_nil
      · exact hempty piece hpiece
    rw [Bool.eq_iff_iff]
    simp [hiff]

/-- Two lists of the same tokens are read alike just if the positions that hold anything are blank
in the same places. -/
theorem readArguments_eq_iff_blankPattern (h : ∀ piece ∈ pieces, Argument.Plain piece)
    (h' : ∀ piece ∈ pieces', Argument.Plain piece) (hlength : 1 < pieces.length)
    (hlength' : 1 < pieces'.length)
    (hsame : (pieces.filter fun piece => !piece.strip.isEmpty).map Text.strip
      = (pieces'.filter fun piece => !piece.strip.isEmpty).map Text.strip) :
    readArguments (some ([','].intercalate pieces)) = readArguments (some ([','].intercalate pieces'))
      ↔ blankPattern pieces = blankPattern pieces' := by
  rw [readArguments_of_plain h hlength, readArguments_of_plain h' hlength']
  constructor
  · refine map_eq_map_of_map_eq fun piece hpiece piece' hpiece' heq => ?_
    have hempty := readLiteral_eq_empty_iff (h piece (List.mem_of_mem_filter hpiece))
    have hempty' := readLiteral_eq_empty_iff (h' piece' (List.mem_of_mem_filter hpiece'))
    rw [Bool.eq_iff_iff, List.isEmpty_iff, List.isEmpty_iff, ← hempty, heq, hempty']
  · intro hpattern
    refine map_readLiteral_of_strip (map_strip_eq_of_pattern hpattern ?_)
    rw [filter_strip_filter, filter_strip_filter, hsame]

end

/-- **Blanks next to commas matter in blank positions only.**  Let plain tokens be written with
blanks around them.  Then the tokens that are not blank are all that is read, just if there is but
one token or no blank position holds any blanks.  And with other blanks around the same tokens the
same is read, just if there is but one token or the positions that hold anything are blank in the
same places. -/
theorem readArguments_of_padded {tokens pieces pieces' : List Text}
    (hplain : ∀ token ∈ tokens, Argument.Plain token)
    (h : List.Forall₂ Argument.Padded tokens pieces)
    (h' : List.Forall₂ Argument.Padded tokens pieces') :
    (readArguments (some ([','].intercalate pieces))
          = (tokens.filter fun token => !token.strip.isEmpty).map readLiteral ↔
        tokens.length ≤ 1 ∨ ∀ piece ∈ pieces, piece.AllBlank → piece = []) ∧
      (readArguments (some ([','].intercalate pieces))
          = readArguments (some ([','].intercalate pieces')) ↔
        tokens.length ≤ 1 ∨ blankPattern pieces = blankPattern pieces') := by
  have hpieces := Argument.Padded.plain_of_mem h hplain
  have hpieces' := Argument.Padded.plain_of_mem h' hplain
  have hfilter := Argument.Padded.strip_filter h
  have hfilter' := Argument.Padded.strip_filter h'
  rw [← map_readLiteral_of_strip hfilter]
  by_cases hshort : tokens.length ≤ 1
  · rw [readArguments_of_short hpieces (h.length_eq ▸ hshort),
      readArguments_of_short hpieces' (h'.length_eq ▸ hshort)]
    refine ⟨iff_of_true rfl (.inl hshort), iff_of_true ?_ (.inl hshort)⟩
    exact map_readLiteral_of_strip (hfilter.trans hfilter'.symm)
  · have hlong : 1 < tokens.length := Nat.lt_of_not_le hshort
    rw [or_iff_right hshort, or_iff_right hshort]
    exact ⟨readArguments_eq_filter_iff hpieces (h.length_eq ▸ hlong),
      readArguments_eq_iff_blankPattern hpieces hpieces' (h.length_eq ▸ hlong)
        (h'.length_eq ▸ hlong) (hfilter.trans hfilter'.symm)⟩

/-- Two blank positions, both with blanks in each of the lists. -/
theorem readArguments_of_padded_of_blanks :
    let tokens : List Text := [[], "a".toList, " ".toList, "2".toList]
    let pieces : List Text := [" ".toList, "a".toList, "  ".toList, "2 ".toList]
    let pieces' : List Text := ["  ".toList, " a ".toList, " ".toList, " 2".toList]
    (∀ token ∈ tokens, Argument.Plain token) ∧ List.Forall₂ Argument.Padded tokens pieces ∧
      List.Forall₂ Argument.Padded tokens pieces' ∧
      readArguments (some ([','].intercalate pieces))
        = readArguments (some ([','].intercalate pieces')) ∧
      readArguments (some ([','].intercalate pieces))
        ≠ (tokens.filter fun token => !token.strip.isEmpty).map readLiteral := by
  intro tokens pieces pieces'
  have hplain : ∀ token ∈ tokens, Argument.Plain token := by decide +kernel
  have hnone := Text.allBlank_nil
  have hone := Text.allBlank_blank
  have htwo : Text.AllBlank [' ', ' '] := List.forall_mem_cons.mpr ⟨by decide, hone⟩
  have hpieces : List.Forall₂ Argument.Padded tokens pieces :=
    .cons ⟨[' '], [], hone, hnone, rfl⟩ (.cons ⟨[], [], hnone, hnone, rfl⟩
      (.cons ⟨[' '], [], hone, hnone, rfl⟩ (.cons ⟨[], [' '], hnone, hone, rfl⟩ .nil)))
  have hpieces' : List.Forall₂ Argument.Padded tokens pieces' :=
    .cons ⟨[' ', ' '], [], htwo, hnone, rfl⟩ (.cons ⟨[' '], [' '], hone, hone, rfl⟩
      (.cons ⟨[], [], hnone, hnone, rfl⟩ (.cons ⟨[' '], [], hone, hnone, rfl⟩ .nil)))
  obtain ⟨hdropped, hsame⟩ := readArguments_of_padded hplain hpieces hpieces'
  refine ⟨hplain, hpieces, hpieces', hsame.mpr (.inr (by decide +kernel)), ?_⟩
  intro heq
  rcases hdropped.mp heq with hlength | hempty
  · exact absurd hlength (by decide)
  · cases hempty [' '] List.mem_cons_self hone

/-- The blanks before a comma make an argument of a blank position. -/
theorem readArguments_ne_of_blank_position :
    let tokens : List Text := [[], "a".toList]
    let pieces : List Text := [" ".toList, "a".toList]
    let pieces' : List Text := [[], "a".toList]
    (∀ token ∈ tokens, Argument.Plain token) ∧ List.Forall₂ Argument.Padded tokens pieces ∧
      List.Forall₂ Argument.Padded tokens pieces' ∧
      readArguments (some ([','].intercalate pieces)) = [.text [], .text "a".toList] ∧
      readArguments (some ([','].intercalate pieces')) = [.text "a".toList] ∧
      readArguments (some ([','].intercalate pieces))
        ≠ readArguments (some ([','].intercalate pieces')) := by
  intro tokens pieces pieces'
  have hplain : ∀ token ∈ tokens, Argument.Plain token := by decide +kernel
  have hnone := Text.allBlank_nil
  have hone := Text.allBlank_blank
  refine ⟨hplain, ?_, ?_, rfl, rfl, ?_⟩
  · exact .cons ⟨[' '], [], hone, hnone, rfl⟩ (.cons ⟨[], [], hnone, hnone, rfl⟩ .nil)
  · exact .cons ⟨[], [], hnone, hnone, rfl⟩ (.cons ⟨[], [], hnone, hnone, rfl⟩ .nil)
  · intro heq
    have hlength : 2 = 1 := congrArg List.length heq
    cases hlength

end Stencil
