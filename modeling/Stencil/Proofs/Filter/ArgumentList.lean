import Mathlib.Data.List.Forall2
import Stencil.Proofs.Filter.Marks
import Stencil.Proofs.Markup.QuotedArgument
import Stencil.Proofs.Number.Decimal

/-!
# Argument lists that are written and read back

An argument list writes values one after the other, with commas between them and blanks, if any,
around each:

    "a, (b)" ,'say "no"', -12,true ,  none

A text stands between quotes of a kind that it does not hold (`Literal.Spelled`), and so a comma in it
ends no argument.  Nothing else that is written has a comma, a quote or a blank (`Bare`), so that it
goes up to the next comma, less the blanks around it (`argumentAt_of_plain`).  Either way the argument
that is taken is the one that was written, whatever follows the comma (`argumentAt_of_spelled`), and
the list is read as the values it was made of (`readArguments_of_spelled`).
-/

namespace Stencil

/-! ## Spelling -/

/-- What a value is written as: a text between quotes of a kind that it does not hold, an integer in
decimal, and words for the truth values and for nothing. -/
inductive Literal.Spelled : Text → Value → Prop
  | text {quote : Char} {s : Text} (isQuote : isQuote quote = true) (free : quote ∉ s) :
      Spelled (quote :: (s ++ [quote])) (.text s)
  | int {n : Int} (short : (Nat.toDigits 10 n.natAbs).length ≤ maxDigits) :
      Spelled (integerText n) (.int n)
  | bool (b : Bool) : Spelled (if b then "true".toList else "false".toList) (.bool b)
  | null : Spelled "none".toList .null

/-- A value that is written as an argument, with blanks around it. -/
def Argument.Spelled (piece : Text) (v : Value) : Prop :=
  ∃ before token behind : Text, before.AllBlank ∧ behind.AllBlank ∧ Literal.Spelled token v ∧
    piece = before ++ (token ++ behind)

/-- What stands behind an argument: the end of the list, or a comma and the rest of the list. -/
inductive Followed : Text → Text → Prop
  | last : Followed [] []
  | comma (rest : Text) : Followed (',' :: rest) rest

/-- A text that has nothing in it by which an argument list is cut. -/
def Argument.Plain (token : Text) : Prop :=
  ∀ c ∈ token, c ≠ ',' ∧ isQuote c = false

instance : DecidablePred Argument.Plain := fun token =>
  decidable_of_iff (token.all (fun c => c != ',' && !isQuote c) = true)
    (by simp [Argument.Plain, List.all_eq_true])

/-- A token with blanks around it, if any. -/
def Argument.Padded (token piece : Text) : Prop :=
  ∃ before behind : Text, before.AllBlank ∧ behind.AllBlank ∧ piece = before ++ (token ++ behind)

/-- A token that goes up to the comma behind it, less the blanks. -/
structure Bare (token : Text) : Prop where
  ne_nil : token ≠ []
  plain : ∀ c ∈ token, isBlank c = false ∧ isQuote c = false ∧ c ≠ ','

section
variable {before token behind piece tail rest : Text} {v : Value}

theorem isBlank_comma : isBlank ',' = false := by
  decide

theorem Text.comma_not_mem_of_allBlank (h : behind.AllBlank) : ',' ∉ behind := by
  intro hc
  have hcomma := isBlank_comma
  rw [h ',' hc] at hcomma
  cases hcomma

theorem Followed.argumentEnd? (h : Followed tail rest) (hbehind : behind.AllBlank) :
    argumentEnd? (behind ++ tail) = some rest := by
  unfold Stencil.argumentEnd?
  rw [Text.stripStart_append_of_blank hbehind]
  cases h with
  | last => rfl
  | comma => rfl

/-- A text without a comma is what the comma behind it is looked for in. -/
theorem Followed.cut (h : Followed tail rest) {t : Text} (ht : ',' ∉ t) :
    (t ++ tail).takeWhile (· != ',') = t ∧ ((t ++ tail).dropWhile (· != ',')).drop 1 = rest := by
  cases h with
  | last =>
    have hall := Text.bne_of_not_mem ht
    rw [List.takeWhile_append_of_pos hall, List.dropWhile_append_of_pos hall]
    exact ⟨List.append_nil t, rfl⟩
  | comma =>
    rw [Text.takeWhile_ne ht, Text.dropWhile_ne ht]
    exact ⟨rfl, rfl⟩

/-! ## Tokens that are no texts -/

theorem isQuote_of_isBlank {c : Char} (h : isBlank c = true) : isQuote c = false := by
  rw [Bool.eq_false_iff]
  intro hquote
  rw [isBlank_quote hquote] at h
  cases h

theorem Argument.plain_of_allBlank (h : Text.AllBlank behind) : Plain behind := by
  intro c hc
  refine ⟨?_, isQuote_of_isBlank (h c hc)⟩
  rintro rfl
  exact Text.comma_not_mem_of_allBlank h hc

theorem Argument.Plain.unquote? (h : Plain token) : unquote? token = none := by
  cases token with
  | nil => rfl
  | cons c t =>
    refine if_neg fun hquote => ?_
    rw [(h c List.mem_cons_self).2] at hquote
    exact Bool.false_ne_true hquote.1

namespace Argument.Padded

/-- The blanks around a token are trimmed away with its own. -/
theorem strip_eq (h : Padded token piece) : piece.strip = token.strip := by
  obtain ⟨before, behind, hbefore, hbehind, rfl⟩ := h
  rw [← List.append_assoc, Text.strip_append_of_blank _ hbehind]
  unfold Text.strip
  rw [Text.stripStart_append_of_blank hbefore]

theorem plain (h : Padded token piece) (htoken : Plain token) : Plain piece := by
  obtain ⟨before, behind, hbefore, hbehind, rfl⟩ := h
  intro c hc
  rcases List.mem_append.mp hc with hc | hc
  · exact plain_of_allBlank hbefore c hc
  · rcases List.mem_append.mp hc with hc | hc
    · exact htoken c hc
    · exact plain_of_allBlank hbehind c hc

end Argument.Padded

theorem Bare.isPlain (h : Bare token) : Argument.Plain token :=
  fun c hc => (h.plain c hc).2.symm

theorem Bare.strip (h : Bare token) : token.strip = token :=
  Text.strip_of_forall fun c hc => (h.plain c hc).1

theorem bare_integerText (n : Int) : Bare (integerText n) where
  ne_nil := integerText_ne_nil n
  plain c hc := by
    rcases mem_integerText hc with rfl | hdigit
    · decide
    · exact of_isDigit (p := fun c => isBlank c = false ∧ isQuote c = false ∧ c ≠ ',')
        (by decide +kernel) hdigit

/-- No integer is taken for a word. -/
theorem wordValue?_integerText (n : Int) : wordValue? (integerText n) = none := by
  have hwritten : (integerText n).all (fun c => c == '-' || c.isDigit) = true := by
    refine List.all_eq_true.mpr ?_
    intro c hc
    simpa using mem_integerText hc
  have hletters : ∀ word ∈ ["true".toList, "false".toList, "none".toList, "null".toList],
      word.all (fun c => c == '-' || c.isDigit) = false := by
    decide
  have hne : ∀ word ∈ ["true".toList, "false".toList, "none".toList, "null".toList],
      integerText n ≠ word := by
    rintro word hword rfl
    rw [hletters _ hword] at hwritten
    cases hwritten
  unfold wordValue?
  simp only [hne _ (List.mem_cons_self), hne "false".toList (by simp), hne "none".toList (by simp),
    hne "null".toList (by simp), or_self, if_false]

theorem Text.lower_integerText (n : Int) : Text.lower (integerText n) = integerText n := by
  refine keepsCaseless_lower.eq ?_
  intro c hc
  rcases mem_integerText hc with rfl | hdigit
  · decide +kernel
  · exact caseless_of_isDigit hdigit

theorem readLiteral_integerText {n : Int} (h : (Nat.toDigits 10 n.natAbs).length ≤ maxDigits) :
    readLiteral (integerText n) = .int n := by
  have hbare := bare_integerText n
  unfold readLiteral
  simp only [hbare.strip, hbare.isPlain.unquote?, Text.lower_integerText, wordValue?_integerText,
    readInteger?_integerText h]

/-- A token is quoted or bare, and it is read as the value that it is written for. -/
theorem Literal.Spelled.quoted_or_bare (h : Literal.Spelled token v) :
    readLiteral token = v ∧
      ((∃ quote s, isQuote quote = true ∧ quote ∉ s ∧ token = quote :: (s ++ [quote])) ∨
        Bare token) := by
  have hword : ∀ word ∈ ["true".toList, "false".toList, "none".toList], Bare word := by
    intro word hword
    have hplain : ∀ word ∈ ["true".toList, "false".toList, "none".toList],
        word ≠ [] ∧ word.all (fun c => !isBlank c && !isQuote c && c != ',') = true := by
      decide
    obtain ⟨hne, hall⟩ := hplain word hword
    refine ⟨hne, ?_⟩
    intro c hc
    simpa [and_assoc] using List.all_eq_true.mp hall c hc
  cases h with
  | @text quote s hquote free =>
    exact ⟨readLiteral_quoted hquote s, .inl ⟨quote, s, hquote, free, rfl⟩⟩
  | @int n short => exact ⟨readLiteral_integerText short, .inr (bare_integerText n)⟩
  | bool b =>
    cases b with
    | true => exact ⟨rfl, .inr (hword _ (by simp))⟩
    | false => exact ⟨rfl, .inr (hword _ (by simp))⟩
  | null => exact ⟨rfl, .inr (hword _ (by simp))⟩

/-! ## Reading -/

/-- Up to the comma behind it a plain piece is taken for an argument, even if it is blank. -/
theorem argumentAt_of_plain (hne : piece ≠ []) (hpiece : Argument.Plain piece)
    (h : Followed tail rest) : argumentAt (piece ++ tail) = some (piece.strip, rest) := by
  obtain ⟨blanks, hblanks, hsplit⟩ := Text.exists_blanks piece
  cases hstart : piece.stripStart with
  | nil =>
    rw [hstart, List.append_nil] at hsplit
    subst hsplit
    obtain ⟨c, t, rfl⟩ := List.exists_cons_of_ne_nil hne
    have hc : ¬ c = ',' := (hpiece c List.mem_cons_self).1
    rw [Text.strip_eq_nil_iff.mpr hblanks]
    unfold argumentAt
    rw [Text.stripStart_append_of_blank hblanks]
    cases h with
    | last => rfl
    | comma =>
      rw [Text.stripStart_cons isBlank_comma]
      exact if_neg fun hhead => hc (Option.some.inj hhead)
  | cons c t =>
    rw [hstart] at hsplit
    have hbody : ∀ d ∈ c :: t, d ≠ ',' ∧ isQuote d = false := by
      intro d hd
      exact hpiece d (hsplit ▸ List.mem_append_right blanks hd)
    obtain ⟨hc, hquote⟩ := hbody c List.mem_cons_self
    have hcomma : ',' ∉ c :: t := fun hmem => (hbody ',' hmem).1 rfl
    obtain ⟨hcut, hrest⟩ := h.cut hcomma
    have hnone : quotedArgument? (c :: (t ++ tail)) = none := by
      unfold quotedArgument?
      simp only [hquote, Bool.false_eq_true, if_false]
    have hstrip : piece.strip = Text.stripEnd (c :: t) := by
      unfold Text.strip
      rw [hstart]
    rw [hstrip, hsplit, List.append_assoc, List.cons_append,
      argumentAt_append_cons hblanks (Text.isBlank_of_stripStart hstart) hc, hnone,
      Option.getD_none, ← List.cons_append, hcut, hrest]

/-- Behind the blanks at its head, an argument is taken as it is written. -/
theorem argumentAt_of_spelled (h : Argument.Spelled piece v) (hfollowed : Followed tail rest) :
    ∃ token, argumentAt (piece ++ tail) = some (token, rest) ∧ readLiteral token = v := by
  obtain ⟨before, token, behind, hbefore, hbehind, hspelled, rfl⟩ := h
  obtain ⟨hread, hform⟩ := hspelled.quoted_or_bare
  refine ⟨token, ?_, hread⟩
  rcases hform with ⟨quote, s, hquote, hfree, rfl⟩ | hbare
  · have hbody : before ++ (quote :: (s ++ [quote]) ++ behind) ++ tail
        = before ++ quote :: (s ++ quote :: (behind ++ tail)) := by
      simp
    rw [hbody, argumentAt_append_cons hbefore (isBlank_quote hquote) (comma_ne_quote hquote),
      quotedArgument?_of_quoted hquote hfree (hfollowed.argumentEnd? hbehind)]
    rfl
  · have hpadded : Argument.Padded token (before ++ (token ++ behind)) :=
      ⟨before, behind, hbefore, hbehind, rfl⟩
    have hne : before ++ (token ++ behind) ≠ [] := by
      simp [hbare.ne_nil]
    rw [argumentAt_of_plain hne (hpadded.plain hbare.isPlain) hfollowed, hpadded.strip_eq,
      hbare.strip]

theorem Literal.Spelled.exists_mem (h : Literal.Spelled token v) :
    ∃ c ∈ token, isBlank c = false := by
  rcases h.quoted_or_bare.2 with ⟨quote, s, hquote, -, rfl⟩ | hbare
  · exact ⟨quote, List.mem_cons_self, isBlank_quote hquote⟩
  · obtain ⟨c, t, rfl⟩ := List.exists_cons_of_ne_nil hbare.ne_nil
    exact ⟨c, List.mem_cons_self, (hbare.plain c List.mem_cons_self).1⟩

theorem Argument.Spelled.exists_mem (h : Argument.Spelled piece v) :
    ∃ c ∈ piece, isBlank c = false := by
  obtain ⟨before, token, behind, -, -, hspelled, rfl⟩ := h
  obtain ⟨c, hc, hblank⟩ := hspelled.exists_mem
  exact ⟨c, by simp [hc], hblank⟩

/-! ## Lists -/

/-- The first argument of a list is followed by the rest of the list. -/
theorem exists_followed (piece : Text) (pieces : List Text) :
    ∃ tail, Followed tail ([','].intercalate pieces) ∧
      [','].intercalate (piece :: pieces) = piece ++ tail := by
  cases pieces with
  | nil => exact ⟨[], .last, by simp⟩
  | cons next pieces =>
    refine ⟨_, .comma _, ?_⟩
    rw [List.intercalate_cons_cons, List.append_assoc]
    rfl

theorem Followed.exists_append (h : Followed tail rest) : ∃ mark, tail = mark ++ rest := by
  cases h with
  | last => exact ⟨[], rfl⟩
  | comma => exact ⟨[','], rfl⟩

/-- An argument that is taken is the first one, and the others are taken from behind its comma. -/
theorem Followed.occurrencesFrom_of_taken (h : Followed tail rest) (hne : piece ≠ [])
    (htaken : argumentAt (piece ++ tail) = some (token, rest)) (pos : Nat) :
    ∃ stop, occurrencesFrom argumentAt 0 pos (piece ++ tail)
      = ⟨token, pos, stop⟩ :: occurrencesFrom argumentAt 0 stop rest := by
  obtain ⟨mark, rfl⟩ := h.exists_append
  obtain ⟨c, t, rfl⟩ := List.exists_cons_of_ne_nil hne
  have hwhole : (c :: t) ++ (mark ++ rest) = c :: ((t ++ mark) ++ rest) := by
    simp
  rw [hwhole] at htaken ⊢
  exact ⟨_, Chunk.occurrencesFrom_of_some htaken pos⟩

/-- One argument after the other is taken. -/
theorem occurrencesFrom_of_spelled {pieces : List Text} {values : List Value}
    (h : List.Forall₂ Argument.Spelled pieces values) (pos : Nat) :
    ((occurrencesFrom argumentAt 0 pos ([','].intercalate pieces)).map fun o => readLiteral o.item)
      = values := by
  induction h generalizing pos with
  | nil => rfl
  | @cons piece v pieces values hpiece _ ih =>
    obtain ⟨tail, hfollowed, hlist⟩ := exists_followed piece pieces
    obtain ⟨token, htaken, hread⟩ := argumentAt_of_spelled hpiece hfollowed
    obtain ⟨c, hc, -⟩ := hpiece.exists_mem
    obtain ⟨stop, hfound⟩ :=
      hfollowed.occurrencesFrom_of_taken (List.ne_nil_of_mem hc) htaken pos
    rw [hlist, hfound, List.map_cons, hread, ih]

end

/-- **An argument list is read as the values that it is written for**, in their order, whatever the
texts between quotes hold, and whatever blanks stand around each of them. -/
theorem readArguments_of_spelled {pieces : List Text} {values : List Value}
    (h : List.Forall₂ Argument.Spelled pieces values) :
    readArguments (some ([','].intercalate pieces)) = values := by
  have hread := occurrencesFrom_of_spelled h 0
  cases h with
  | nil => rfl
  | @cons piece v pieces values hpiece _ =>
    obtain ⟨tail, -, hlist⟩ := exists_followed piece pieces
    obtain ⟨c, hc, hblank⟩ := hpiece.exists_mem
    have hne : Text.strip ([','].intercalate (piece :: pieces)) ≠ [] :=
      Text.strip_ne_nil (hlist ▸ List.mem_append_left tail hc) hblank
    unfold readArguments
    simp only [List.isEmpty_iff, if_neg hne]
    exact hread

/-- Commas, parentheses, blanks and the other quote between quotes, and blanks of all kinds around. -/
theorem readArguments_of_spelled_of_commas :
    let pieces : List Text := ["\t\"a, (b)\n'\" ".toList, "'say \"no\",'".toList, " -120\n".toList,
      "true".toList, "  none ".toList]
    let values : List Value := [.text "a, (b)\n'".toList, .text "say \"no\",".toList, .int (-120),
      .bool true, .null]
    List.Forall₂ Argument.Spelled pieces values ∧
      readArguments (some ([','].intercalate pieces)) = values := by
  intro pieces values
  have hblanks : ∀ blanks ∈ [['\t'], [' '], ['\n'], [' ', ' '], []], Text.AllBlank blanks := by
    have hall : ∀ blanks ∈ [['\t'], [' '], ['\n'], [' ', ' '], []], blanks.all isBlank = true := by
      decide
    intro blanks hmem
    exact List.all_eq_true.mp (hall blanks hmem)
  have hpieces : List.Forall₂ Argument.Spelled pieces values := by
    refine .cons ?_ (.cons ?_ (.cons ?_ (.cons ?_ (.cons ?_ .nil))))
    · exact ⟨['\t'], _, [' '], hblanks _ (by simp), hblanks _ (by simp),
        @Literal.Spelled.text '"' "a, (b)\n'".toList (by decide) (by decide), rfl⟩
    · exact ⟨[], _, [], hblanks _ (by simp), hblanks _ (by simp),
        @Literal.Spelled.text '\'' "say \"no\",".toList (by decide) (by decide), rfl⟩
    · exact ⟨[' '], _, ['\n'], hblanks _ (by simp), hblanks _ (by simp),
        @Literal.Spelled.int (-120) (by decide), rfl⟩
    · exact ⟨[], _, [], hblanks _ (by simp), hblanks _ (by simp), .bool true, rfl⟩
    · exact ⟨[' ', ' '], _, [' '], hblanks _ (by simp), hblanks _ (by simp), .null, rfl⟩
  exact ⟨hpieces, readArguments_of_spelled hpieces⟩

end Stencil
