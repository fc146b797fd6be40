import Stencil.Markup.Argument
import Stencil.Proofs.Markup.Mention
import Stencil.Proofs.Markup.Written
import Stencil.Proofs.Text.Chunk

/-!
# Quoted arguments

Between quotes of a kind that it does not hold, any text is one argument, and stands for itself
(`readArguments_quoted`).  A quote that is not closed is no more than a character of the argument
that it begins, which goes up to the first comma (`readArguments_unclosed`):

    "a, b)"    one argument, the text  a, b)
    "a, b)     two arguments, the texts  "a  and  b)
-/

namespace Stencil

variable {quote : Char}

theorem isQuote_iff {c : Char} : isQuote c = true ↔ c = '"' ∨ c = '\'' := by
  simp [isQuote]

/-- What holds of both quotes holds of a quote. -/
theorem of_isQuote {p : Char → Prop} (hdouble : p '"') (hsingle : p '\'')
    (h : isQuote quote = true) : p quote := by
  rcases isQuote_iff.mp h with rfl | rfl
  · exact hdouble
  · exact hsingle

theorem isBlank_quote (h : isQuote quote = true) : isBlank quote = false :=
  of_isQuote (p := fun c => isBlank c = false) (by decide) (by decide) h

/-! ## Between quotes -/

/-- A quote behind a text without it is where a scan for the quote ends. -/
theorem quotedArgument?_of_quoted {s rest after : Text} (hquote : isQuote quote = true)
    (hfree : quote ∉ s) (hend : argumentEnd? rest = some after) :
    quotedArgument? (quote :: (s ++ quote :: rest)) = some (quote :: (s ++ [quote]), after) := by
  unfold quotedArgument?
  simp only [hquote, if_true, Text.dropWhile_ne hfree, Text.takeWhile_ne hfree, hend,
    Option.map_some, List.cons_append]

/-- The literal between quotes is what they enclose. -/
theorem readLiteral_quoted (hquote : isQuote quote = true) (s : Text) :
    readLiteral (quote :: (s ++ [quote])) = .text s := by
  have hblank := isBlank_quote hquote
  have hstrip : Text.strip (quote :: (s ++ [quote])) = quote :: (s ++ [quote]) := by
    unfold Text.strip
    rw [Text.stripStart_cons hblank]
    exact Text.stripEnd_concat hblank (quote :: s)
  have hunquote : unquote? (quote :: (s ++ [quote])) = some s := by
    show (if isQuote quote = true ∧ (s ++ [quote]).getLast? = some quote then
      some (s ++ [quote]).dropLast else none) = some s
    rw [if_pos ⟨hquote, List.getLast?_concat⟩, List.dropLast_concat]
  unfold readLiteral
  simp only [hstrip, hunquote]

/-- An argument is taken from where its first character stands. -/
theorem argumentAt_append_cons {before : Text} (hbefore : before.AllBlank) {c : Char}
    (hblank : isBlank c = false) (hcomma : c ≠ ',') (t : Text) :
    argumentAt (before ++ c :: t) = some ((quotedArgument? (c :: t)).getD
      (Text.stripEnd ((c :: t).takeWhile (· != ',')), ((c :: t).dropWhile (· != ',')).drop 1)) := by
  have hstart : Text.stripStart (before ++ c :: t) = c :: t := by
    rw [Text.stripStart_append_of_blank hbefore, Text.stripStart_cons hblank]
  unfold argumentAt
  rw [hstart]
  split
  · rename_i hnil
    cases hnil
  · rename_i hcons
    cases hcons
    exact absurd rfl hcomma
  · rfl

theorem comma_ne_quote (hquote : isQuote quote = true) : quote ≠ ',' :=
  of_isQuote (p := (· ≠ ',')) (by decide) (by decide) hquote

/-- An argument that begins with a quote is taken from where the quote stands. -/
theorem argumentAt_cons_quote (hquote : isQuote quote = true) (t : Text) :
    argumentAt (quote :: t) = some ((quotedArgument? (quote :: t)).getD
      (Text.stripEnd ((quote :: t).takeWhile (· != ',')),
        ((quote :: t).dropWhile (· != ',')).drop 1)) :=
  argumentAt_append_cons Text.allBlank_nil (isBlank_quote hquote) (comma_ne_quote hquote) t

/-- A list that begins with a quote is not blank. -/
theorem readArguments_cons_quote (hquote : isQuote quote = true) (t : Text) :
    readArguments (some (quote :: t))
      = (occurrences argumentAt (quote :: t)).map fun o => readLiteral o.item := by
  have hstrip : Text.strip (quote :: t) = quote :: t.stripEnd := by
    unfold Text.strip
    rw [Text.stripStart_cons (isBlank_quote hquote), Text.stripEnd_cons (isBlank_quote hquote)]
  unfold readArguments
  simp [hstrip]

/-- A list that is one text between quotes is one argument, whatever the text is. -/
theorem readArguments_quoted {s : Text} (hquote : isQuote quote = true) (hfree : quote ∉ s) :
    readArguments (some (quote :: (s ++ [quote]))) = [.text s] := by
  have hend : argumentEnd? [] = some [] := rfl
  have hread : argumentAt (quote :: ((s ++ [quote]) ++ []))
      = some (quote :: (s ++ [quote]), []) := by
    rw [List.append_nil, argumentAt_cons_quote hquote, quotedArgument?_of_quoted hquote hfree hend]
    rfl
  have hfound := Chunk.occurrencesFrom_of_some hread 0
  rw [List.append_nil] at hfound
  rw [readArguments_cons_quote hquote]
  unfold occurrences
  rw [hfound, List.map_cons, readLiteral_quoted hquote]
  rfl

/-! ## Quotes that are not closed -/

theorem quotedArgument?_unclosed {t : Text} (hfree : quote ∉ t) :
    quotedArgument? (quote :: t) = none := by
  have hdrop : t.dropWhile (· != quote) = [] := by
    rw [← List.append_nil t, List.dropWhile_append_of_pos (Text.bne_of_not_mem hfree)]
    rfl
  unfold quotedArgument?
  simp only [hdrop, ite_self]

/-- No digits begin with a quote. -/
theorem groupedDigits?_cons_quote (hquote : isQuote quote = true) (t : Text) :
    groupedDigits? (quote :: t) = none := by
  have hdigit : isDigit quote = false :=
    of_isQuote (p := fun c => isDigit c = false) (by decide) (by decide) hquote
  have hbar : (quote == '_') = false :=
    of_isQuote (p := fun c => (c == '_') = false) (by decide) (by decide) hquote
  obtain ⟨group, groups, hgroups⟩ := List.exists_cons_of_ne_nil (List.splitOn_ne_nil '_' t)
  have hsplit : (quote :: t).splitOn '_' = (quote :: group) :: groups := by
    rw [List.splitOn_cons_eq_if_modifyHead, hbar, hgroups]
    rfl
  have hnumeral : Text.isNumeral (quote :: group) = false := by
    simp [Text.isNumeral, hdigit]
  unfold groupedDigits?
  simp [hsplit, hnumeral]

theorem signed_cons_quote (hquote : isQuote quote = true) (t : Text) :
    signed (quote :: t) = (false, quote :: t) := by
  rcases isQuote_iff.mp hquote with rfl | rfl <;> rfl

theorem readInteger?_cons_quote (hquote : isQuote quote = true) (t : Text) :
    readInteger? (quote :: t) = none := by
  unfold readInteger?
  simp only [signed_cons_quote hquote, groupedDigits?_cons_quote hquote]

/-- What begins with a quote is no word for a number, and has no digits before a point. -/
theorem readFloat?_cons_quote (hquote : isQuote quote = true) (t : Text) :
    readFloat? (quote :: t) = none := by
  have hlower : quote.toLower = quote :=
    of_isQuote (p := fun c => c.toLower = c) (by decide) (by decide) hquote
  have hletter : quote ∉ ['i', 'n', 'e', 'E', '.'] :=
    of_isQuote (p := (· ∉ ['i', 'n', 'e', 'E', '.'])) (by decide) (by decide) hquote
  simp only [List.mem_cons, List.not_mem_nil, or_false, not_or] at hletter
  have hmantissa : (cutAt (fun c => c == 'e' || c == 'E') (quote :: t)).1
      = quote :: t.takeWhile fun c => !(c == 'e' || c == 'E') := by
    simp [cutAt, hletter]
  have hwhole (u : Text) : (cutAt (· == '.') (quote :: u)).1
      = quote :: u.takeWhile fun c => !(c == '.') := by
    simp [cutAt, hletter]
  have hdigits (u : Text) : optionalDigits? (quote :: u) = none :=
    groupedDigits?_cons_quote hquote u
  have hinf : (quote :: t).map Char.toLower ≠ "inf".toList ∧
      (quote :: t).map Char.toLower ≠ "infinity".toList ∧
      (quote :: t).map Char.toLower ≠ "nan".toList := by
    rw [List.map_cons, hlower]
    simp [hletter]
  have hmagnitude : readMagnitude? (quote :: t) = none := by
    unfold readMagnitude?
    simp only [hinf, or_self, if_false, hmantissa, hwhole, hdigits]
    rfl
  unfold readFloat?
  simp only [signed_cons_quote hquote, hmagnitude, Option.map_none]

/-- No word for a value begins with a quote. -/
theorem wordValue?_lower_cons_quote (hquote : isQuote quote = true) (t : Text) :
    wordValue? (Text.lower (quote :: t)) = none := by
  have hlower : ∃ u, Text.lower (quote :: t) = quote :: u := by
    rcases isQuote_iff.mp hquote with rfl | rfl
    · exact ⟨_, rfl⟩
    · exact ⟨_, rfl⟩
  have hletter : quote ∉ ['t', 'f', 'n'] :=
    of_isQuote (p := (· ∉ ['t', 'f', 'n'])) (by decide) (by decide) hquote
  simp only [List.mem_cons, List.not_mem_nil, or_false, not_or] at hletter
  obtain ⟨u, hu⟩ := hlower
  unfold wordValue?
  rw [hu]
  simp [hletter]

/-- The literal that begins with a quote and does not have it again is the text as it stands. -/
theorem readLiteral_unclosed {t : Text} (hquote : isQuote quote = true) (hfree : quote ∉ t)
    (hend : t.stripEnd = t) : readLiteral (quote :: t) = .text (quote :: t) := by
  have hblank := isBlank_quote hquote
  have hstrip : Text.strip (quote :: t) = quote :: t := by
    unfold Text.strip
    rw [Text.stripStart_cons hblank, Text.stripEnd_cons hblank, hend]
  have hunquote : unquote? (quote :: t) = none := by
    unfold unquote?
    exact if_neg fun h => hfree (List.mem_of_getLast? h.2)
  unfold readLiteral
  simp only [hstrip, hunquote, wordValue?_lower_cons_quote hquote, readInteger?_cons_quote hquote,
    readFloat?_cons_quote hquote]

/-- Where a quote is not closed, the first argument begins with it. -/
theorem readArguments_unclosed {t : Text} (hquote : isQuote quote = true) (hfree : quote ∉ t) :
    ∃ u, (readArguments (some (quote :: t))).head? = some (.text (quote :: u)) := by
  have hcomma : (quote != ',') = true :=
    of_isQuote (p := fun c => (c != ',') = true) (by decide) (by decide) hquote
  have hcut : (quote :: t).takeWhile (· != ',') = quote :: t.takeWhile (· != ',') :=
    List.takeWhile_cons_of_pos (p := (· != ',')) hcomma
  let u : Text := Text.stripEnd (t.takeWhile (· != ','))
  have hu : quote ∉ u := by
    intro hmem
    have hpart : u <+: t := (Text.stripEnd_isPrefix _).trans (List.takeWhile_prefix _)
    exact hfree (hpart.subset hmem)
  have hread := argumentAt_cons_quote hquote t
  rw [quotedArgument?_unclosed hfree, Option.getD_none, hcut,
    Text.stripEnd_cons (isBlank_quote hquote)] at hread
  refine ⟨u, ?_⟩
  rw [readArguments_cons_quote hquote]
  unfold occurrences
  rw [occurrencesFrom, hread]
  exact congrArg some (readLiteral_unclosed hquote hu (Text.stripEnd_stripEnd _))

end Stencil
