import Stencil.Markup.Block
import Stencil.Markup.BlockArgument

/-!
# Tags read back

What is made of tags that are written in the usual way, with one blank between their parts,
whatever follows them: `tagAt_if`, `tagAt_for` and `tagAt_bare` are the cases of `tagAt_written`,
and `loopHeader_ofArgument?_written` takes the header of a loop apart.  All of it rests on blanks
being no part of words and paths.
-/

namespace Stencil

/-! ## Tags as texts -/

def ifMark (condition : Text) : Text :=
  '{' :: "% if ".toList ++ condition ++ [' ', '%', '}']

def elseMark : Text := "{% else %}".toList

def endifMark : Text := "{% endif %}".toList

def forMark (name path : Text) : Text :=
  '{' :: "% for ".toList ++ name ++ " in ".toList ++ path ++ [' ', '%', '}']

def endforMark : Text := "{% endfor %}".toList

/-! ## Blanks, words and paths -/

theorem exists_range_of_within {c : Char} {ranges : List (Nat × Nat)}
    (h : Text.within c ranges = true) : ∃ r ∈ ranges, r.1 ≤ c.toNat ∧ c.toNat ≤ r.2 := by
  induction ranges with
  | nil => cases h
  | cons r ranges ih =>
    obtain ⟨first, last⟩ := r
    unfold Text.within at h
    split at h
    · cases h
    · rcases Bool.or_eq_true_iff.mp h with h | h
      · exact ⟨(first, last), List.mem_cons_self, by omega, by simpa using h⟩
      · obtain ⟨r, hr, hle⟩ := ih h
        exact ⟨r, List.mem_cons_of_mem _ hr, hle⟩

theorem isPathChar_of_isBlank {c : Char} (h : isBlank c = true) : isPathChar c = false := by
  have hcodes : ∀ r ∈ blankRanges, ∀ n ∈ List.range' r.1 (r.2 + 1 - r.1),
      isPathChar (Char.ofNat n) = false := by
    decide +kernel
  obtain ⟨r, hr, h1, h2⟩ := exists_range_of_within h
  have := hcodes r hr c.toNat (List.mem_range'_1.mpr ⟨h1, by omega⟩)
  rwa [Char.ofNat_toNat] at this

theorem isBlank_of_isPathChar {c : Char} (h : isPathChar c = true) : isBlank c = false := by
  cases hb : isBlank c with
  | false => rfl
  | true =>
    rw [isPathChar_of_isBlank hb] at h
    cases h

theorem isPathChar_of_isWordChar {c : Char} (h : isWordChar c = true) : isPathChar c = true := by
  unfold isPathChar
  rw [h]
  rfl

theorem isWordChar_of_isBlank {c : Char} (h : isBlank c = true) : isWordChar c = false := by
  cases hw : isWordChar c with
  | false => rfl
  | true =>
    have := isPathChar_of_isBlank h
    rw [isPathChar_of_isWordChar hw] at this
    cases this

namespace Text

/-- A text of blanks, which may be empty. -/
def AllBlank (t : Text) : Prop :=
  ∀ c ∈ t, isBlank c = true

theorem stripStart_append_of_blank {blanks : Text} (h : blanks.AllBlank) (t : Text) :
    stripStart (blanks ++ t) = t.stripStart :=
  List.dropWhile_append_of_pos h

theorem bne_of_not_mem {c : Char} {t : Text} (h : c ∉ t) : ∀ d ∈ t, (d != c) = true := by
  intro d hd
  rw [bne_iff_ne]
  rintro rfl
  exact h hd

/-- A scan for a character stops where it stands first. -/
theorem takeWhile_ne {c : Char} {t : Text} (h : c ∉ t) (rest : Text) :
    (t ++ c :: rest).takeWhile (· != c) = t := by
  rw [List.takeWhile_append_of_pos (bne_of_not_mem h), List.takeWhile_cons_of_neg (by simp),
    List.append_nil]

theorem dropWhile_ne {c : Char} {t : Text} (h : c ∉ t) (rest : Text) :
    (t ++ c :: rest).dropWhile (· != c) = c :: rest := by
  rw [List.dropWhile_append_of_pos (bne_of_not_mem h), List.dropWhile_cons_of_neg (by simp)]

/-- The blanks at the head of a text, and what is left without them. -/
theorem exists_blanks (t : Text) : ∃ blanks : Text, blanks.AllBlank ∧ t = blanks ++ t.stripStart :=
  ⟨t.takeWhile isBlank, List.all_eq_true.mp List.all_takeWhile,
    List.takeWhile_append_dropWhile.symm⟩

/-- What is left without the blanks at the head of a text begins with no blank. -/
theorem isBlank_of_stripStart {t u : Text} {c : Char} (h : t.stripStart = c :: u) :
    isBlank c = false := by
  have := List.head?_dropWhile_not isBlank t
  rw [show t.dropWhile isBlank = c :: u from h] at this
  simpa using this

/-- Behind a run of some characters blanks end it as well as what may stand behind the run
anyway. -/
theorem head?_blanks_append {p : Char → Bool} (hp : ∀ c, isBlank c = true → p c = false)
    {blanks t : Text} (h : blanks.AllBlank) (ht : ∀ c ∈ t.head?, p c = false) :
    ∀ c ∈ (blanks ++ t).head?, p c = false := by
  cases blanks with
  | nil => exact ht
  | cons b blanks =>
    intro c hc
    cases hc
    exact hp b (h b List.mem_cons_self)

theorem isWord_iff {t : Text} : t.isWord = true ↔ t ≠ [] ∧ ∀ c ∈ t, isWordChar c = true := by
  unfold isWord
  rw [Bool.and_eq_true, List.all_eq_true]
  cases t <;> simp

theorem isPath_iff {t : Text} : t.isPath = true ↔ t ≠ [] ∧ ∀ c ∈ t, isPathChar c = true := by
  unfold isPath
  rw [Bool.and_eq_true, List.all_eq_true]
  cases t <;> simp

theorem isPath_of_isWord {t : Text} (h : t.isWord = true) : t.isPath = true := by
  obtain ⟨hne, h⟩ := isWord_iff.mp h
  exact isPath_iff.mpr ⟨hne, fun c hc => isPathChar_of_isWordChar (h c hc)⟩

/-- A text that begins with no blank keeps its head. -/
theorem stripStart_of_head {t : Text} (h : ∀ c ∈ t.head?, isBlank c = false) :
    t.stripStart = t := by
  cases t with
  | nil => rfl
  | cons c t => exact List.dropWhile_cons_of_neg (by simpa using h c rfl)

theorem stripStart_blank (t : Text) : stripStart (' ' :: t) = t.stripStart :=
  List.dropWhile_cons_of_pos (by decide)

theorem strip_blank (t : Text) : strip (' ' :: t) = t.strip :=
  congrArg stripEnd (stripStart_blank t)

theorem stripStart_append_of_path {p : Text} (hp : p.isPath = true) (t : Text) :
    stripStart (p ++ t) = p ++ t := by
  obtain ⟨hne, hp⟩ := isPath_iff.mp hp
  cases p with
  | nil => exact absurd rfl hne
  | cons c p =>
    refine stripStart_of_head fun d hd => isBlank_of_isPathChar (hp d ?_)
    cases hd
    exact List.mem_cons_self

theorem stripStart_of_isPath {p : Text} (hp : p.isPath = true) : stripStart p = p := by
  have h := stripStart_append_of_path hp []
  rwa [List.append_nil] at h

/-- A path is found whole where no character of a path follows it. -/
theorem run?_path {p : Text} (hp : p.isPath = true) {t : Text}
    (ht : ∀ c ∈ t.head?, isPathChar c = false) : run? isPathChar (p ++ t) = some (p, t) := by
  obtain ⟨hne, hp⟩ := isPath_iff.mp hp
  exact run?_eq_some_iff.mpr ⟨hne, rfl, hp, ht⟩

/-- A word is found whole where no character of a word follows it. -/
theorem run?_word {w : Text} (hw : w.isWord = true) {t : Text}
    (ht : ∀ c ∈ t.head?, isWordChar c = false) : run? isWordChar (w ++ t) = some (w, t) := by
  obtain ⟨hne, hw⟩ := isWord_iff.mp hw
  exact run?_eq_some_iff.mpr ⟨hne, rfl, hw, ht⟩

/-- A text without a mark is what stands before it. -/
theorem before?_of_free {a b : Char} (hab : a ≠ b) {front : Text} (h : ¬ [a, b] <:+: front)
    (rest : Text) : before? a b (front ++ a :: b :: rest) = some (front, rest) := by
  refine before?_eq_some_iff.mpr ⟨rfl, fun u v huv => ?_⟩
  refine Nat.le_of_not_lt fun hlt => ?_
  -- a mark further left would lie in the front, or end where the true one begins
  have hu : u <+: front ++ a :: b :: rest := ⟨a :: b :: v, huv.symm⟩
  have hfront : front <+: front ++ a :: b :: rest := ⟨_, rfl⟩
  obtain ⟨w, hw⟩ := List.prefix_of_prefix_length_le hu hfront (by omega)
  subst hw
  rw [List.append_assoc, List.append_cancel_left_eq] at huv
  match w, hlt, huv, h with
  | [], hlt, _, _ => simp at hlt
  | [c], _, huv, _ =>
    simp only [List.cons_append, List.nil_append, List.cons.injEq] at huv
    exact hab huv.2.1
  | c :: d :: w, _, huv, h =>
    simp only [List.cons_append, List.cons.injEq] at huv
    obtain ⟨rfl, rfl, -⟩ := huv
    exact h ⟨u, w, by simp⟩

/-- A mark that stands anywhere in a text is found. -/
theorem isSome_before?_of_isInfix {a b : Char} {t : Text} (h : [a, b] <:+: t) :
    (before? a b t).isSome = true := by
  fun_induction before? a b t with
  | case1 c d t hmark => rfl
  | case2 c d t hmark ih =>
    rw [Option.isSome_map]
    apply ih
    rcases List.infix_cons_iff.mp h with hhead | htail
    · -- the mark does not stand here
      exfalso
      simp [List.cons_prefix_cons] at hhead
      exact hmark ⟨hhead.1.symm, hhead.2.symm⟩
    · exact htail
  | case3 t hshort =>
    exfalso
    obtain ⟨u, v, rfl⟩ := h
    rcases u with _ | ⟨x, _ | ⟨y, u⟩⟩
    · exact hshort a b v rfl
    · exact hshort x a (b :: v) rfl
    · exact hshort x y (u ++ [a, b] ++ v) rfl

/-- Blanks at the end of a text are trimmed away. -/
theorem stripEnd_append_of_blank (t : Text) {blanks : Text} (h : blanks.AllBlank) :
    stripEnd (t ++ blanks) = t.stripEnd := by
  unfold stripEnd
  rw [List.reverse_append, List.dropWhile_append_of_pos fun c hc => h c (List.mem_reverse.mp hc)]

/-- Blanks alone are trimmed away. -/
theorem stripStart_of_blank {blanks : Text} (h : blanks.AllBlank) : blanks.stripStart = [] := by
  have hstart := stripStart_append_of_blank h []
  rwa [List.append_nil] at hstart

theorem strip_append_of_blank (t : Text) {blanks : Text} (h : blanks.AllBlank) :
    strip (t ++ blanks) = t.strip := by
  unfold strip
  have hstart : stripStart (t ++ blanks)
      = if t.stripStart.isEmpty then blanks.stripStart else t.stripStart ++ blanks :=
    List.dropWhile_append
  rw [hstart]
  split
  · rename_i he
    rw [List.isEmpty_iff.mp he, stripStart_of_blank h]
  · exact stripEnd_append_of_blank _ h

theorem strip_append_blank (t : Text) : strip (t ++ [' ']) = t.strip :=
  strip_append_of_blank t (List.forall_mem_singleton.mpr (by decide))

/-- Trimming the end of a text takes nothing from before its last character that is no blank. -/
theorem stripEnd_append_cons (u : Text) {c : Char} (h : isBlank c = false) (t : Text) :
    stripEnd (u ++ c :: t) = u ++ c :: t.stripEnd := by
  have hstop : List.dropWhile isBlank (c :: u.reverse) = c :: u.reverse :=
    List.dropWhile_cons_of_neg (by simp [h])
  unfold stripEnd
  rw [List.reverse_append, List.reverse_cons, List.append_assoc, List.singleton_append,
    List.dropWhile_append, hstop]
  split
  · rename_i hnil
    rw [List.isEmpty_iff.mp hnil]
    simp
  · simp

/-- What begins with a character that is no blank keeps it when its end is trimmed. -/
theorem stripEnd_cons {c : Char} (h : isBlank c = false) (t : Text) :
    stripEnd (c :: t) = c :: t.stripEnd :=
  stripEnd_append_cons [] h t

/-- What ends with a character that is no blank keeps its end. -/
theorem stripEnd_concat {c : Char} (h : isBlank c = false) (t : Text) :
    stripEnd (t ++ [c]) = t ++ [c] :=
  stripEnd_append_cons t h []

/-- A text without blanks is not trimmed. -/
theorem stripEnd_of_forall {t : Text} (h : ∀ c ∈ t, isBlank c = false) : t.stripEnd = t := by
  rcases List.eq_nil_or_concat t with rfl | ⟨u, c, ht⟩
  · rfl
  · rw [List.concat_eq_append] at ht
    subst ht
    exact stripEnd_concat (h c (by simp)) u

theorem stripStart_cons {c : Char} (h : isBlank c = false) (t : Text) :
    stripStart (c :: t) = c :: t :=
  stripStart_of_head (by rintro d ⟨⟩; exact h)

/-- A text that ends with a path keeps its end. -/
theorem stripEnd_append_path (t : Text) {p : Text} (hp : p.isPath = true) :
    stripEnd (t ++ p) = t ++ p := by
  obtain ⟨hne, hp⟩ := isPath_iff.mp hp
  have hlast : isBlank (p.getLast hne) = false := isBlank_of_isPathChar (hp _ (List.getLast_mem hne))
  have hend : stripEnd (t ++ p.dropLast ++ [p.getLast hne]) = _ := stripEnd_concat hlast _
  rwa [List.append_assoc, List.dropLast_concat_getLast] at hend

theorem strip_of_forall {t : Text} (h : ∀ c ∈ t, isBlank c = false) : t.strip = t := by
  unfold strip
  rw [stripStart_of_head fun c hc => h c (List.mem_of_mem_head? hc), stripEnd_of_forall h]

/-- A path has no blanks around it. -/
theorem strip_of_isPath {p : Text} (hp : p.isPath = true) : p.strip = p :=
  strip_of_forall fun c hc => isBlank_of_isPathChar ((isPath_iff.mp hp).2 c hc)

theorem stripStart_stripStart (t : Text) : t.stripStart.stripStart = t.stripStart := by
  refine stripStart_of_head fun c hc => ?_
  obtain ⟨u, hu⟩ := List.head?_eq_some_iff.mp hc
  exact isBlank_of_stripStart hu

/-- A text that has more than blanks is not trimmed away. -/
theorem strip_ne_nil {t : Text} {c : Char} (hc : c ∈ t) (hblank : isBlank c = false) :
    t.strip ≠ [] := by
  obtain ⟨blanks, hblanks, ht⟩ := exists_blanks t
  unfold strip
  cases hstart : t.stripStart with
  | nil =>
    rw [hstart, List.append_nil] at ht
    rw [hblanks c (ht ▸ hc)] at hblank
    cases hblank
  | cons d u =>
    rw [stripEnd_cons (isBlank_of_stripStart hstart)]
    exact List.cons_ne_nil _ _

/-- A text is trimmed away just if there is nothing in it but blanks. -/
theorem strip_eq_nil_iff {t : Text} : t.strip = [] ↔ t.AllBlank := by
  constructor
  · intro h c hc
    refine Bool.of_not_eq_false fun hblank => ?_
    exact strip_ne_nil hc hblank h
  · intro h
    unfold strip
    rw [stripStart_of_blank h]
    rfl

/-- A text without a blank at its end is trimmed at its head only. -/
theorem strip_eq_stripStart {t : Text} (h : t.stripEnd = t) : t.strip = t.stripStart := by
  obtain ⟨blanks, -, ht⟩ := exists_blanks t
  unfold strip
  cases hstart : t.stripStart with
  | nil => rfl
  | cons c u =>
    have hc : isBlank c = false := isBlank_of_stripStart hstart
    rw [hstart] at ht
    rw [ht, stripEnd_append_cons blanks hc] at h
    rw [stripEnd_cons hc]
    exact List.append_cancel_left h

theorem stripEnd_stripEnd (t : Text) : t.stripEnd.stripEnd = t.stripEnd := by
  show (stripStart (stripStart t.reverse).reverse.reverse).reverse = _
  rw [List.reverse_reverse, stripStart_stripStart]
  rfl

theorem strip_strip (t : Text) : t.strip.strip = t.strip := by
  have hstart : t.strip.stripStart = t.strip := by
    have hprefix : t.strip <+: t.stripStart := by
      have := List.reverse_prefix.mpr (List.dropWhile_suffix isBlank (l := t.stripStart.reverse))
      rwa [List.reverse_reverse] at this
    refine stripStart_of_head fun c hc => ?_
    have hhead : t.stripStart.head? = some c := by
      obtain ⟨u, hu⟩ := hprefix
      rw [← hu, List.head?_append, show t.strip.head? = some c from hc]
      rfl
    have := List.head?_dropWhile_not isBlank t
    rw [show (t.dropWhile isBlank).head? = some c from hhead] at this
    simpa using this
  show stripEnd t.strip.stripStart = t.strip
  rw [hstart]
  exact stripEnd_stripEnd _

end Text

/-! ## Tags -/

/-- A tag whose parts stand a blank apart is read back, whatever follows it. -/
theorem tagAt_written (name : TagName) {inside : Text} (h : ¬ ['%', '}'] <:+: inside)
    (rest : Text) :
    tagAt ('{' :: '%' :: ' ' :: (name.keyword ++ ' ' :: (inside ++ '%' :: '}' :: rest)))
      = some (⟨name, inside.strip⟩, rest) := by
  have hname : name.keyword.isWord = true ∧ TagName.ofKeyword? name.keyword = some name := by
    cases name with
    | otherwise => decide +kernel
    | start kind => cases kind <;> decide +kernel
    | finish kind => cases kind <;> decide +kernel
  obtain ⟨hword, hof⟩ := hname
  have hfree : ¬ ['%', '}'] <:+: ' ' :: inside := by
    intro hinfix
    rcases List.infix_cons_iff.mp hinfix with hpre | hinfix
    · simp at hpre
    · exact h hinfix
  have hrun : Text.run? isWordChar
      (Text.stripStart (' ' :: (name.keyword ++ ' ' :: (inside ++ '%' :: '}' :: rest))))
        = some (name.keyword, ' ' :: inside ++ '%' :: '}' :: rest) := by
    rw [Text.stripStart_blank, Text.stripStart_append_of_path (Text.isPath_of_isWord hword)]
    exact Text.run?_word hword (by rintro c ⟨⟩; decide +kernel)
  have hcut := Text.before?_of_free (by decide) hfree rest
  unfold tagAt
  simp only [Option.bind_eq_bind, hrun, Option.bind_some, hof, hcut, pure, Text.strip_blank]

/-- A blank behind a text does not make a mark of it. -/
theorem mark_free_append_blank {a b : Char} (hb : b ≠ ' ') {t : Text} (h : ¬ [a, b] <:+: t) :
    ¬ [a, b] <:+: t ++ [' '] := by
  rintro ⟨u, v, huv⟩
  rcases List.eq_nil_or_concat v with rfl | ⟨v, c, rfl⟩
  · have := congrArg List.getLast? huv
    simp at this
    exact hb this
  · rw [List.concat_eq_append, ← List.append_assoc] at huv
    exact h ⟨u, v, (List.append_inj' huv rfl).1⟩

theorem tagAt_if {condition : Text} (h : ¬ ['%', '}'] <:+: condition) (rest : Text) :
    tagAt (ifMark condition ++ rest)
      = some (⟨.start .conditional, condition.strip⟩, rest) := by
  have hread := tagAt_written (.start .conditional) (mark_free_append_blank (by decide) h) rest
  rw [Text.strip_append_blank] at hread
  refine Eq.trans (congrArg tagAt ?_) hread
  show ['{', '%', ' ', 'i', 'f', ' '] ++ condition ++ [' ', '%', '}'] ++ rest
    = '{' :: '%' :: ' ' :: (['i', 'f'] ++ _)
  simp

/-- A tag without an argument is read back. -/
theorem tagAt_bare (name : TagName) (rest : Text) :
    tagAt (['{', '%', ' '] ++ name.keyword ++ [' ', '%', '}'] ++ rest) = some (⟨name, []⟩, rest) := by
  have hfree : ¬ ['%', '}'] <:+: ([] : Text) := by simp
  refine Eq.trans (congrArg tagAt ?_) (tagAt_written name hfree rest)
  show ['{', '%', ' '] ++ name.keyword ++ [' ', '%', '}'] ++ rest = _
  simp

/-! ## Loop headers -/

/-- The argument of a loop that has a header: a word, `in` and a path, with blanks between them. -/
def LoopHeader.Spelled (argument : Text) (header : LoopHeader) : Prop :=
  ∃ before behind : Text, before ≠ [] ∧ before.AllBlank ∧ behind ≠ [] ∧ behind.AllBlank ∧
    header.name.isWord = true ∧ header.path.isPath = true ∧
    argument = header.name ++ (before ++ 'i' :: 'n' :: (behind ++ header.path))

theorem gap?_eq_some {t rest : Text} (h : gap? t = some rest) :
    ∃ blanks : Text, blanks ≠ [] ∧ blanks.AllBlank ∧ t = blanks ++ rest := by
  unfold gap? at h
  split at h
  · rename_i c t
    split at h
    · rename_i hc
      obtain ⟨blanks, hblanks, ht⟩ := Text.exists_blanks t
      cases h
      exact ⟨c :: blanks, List.cons_ne_nil _ _, List.forall_mem_cons.mpr ⟨hc, hblanks⟩,
        congrArg (c :: ·) ht⟩
    · cases h
  · cases h

theorem gap?_append_of_blank {blanks rest : Text} (hne : blanks ≠ []) (hblanks : blanks.AllBlank)
    (hrest : ∀ c ∈ rest.head?, isBlank c = false) : gap? (blanks ++ rest) = some rest := by
  obtain ⟨c, blanks, rfl⟩ := List.exists_cons_of_ne_nil hne
  obtain ⟨hc, hblanks⟩ := List.forall_mem_cons.mp hblanks
  show (if isBlank c then some (Text.stripStart (blanks ++ rest)) else none) = _
  rw [if_pos hc, Text.stripStart_append_of_blank hblanks, Text.stripStart_of_head hrest]

theorem inWord?_eq_some {t rest : Text} (h : inWord? t = some rest) : t = 'i' :: 'n' :: rest := by
  unfold inWord? at h
  split at h
  · cases h
    rfl
  · cases h

/-- An argument has a header if it is spelled like one. -/
theorem LoopHeader.ofArgument?_eq_some_iff {argument : Text} {header : LoopHeader} :
    ofArgument? argument = some header ↔ header.Spelled argument := by
  constructor
  · intro h
    obtain ⟨⟨name, t⟩, hname, h⟩ := Option.bind_eq_some_iff.mp h
    obtain ⟨u, hu, h⟩ := Option.bind_eq_some_iff.mp h
    obtain ⟨v, hv, h⟩ := Option.bind_eq_some_iff.mp h
    obtain ⟨path, hpath, hheader⟩ := Option.bind_eq_some_iff.mp h
    obtain ⟨hne, rfl, hword, -⟩ := Text.run?_eq_some_iff.mp hname
    obtain ⟨before, hbefore, hbeforeBlank, rfl⟩ := gap?_eq_some hu
    obtain rfl := inWord?_eq_some hv
    obtain ⟨behind, hbehind, hbehindBlank, rfl⟩ := gap?_eq_some hpath
    split at hheader
    · rename_i hp
      cases hheader
      exact ⟨before, behind, hbefore, hbeforeBlank, hbehind, hbehindBlank,
        Text.isWord_iff.mpr ⟨hne, hword⟩, hp, rfl⟩
    · cases hheader
  · obtain ⟨name, path⟩ := header
    rintro ⟨before, behind, hbefore, hbeforeBlank, hbehind, hbehindBlank, hname, hp, rfl⟩
    have hnameEnds : ∀ c ∈ (before ++ 'i' :: 'n' :: (behind ++ path)).head?,
        isWordChar c = false := by
      obtain ⟨c, before, rfl⟩ := List.exists_cons_of_ne_nil hbefore
      rintro d ⟨⟩
      exact isWordChar_of_isBlank (hbeforeBlank c List.mem_cons_self)
    have hin : ∀ c ∈ ('i' :: 'n' :: (behind ++ path)).head?, isBlank c = false := by
      rintro c ⟨⟩
      decide
    have hpathHead : ∀ c ∈ path.head?, isBlank c = false := fun c hc =>
      isBlank_of_isPathChar ((Text.isPath_iff.mp hp).2 c (List.mem_of_mem_head? hc))
    unfold ofArgument?
    rw [Text.run?_word hname hnameEnds]
    simp only [Option.bind_eq_bind, Option.bind_some, gap?_append_of_blank hbefore hbeforeBlank hin,
      inWord?, gap?_append_of_blank hbehind hbehindBlank hpathHead, if_pos hp]
    rfl

theorem Text.allBlank_nil : Text.AllBlank [] :=
  nofun

theorem Text.allBlank_blank : Text.AllBlank [' '] := by
  intro c hc
  rw [List.mem_singleton.mp hc]
  decide

/-- A header whose parts stand a blank apart is read back. -/
theorem loopHeader_ofArgument?_written {name path : Text} (hn : name.isWord = true)
    (hp : path.isPath = true) :
    LoopHeader.ofArgument? (name ++ " in ".toList ++ path) = some ⟨name, path⟩ :=
  LoopHeader.ofArgument?_eq_some_iff.mpr ⟨[' '], [' '], List.cons_ne_nil _ _, Text.allBlank_blank,
    List.cons_ne_nil _ _, Text.allBlank_blank, hn, hp, List.append_assoc _ _ _⟩

/-- The tag of a loop is read back, with its header. -/
theorem tagAt_for {name path : Text} (hn : name.isWord = true) (hp : path.isPath = true)
    (rest : Text) :
    tagAt (forMark name path ++ rest)
      = some (⟨.start .loop, name ++ " in ".toList ++ path⟩, rest) := by
  have hfree : ¬ ['%', '}'] <:+: name ++ " in ".toList ++ path := by
    intro hinfix
    have hmem : '%' ∈ name ++ " in ".toList ++ path := hinfix.subset List.mem_cons_self
    have h1 : isWordChar '%' = false := by decide +kernel
    have h2 : isPathChar '%' = false := by decide +kernel
    have hname := (Text.isWord_iff.mp hn).2 '%'
    have hpath := (Text.isPath_iff.mp hp).2 '%'
    simp_all
  have hstrip : Text.strip (name ++ " in ".toList ++ path) = name ++ " in ".toList ++ path := by
    unfold Text.strip
    rw [List.append_assoc, Text.stripStart_append_of_path (Text.isPath_of_isWord hn),
      ← List.append_assoc, Text.stripEnd_append_path _ hp]
  have hread := tagAt_written (.start .loop) (mark_free_append_blank (by decide) hfree) rest
  rw [Text.strip_append_blank, hstrip] at hread
  refine Eq.trans (congrArg tagAt ?_) hread
  show ['{', '%', ' ', 'f', 'o', 'r', ' '] ++ name ++ " in ".toList ++ path ++ [' ', '%', '}'] ++ rest
    = '{' :: '%' :: ' ' :: (['f', 'o', 'r'] ++ _)
  simp

end Stencil
