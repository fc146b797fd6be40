import Mathlib.Data.List.Basic
import Stencil.Proofs.Markup.Spelling
import Stencil.Proofs.Text.Leftmost
import Stencil.Proofs.Text.Ways

/-!
# Where tags stand

The tags of a template by their offsets (`TagScan`).  From where the last tag has ended, the next one
begins at the least offset from which all of this stands in the text:

    p       word      stop               close
    {%      keyword   argument           %}
      blanks         (no word character)  (the first one from stop on)

There is nothing to go back for: an opening mark from which this much does not stand is passed over,
and one inside an argument is never looked at.

A search that does go back finds the same tags (`Tag.search_eq_tagAt`).  It tries one way after the
other: the blanks before the keyword and before the argument as many as there are, then one less at a
time, the keywords in turn, and the argument one character longer at a time.
-/

namespace Stencil

/-! ## Offsets -/

namespace Text

variable {t piece rest : Text} {p : Nat}

/-- A piece stands in a text from an offset on. -/
def StandsAt (t piece : Text) (p : Nat) : Prop :=
  t.slice p (p + piece.length) = piece

theorem StandsAt.drop_eq (h : t.StandsAt piece p) :
    t.drop p = piece ++ t.drop (p + piece.length) := by
  have hsplit := t.slice_append_drop (Nat.le_add_right p piece.length)
  rw [show t.slice p (p + piece.length) = piece from h] at hsplit
  exact hsplit.symm

theorem standsAt_of_drop (h : t.drop p = piece ++ rest) :
    t.StandsAt piece p ∧ t.drop (p + piece.length) = rest := by
  refine ⟨slice_of_drop h, ?_⟩
  rw [← List.drop_drop, h, List.drop_left]

/-! The marks have two characters. -/

variable {a b : Char}

theorem StandsAt.drop_mark (h : t.StandsAt [a, b] p) : t.drop p = a :: b :: t.drop (p + 2) :=
  h.drop_eq

theorem mark_of_drop (h : t.drop p = a :: b :: rest) :
    t.StandsAt [a, b] p ∧ t.drop (p + 2) = rest :=
  standsAt_of_drop (show t.drop p = [a, b] ++ rest from h)

theorem StandsAt.mark_le (h : t.StandsAt [a, b] p) : p + 2 ≤ t.length := by
  have hlength := congrArg List.length h.drop_mark
  rw [List.length_cons, List.length_cons, List.length_drop, List.length_drop] at hlength
  omega

end Text

/-- From the opening mark at offset `p` on there are blanks, if any, and then the keyword of a tag as
a whole word, up to offset `stop`. -/
structure NamedAt (t : Text) (p stop : Nat) (name : TagName) : Prop where
  mark : t.StandsAt ['{', '%'] p
  keyword : ∃ word, p + 2 ≤ word ∧ (t.slice (p + 2) word).AllBlank ∧
    t.StandsAt name.keyword word ∧ stop = word + name.keyword.length
  whole : ∀ c ∈ t[stop]?, isWordChar c = false

/-- The first closing mark from offset `stop` on stands at offset `close`. -/
structure ClosesFirst (t : Text) (stop close : Nat) : Prop where
  le : stop ≤ close
  mark : t.StandsAt ['%', '}'] close
  first : ∀ q, stop ≤ q → q < close → ¬ t.StandsAt ['%', '}'] q

/-- A tag can be read from offset `p` on: a keyword, and a closing mark somewhere behind it. -/
def OpensTag (t : Text) (p : Nat) : Prop :=
  ∃ stop name close, NamedAt t p stop name ∧ stop ≤ close ∧ t.StandsAt ['%', '}'] close

/-- The tags of a text from an offset on. -/
inductive TagScan (t : Text) : Nat → List (Occurrence Tag) → Prop
  | done {pos : Nat} (none : ∀ p, pos ≤ p → ¬ OpensTag t p) : TagScan t pos []
  | next {pos p stop close : Nat} {name : TagName} {os : List (Occurrence Tag)} (le : pos ≤ p)
      (least : ∀ p', pos ≤ p' → p' < p → ¬ OpensTag t p') (named : NamedAt t p stop name)
      (closes : ClosesFirst t stop close) (behind : TagScan t (close + 2) os) :
      TagScan t pos (⟨⟨name, (t.slice stop close).strip⟩, p, close + 2⟩ :: os)

variable {t : Text} {p pos stop close : Nat} {tag : Tag}

/-! ## The tag at an offset -/

/-- The first closing mark by its offset and by what stands before it. -/
theorem closesFirst_iff : ClosesFirst t stop close ↔ stop ≤ close ∧
    Text.before? '%' '}' (t.drop stop) = some (t.slice stop close, t.drop (close + 2)) := by
  constructor
  · rintro ⟨hle, hmark, hfirst⟩
    have hbound := hmark.mark_le
    refine ⟨hle, Text.before?_eq_some_iff.mpr ⟨?_, fun u v huv => ?_⟩⟩
    · rw [← t.slice_append_drop hle, hmark.drop_mark]
    · rw [t.length_slice (by omega)]
      refine Nat.le_of_not_lt fun hlt => ?_
      obtain ⟨-, hdrop⟩ := Text.standsAt_of_drop huv
      exact hfirst (stop + u.length) (by omega) (by omega) (Text.mark_of_drop hdrop).1
  · rintro ⟨hle, hbefore⟩
    obtain ⟨hsplit, hfirst⟩ := Text.before?_eq_some_iff.mp hbefore
    rw [← t.slice_append_drop hle, List.append_cancel_left_eq] at hsplit
    have hmark := (Text.mark_of_drop hsplit).1
    have hbound := hmark.mark_le
    refine ⟨hle, hmark, fun q hq hlt hstands => ?_⟩
    have hdrop : t.drop stop = t.slice stop q ++ '%' :: '}' :: t.drop (q + 2) := by
      rw [← t.slice_append_drop hq, hstands.drop_mark]
    have hshort := hfirst _ _ hdrop
    rw [t.length_slice (by omega), t.length_slice (by omega)] at hshort
    omega

/-- A tag is read from an offset on by where its parts stand. -/
theorem tagAt_drop_iff {rest : Text} : tagAt (t.drop p) = some (tag, rest) ↔
    ∃ stop close, NamedAt t p stop tag.name ∧ ClosesFirst t stop close ∧
      tag.argument = (t.slice stop close).strip ∧ rest = t.drop (close + 2) := by
  rw [tagAt_eq_some_iff]
  constructor
  · rintro ⟨piece, hdrop, blanks, argument, rfl, hblanks, hhead, hfree, hargument⟩
    have hwhole : t.drop p = '{' :: '%' ::
        (blanks ++ (tag.name.keyword ++ (argument ++ '%' :: '}' :: rest))) := by
      rw [hdrop]
      simp
    obtain ⟨hmark, hbehind⟩ := Text.mark_of_drop hwhole
    obtain ⟨hspan, hword⟩ := Text.standsAt_of_drop hbehind
    obtain ⟨hkeyword, hstop⟩ := Text.standsAt_of_drop hword
    obtain ⟨hslice, hclose⟩ := Text.standsAt_of_drop hstop
    obtain ⟨-, hrest⟩ := Text.mark_of_drop hclose
    have hslice : t.slice _ _ = argument := hslice
    refine ⟨_, _, ⟨hmark, ⟨_, Nat.le_add_right _ _, ?_, hkeyword, rfl⟩, ?_⟩,
      closesFirst_iff.mpr ⟨Nat.le_add_right _ _, ?_⟩, ?_, hrest.symm⟩
    · rw [show t.slice _ _ = blanks from hspan]
      exact hblanks
    · rw [← List.head?_drop, hstop]
      cases argument with
      | nil =>
        rintro c ⟨⟩
        decide +kernel
      | cons c argument => exact hhead
    · rw [hstop, hslice, hrest]
      exact Text.before?_of_free (by decide) hfree rest
    · rw [hslice, hargument]
  · rintro ⟨stop, close, ⟨hmark, ⟨word, hle, hblanks, hkeyword, rfl⟩, hwhole⟩, hcloses, hargument,
      rfl⟩
    obtain ⟨hbehind, hbefore⟩ := closesFirst_iff.mp hcloses
    have hdrop : t.drop p = '{' :: '%' :: (t.slice (p + 2) word ++ (tag.name.keyword ++
        (t.slice (word + tag.name.keyword.length) close ++ '%' :: '}' :: t.drop (close + 2)))) := by
      rw [hmark.drop_mark, ← t.slice_append_drop hle, hkeyword.drop_eq,
        ← t.slice_append_drop hbehind, hcloses.mark.drop_mark]
    refine ⟨'{' :: '%' :: (t.slice (p + 2) word ++ (tag.name.keyword ++
      (t.slice (word + tag.name.keyword.length) close ++ ['%', '}']))), ?_, _, _, rfl, hblanks, ?_,
      Text.free_of_before? hbefore, hargument⟩
    · rw [hdrop]
      simp
    · intro c hc
      refine hwhole c ?_
      rw [← List.head?_drop, ← t.slice_append_drop hbehind, List.head?_append, hc]
      rfl

/-- Where there is a closing mark from an offset on, there is a first one. -/
theorem exists_closesFirst (hle : stop ≤ close) (hmark : t.StandsAt ['%', '}'] close) :
    ∃ close, ClosesFirst t stop close := by
  induction close using Nat.strongRecOn with
  | ind close ih =>
    by_cases hearlier : ∃ q, stop ≤ q ∧ q < close ∧ t.StandsAt ['%', '}'] q
    · obtain ⟨q, hq, hlt, hstands⟩ := hearlier
      exact ih q hlt hq hstands
    · exact ⟨close, hle, hmark, fun q hq hlt hstands => hearlier ⟨q, hq, hlt, hstands⟩⟩

/-! ## The scan -/

/-- A tag can be read where one is spelled. -/
theorem opensTag_iff : OpensTag t p ↔ ∃ stop tag, Tag.Spelled (t.slice p stop) tag := by
  constructor
  · rintro ⟨stop, name, close, hnamed, hle, hmark⟩
    obtain ⟨close, hcloses⟩ := exists_closesFirst hle hmark
    have hread : tagAt (t.drop p) = some (⟨name, (t.slice stop close).strip⟩, t.drop (close + 2)) :=
      tagAt_drop_iff.mpr ⟨stop, close, hnamed, hcloses, rfl, rfl⟩
    obtain ⟨piece, hdrop, hspelled⟩ := (tagAt_eq_some_iff _ _ _).mp hread
    rw [← Text.slice_of_drop hdrop] at hspelled
    exact ⟨_, _, hspelled⟩
  · rintro ⟨stop, tag, hspelled⟩
    obtain ⟨rest, hdrop⟩ := t.slice_isPrefix p stop
    have hread := (tagAt_eq_some_iff _ tag rest).mpr ⟨_, hdrop.symm, hspelled⟩
    obtain ⟨stop, close, hnamed, hcloses, -⟩ := tagAt_drop_iff.mp hread
    exact ⟨stop, tag.name, close, hnamed, hcloses.le, hcloses.mark⟩

theorem NamedAt.lt {name : TagName} (h : NamedAt t p stop name) : p < stop := by
  obtain ⟨word, hle, -, -, rfl⟩ := h.keyword
  omega

/-- The span of a tag, by its offsets and by how it is spelled. -/
theorem spelled_slice_iff {hi : Nat} :
    p < hi ∧ hi ≤ t.length ∧ Tag.Spelled (t.slice p hi) tag ↔
      ∃ stop close, NamedAt t p stop tag.name ∧ ClosesFirst t stop close ∧
        tag.argument = (t.slice stop close).strip ∧ hi = close + 2 := by
  constructor
  · rintro ⟨hlt, hle, hspelled⟩
    have hdrop := t.slice_append_drop (Nat.le_of_lt hlt)
    have hread := (tagAt_eq_some_iff _ tag _).mpr ⟨_, hdrop.symm, hspelled⟩
    obtain ⟨stop, close, hnamed, hcloses, hargument, hrest⟩ := tagAt_drop_iff.mp hread
    have hbound := hcloses.mark.mark_le
    have hlength := congrArg List.length hrest
    rw [List.length_drop, List.length_drop] at hlength
    exact ⟨stop, close, hnamed, hcloses, hargument, by omega⟩
  · rintro ⟨stop, close, hnamed, hcloses, hargument, rfl⟩
    have hbound := hcloses.mark.mark_le
    have hlt := hnamed.lt
    have hle := hcloses.le
    have hread := tagAt_drop_iff.mpr ⟨stop, close, hnamed, hcloses, hargument, rfl⟩
    obtain ⟨piece, hdrop, hspelled⟩ := (tagAt_eq_some_iff _ _ _).mp hread
    have hslice : t.slice p (close + 2) = piece := by
      rw [← t.slice_append_drop (show p ≤ close + 2 by omega), List.append_cancel_right_eq] at hdrop
      exact hdrop
    exact ⟨by omega, hbound, hslice ▸ hspelled⟩

/-- The scan by offsets finds the leftmost pieces that are spelled like tags. -/
theorem tagScan_iff_leftmost {os : List (Occurrence Tag)} :
    TagScan t pos os ↔ Leftmost Tag.Spelled t pos os := by
  constructor
  · intro h
    induction h with
    | done hnone =>
      intro start stop tag hstart hspelled
      exact hnone start hstart (opensTag_iff.mpr ⟨stop, tag, hspelled⟩)
    | @next pos p stop close name os hle hleast hnamed hcloses hbehind ih =>
      obtain ⟨hlt, hbound, hspelled⟩ : p < close + 2 ∧ close + 2 ≤ t.length ∧
          Tag.Spelled (t.slice p (close + 2)) ⟨name, (t.slice stop close).strip⟩ :=
        spelled_slice_iff.mpr ⟨stop, close, hnamed, hcloses, rfl, rfl⟩
      refine ⟨⟨hle, hlt, hbound⟩, fun start stop tag hstart hbefore hspelled' => ?_, hspelled, ih⟩
      exact hleast start hstart hbefore (opensTag_iff.mpr ⟨stop, tag, hspelled'⟩)
  · intro h
    induction os generalizing pos with
    | nil =>
      refine .done fun p hp hopens => ?_
      obtain ⟨stop, tag, hspelled⟩ := opensTag_iff.mp hopens
      exact h p stop tag hp hspelled
    | cons o os ih =>
      obtain ⟨⟨name, argument⟩, start, hi⟩ := o
      obtain ⟨⟨hpos, hlt, hle⟩, hbefore, hspelled, hbehind⟩ := h
      obtain ⟨stop, close, hnamed, hcloses, hargument, hhi⟩ :=
        spelled_slice_iff.mp ⟨hlt, hle, hspelled⟩
      dsimp only at hnamed hargument hhi
      subst hargument hhi
      refine .next hpos (fun p hp hp' hopens => ?_) hnamed hcloses (ih hbehind)
      obtain ⟨stop, tag, hspelled⟩ := opensTag_iff.mp hopens
      exact hbefore p stop tag hp hp' hspelled

theorem tagAt_takes : Recogniser.Takes tagAt Tag.Spelled where
  not_nil := by
    rintro tag ⟨blanks, argument, hpiece, -⟩
    cases hpiece
  eq_some_iff := tagAt_eq_some_iff

/-! ## Going back -/

/-- What stands behind a word that ends where the word does. -/
def wholeWord? (word t : Text) : Option Text :=
  (word.isPrefixOf? t).filter fun rest => !rest.head?.any isWordChar

/-- Searches behind a keyword for an argument and the closing mark, and gives the argument and the
rest.  The blanks on both sides of the argument are no part of it. -/
def Tag.searchArgument (t : Text) : Option (Text × Text) :=
  (longestFirst isBlank t).findSome? fun (_, t) =>
  (shortestFirst t).findSome? fun (argument, t) =>
  (longestFirst isBlank t).findSome? fun (_, t) => (['%', '}'].isPrefixOf? t).map (argument, ·)

/-- Searches for a tag at the head of a text.  Each part is tried in all its ways until the rest of
the tag can be read behind it. -/
def Tag.search : Recogniser Tag := fun t => do
  let t ← ['{', '%'].isPrefixOf? t
  (longestFirst isBlank t).findSome? fun (_, t) =>
  TagName.all.findSome? fun name => do
    let t ← wholeWord? name.keyword t
    let (argument, rest) ← searchArgument t
    return (⟨name, argument⟩, rest)

/-! ### The argument -/

theorem Text.stripStart_append_percent (w t : Text) :
    stripStart (w ++ '%' :: t) = w.stripStart ++ '%' :: t := by
  have hpercent : ¬ isBlank '%' = true := by decide
  unfold stripStart
  rw [List.dropWhile_append]
  split
  · rename_i hnil
    rw [List.isEmpty_iff.mp hnil, List.dropWhile_cons_of_neg hpercent]
    rfl
  · rfl

/-- A character stays at the head of a text whose end is trimmed, if there is more than blanks from
there on. -/
theorem Text.stripEnd_cons_of_mem {c d : Char} {w : Text} (hd : d ∈ c :: w)
    (hblank : isBlank d = false) : stripEnd (c :: w) = c :: stripEnd w := by
  rcases List.mem_cons.mp hd with rfl | hd
  · exact stripEnd_cons hblank w
  · obtain ⟨front, back, rfl⟩ := List.append_of_mem hd
    rw [← List.cons_append, stripEnd_append_cons _ hblank, stripEnd_append_cons _ hblank]
    rfl

/-- Before the closing mark as many blanks are taken as there are. -/
theorem findSome?_close (t argument : Text) :
    ((longestFirst isBlank t).findSome? fun (_, t) => (['%', '}'].isPrefixOf? t).map (argument, ·))
      = (['%', '}'].isPrefixOf? t.stripStart).map (argument, ·) := by
  refine findSome?_longestFirst ?_
  intro _ run c u _ hc
  rw [Option.map_eq_none_iff, Option.eq_none_iff_forall_ne_some]
  intro rest hrest
  obtain ⟨hmark, -⟩ := List.cons.inj (List.isPrefixOf?_eq_some_iff_append_eq.mp hrest)
  rw [← hmark] at hc
  exact absurd hc (by decide)

/-- A text without the closing mark, and not empty, does not begin with one when a closing mark
follows it. -/
theorem isPrefixOf?_close_of_free {w : Text} (hne : w ≠ []) (hfree : ¬ ['%', '}'] <:+: w)
    (rest : Text) : ['%', '}'].isPrefixOf? (w ++ '%' :: '}' :: rest) = none := by
  rw [Option.eq_none_iff_forall_ne_some]
  intro after hafter
  have hafter := (List.isPrefixOf?_eq_some_iff_append_eq.mp hafter).symm
  match w, hne, hfree, hafter with
  | [c], _, _, hafter => simp at hafter
  | c :: d :: w, _, hfree, hafter =>
    simp only [List.cons_append, List.cons.injEq] at hafter
    obtain ⟨rfl, rfl, -⟩ := hafter
    exact hfree (List.prefix_append ['%', '}'] w).isInfix

/-- The shortest argument that the closing mark follows, blanks apart, is what stands before the
first closing mark, less the blanks at its end. -/
theorem findSome?_shortestFirst_of_free {w : Text} (h : ¬ ['%', '}'] <:+: w) (rest : Text) :
    ((shortestFirst (w ++ '%' :: '}' :: rest)).findSome? fun (argument, t) =>
      (['%', '}'].isPrefixOf? t.stripStart).map (argument, ·)) = some (w.stripEnd, rest) := by
  induction w with
  | nil => rfl
  | cons c w ih =>
    have hstart := Text.stripStart_append_percent (c :: w) ('}' :: rest)
    rw [List.cons_append] at hstart ⊢
    rw [shortestFirst, List.findSome?_cons]
    dsimp only
    rw [hstart]
    cases hhead : Text.stripStart (c :: w) with
    | nil =>
      -- there are only blanks before the mark
      obtain ⟨blanks, hblanks, hcw⟩ := Text.exists_blanks (c :: w)
      rw [hhead, List.append_nil] at hcw
      have hend := Text.stripEnd_append_of_blank [] (hcw ▸ hblanks)
      rw [List.nil_append] at hend
      rw [hend]
      rfl
    | cons d e =>
      have hsuffix : d :: e <:+ c :: w := by
        rw [← hhead]
        exact List.dropWhile_suffix _
      have hnone := isPrefixOf?_close_of_free (List.cons_ne_nil d e)
        (fun hinside => h (hinside.trans hsuffix.isInfix)) rest
      have hd : isBlank d = false := Text.isBlank_of_stripStart hhead
      have hw : ¬ ['%', '}'] <:+: w := fun hinside => h (hinside.trans (List.suffix_cons c w).isInfix)
      have hrest := congrArg (Option.map fun (argument, rest) => (c :: argument, rest)) (ih hw)
      rw [List.map_findSome?] at hrest
      rw [hnone, Text.stripEnd_cons_of_mem (hsuffix.subset List.mem_cons_self) hd,
        List.findSome?_map]
      refine Eq.trans (congrArg (fun next => List.findSome? next _) ?_) hrest
      funext way
      simp [Function.comp_def]

/-- Without a closing mark no argument does. -/
theorem findSome?_shortestFirst_of_not_isInfix {t : Text} (h : ¬ ['%', '}'] <:+: t) :
    ((shortestFirst t).findSome? fun (argument, t) =>
      (['%', '}'].isPrefixOf? t.stripStart).map (argument, ·)) = none := by
  refine List.findSome?_eq_none_iff.mpr ?_
  rintro ⟨argument, u⟩ hway
  have hsplit : argument ++ u = t := append_of_mem_shortestFirst _ hway
  rw [Option.map_eq_none_iff, Option.eq_none_iff_forall_ne_some]
  intro rest hrest
  have hfront : ['%', '}'] <+: u.stripStart := ⟨rest, List.isPrefixOf?_eq_some_iff_append_eq.mp hrest⟩
  have hsuffix : u.stripStart <:+ t := (List.dropWhile_suffix _).trans ⟨argument, hsplit⟩
  exact h (hfront.isInfix.trans hsuffix.isInfix)

/-- The argument that is found goes up to the first closing mark, less the blanks at both ends. -/
theorem Tag.searchArgument_eq (t : Text) :
    searchArgument t
      = (Text.before? '%' '}' t).map fun (argument, rest) => (argument.strip, rest) := by
  unfold searchArgument
  simp only [findSome?_close]
  cases hbefore : Text.before? '%' '}' t with
  | none =>
    have hfree : ¬ ['%', '}'] <:+: t := by
      intro hinside
      have hsome := Text.isSome_before?_of_isInfix hinside
      rw [hbefore] at hsome
      cases hsome
    have hnone {u : Text} (hu : u <:+ t) : ¬ ['%', '}'] <:+: u :=
      fun hinside => hfree (hinside.trans hu.isInfix)
    refine (findSome?_longestFirst fun _ run c u hsplit _ => ?_).trans ?_
    · exact findSome?_shortestFirst_of_not_isInfix (hnone ⟨run, hsplit⟩)
    · exact findSome?_shortestFirst_of_not_isInfix (hnone (List.dropWhile_suffix _))
  | some found =>
    obtain ⟨w, rest⟩ := found
    have hfree := Text.free_of_before? hbefore
    obtain ⟨rfl, -⟩ := Text.before?_eq_some_iff.mp hbefore
    have hlongest : ((shortestFirst (Text.stripStart (w ++ '%' :: '}' :: rest))).findSome?
        fun (argument, t) => (['%', '}'].isPrefixOf? t.stripStart).map (argument, ·))
          = some (w.strip, rest) := by
      rw [Text.stripStart_append_percent]
      refine findSome?_shortestFirst_of_free (fun hinside => hfree ?_) rest
      exact hinside.trans (List.dropWhile_suffix _).isInfix
    refine (findSome?_longestFirst fun hnone => ?_).trans hlongest
    cases hlongest.symm.trans hnone

/-! ### The keyword -/

theorem wholeWord?_eq_some_iff {word t rest : Text} :
    wholeWord? word t = some rest ↔ word ++ rest = t ∧ ∀ c ∈ rest.head?, isWordChar c = false := by
  unfold wholeWord?
  rw [Option.filter_eq_some_iff, List.isPrefixOf?_eq_some_iff_append_eq]
  refine and_congr_right fun _ => ?_
  cases rest.head? <;> simp

/-- Of the keywords at most one stands at the head of a text as a whole word, and it is the longest
run of word characters there. -/
theorem findSome?_all {β : Type} (next : TagName → Text → Option β) (t : Text) :
    (TagName.all.findSome? fun name => (wholeWord? name.keyword t).bind (next name))
      = (Text.run? isWordChar t).bind fun (word, t) => (TagName.ofKeyword? word).bind (next · t) := by
  have hrun {name : TagName} {rest : Text} (h : wholeWord? name.keyword t = some rest) :
      Text.run? isWordChar t = some (name.keyword, rest) := by
    obtain ⟨rfl, hhead⟩ := wholeWord?_eq_some_iff.mp h
    exact Text.run?_word name.keyword_isWord hhead
  have hname (name : TagName) : TagName.ofKeyword? name.keyword = some name :=
    TagName.ofKeyword?_eq_some_iff.mpr rfl
  by_cases hword : ∃ (name : TagName) (rest : Text), wholeWord? name.keyword t = some rest
  · obtain ⟨name, rest, hrest⟩ := hword
    have hmem : name ∈ TagName.all := List.mem_of_find?_eq_some (hname name)
    have hother : ∀ other ∈ TagName.all, other ≠ name →
        (wholeWord? other.keyword t).bind (next other) = none := by
      intro other _ hne
      cases hother : wholeWord? other.keyword t with
      | none => rfl
      | some rest' =>
        have hsame := (hrun hother).symm.trans (hrun hrest)
        obtain ⟨hkeyword, -⟩ := Prod.mk.inj (Option.some.inj hsame)
        have hnames := (hname other).symm.trans (hkeyword ▸ hname name)
        exact absurd (Option.some.inj hnames) hne
    rw [findSome?_of_forall_ne hmem hother, hrest, hrun hrest]
    simp only [Option.bind_some, hname]
  · have hnone (name : TagName) : wholeWord? name.keyword t = none := by
      rw [Option.eq_none_iff_forall_ne_some]
      exact fun rest hrest => hword ⟨name, rest, hrest⟩
    simp only [hnone, Option.bind_none, List.findSome?_eq_none_iff.mpr fun _ _ => rfl]
    cases hfound : Text.run? isWordChar t with
    | none => rfl
    | some found =>
      obtain ⟨word, rest⟩ := found
      obtain ⟨-, ht, -, hhead⟩ := Text.run?_eq_some_iff.mp hfound
      cases hof : TagName.ofKeyword? word with
      | none => simp [hof]
      | some name =>
        rw [TagName.ofKeyword?_eq_some_iff.mp hof] at ht
        exact absurd ⟨name, rest, wholeWord?_eq_some_iff.mpr ⟨ht.symm, hhead⟩⟩ hword

/-- **The search finds the tag that is read without going back.** -/
theorem Tag.search_eq_tagAt (t : Text) : search t = tagAt t := by
  unfold search tagAt
  split
  · rename_i t
    have hmark : ['{', '%'].isPrefixOf? ('{' :: '%' :: t) = some t := rfl
    simp only [Option.bind_eq_bind, hmark, Option.bind_some, findSome?_all, searchArgument_eq,
      Option.bind_map]
    refine findSome?_longestFirst fun _ run c u _ hc => ?_
    -- no word begins with a blank
    have hrun : Text.run? isWordChar (c :: u) = none := by
      unfold Text.run?
      rw [List.takeWhile_cons_of_neg]
      simp [isWordChar_of_isBlank hc]
    dsimp only
    rw [hrun]
    rfl
  · rename_i hmark
    have hnone : ['{', '%'].isPrefixOf? t = none := by
      rw [Option.eq_none_iff_forall_ne_some]
      intro rest hrest
      exact hmark rest (List.isPrefixOf?_eq_some_iff_append_eq.mp hrest).symm
    rw [hnone]
    rfl

/-- **The tags of a template are those of the scan by offsets**, and of no other list is the scan
made.  They are also what a search finds that tries every part of a tag in all its ways. -/
theorem tags_eq_scan (template : Text) :
    (∀ os, TagScan template 0 os ↔ os = tags template) ∧
      tags template = occurrences Tag.search template := by
  constructor
  · intro os
    rw [tagScan_iff_leftmost]
    exact leftmost_iff tagAt_takes template os
  · unfold tags
    rw [funext Tag.search_eq_tagAt]

end Stencil
