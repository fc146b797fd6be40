import Stencil.Proofs.Markup.Written
import Stencil.Proofs.Text.Part
import Stencil.Render.Pipeline

/-!
# How a tag is spelled

A tag is taken from the head of a text for what stands between its two marks alone
(`tagAt_eq_some_iff`): blanks, a keyword that ends where a word does, and an argument without the
closing mark.

    {%  blanks  keyword  argument  %}

So whether a piece of a text is a tag does not depend on what follows it, and the text between two
tags of a template has just the tags that the template has there (`tags_slice`).  A text without an
opening mark has none (`tags_of_free`).
-/

namespace Stencil

namespace TagName

theorem keyword_isWord (name : TagName) : name.keyword.isWord = true := by
  cases name with
  | otherwise => decide +kernel
  | start kind => cases kind <;> decide +kernel
  | finish kind => cases kind <;> decide +kernel

theorem ofKeyword?_eq_some_iff {word : Text} {name : TagName} :
    ofKeyword? word = some name ↔ word = name.keyword := by
  constructor
  · intro h
    have := List.find?_some h
    simpa using (eq_comm.mp (of_decide_eq_true this))
  · rintro rfl
    cases name with
    | otherwise => decide
    | start kind => cases kind <;> decide
    | finish kind => cases kind <;> decide

end TagName

/-- The piece of a text that is taken for a tag. -/
def Tag.Spelled (piece : Text) (tag : Tag) : Prop :=
  ∃ blanks argument : Text,
    piece = '{' :: '%' :: (blanks ++ (tag.name.keyword ++ (argument ++ ['%', '}']))) ∧
    (∀ c ∈ blanks, isBlank c = true) ∧
    (∀ c ∈ argument.head?, isWordChar c = false) ∧
    ¬ ['%', '}'] <:+: argument ∧
    tag.argument = argument.strip

/-- The part before the first mark has no mark in it. -/
theorem Text.free_of_before? {a b : Char} {t front rest : Text}
    (h : before? a b t = some (front, rest)) : ¬ [a, b] <:+: front := by
  rintro ⟨u, v, rfl⟩
  obtain ⟨rfl, hfirst⟩ := before?_eq_some_iff.mp h
  have := hfirst u (v ++ a :: b :: rest) (by simp)
  simp only [List.length_append, List.length_cons, List.length_nil] at this
  omega

/-- **A tag is what is spelled like one**, whatever follows. -/
theorem tagAt_eq_some_iff (t : Text) (tag : Tag) (rest : Text) :
    tagAt t = some (tag, rest) ↔ ∃ piece, t = piece ++ rest ∧ tag.Spelled piece := by
  constructor
  · intro h
    unfold tagAt at h
    split at h
    · rename_i t
      obtain ⟨⟨word, u⟩, hword, h⟩ := Option.bind_eq_some_iff.mp h
      obtain ⟨name, hname, h⟩ := Option.bind_eq_some_iff.mp h
      obtain ⟨⟨argument, v⟩, hbefore, h⟩ := Option.bind_eq_some_iff.mp h
      cases h
      obtain rfl := TagName.ofKeyword?_eq_some_iff.mp hname
      obtain ⟨-, hstrip, -, hhead⟩ := Text.run?_eq_some_iff.mp hword
      have hfree := Text.free_of_before? hbefore
      obtain ⟨rfl, -⟩ := Text.before?_eq_some_iff.mp hbefore
      obtain ⟨blanks, hblanks, ht⟩ : ∃ blanks, (∀ c ∈ blanks, isBlank c = true) ∧
          t = blanks ++ Text.stripStart t :=
        ⟨t.takeWhile isBlank, List.all_eq_true.mp List.all_takeWhile,
          List.takeWhile_append_dropWhile.symm⟩
      rw [hstrip] at ht
      refine ⟨_, ?_, blanks, argument, rfl, hblanks, fun c hc => hhead c ?_, hfree, rfl⟩
      · rw [ht]
        simp
      · rw [List.head?_append, hc]
        rfl
    · cases h
  · rintro ⟨piece, rfl, blanks, argument, rfl, hblanks, hhead, hfree, hargument⟩
    obtain ⟨name, _⟩ := tag
    subst hargument
    have hstrip : Text.stripStart (blanks ++ (name.keyword ++ (argument ++ '%' :: '}' :: rest)))
        = name.keyword ++ (argument ++ '%' :: '}' :: rest) := by
      rw [Text.stripStart, List.dropWhile_append_of_pos hblanks]
      exact Text.stripStart_append_of_path (Text.isPath_of_isWord name.keyword_isWord) _
    have hhead : ∀ c ∈ (argument ++ '%' :: '}' :: rest).head?, isWordChar c = false := by
      cases argument with
      | nil => rintro c ⟨⟩; decide +kernel
      | cons c argument => exact hhead
    have hrun := Text.run?_word name.keyword_isWord hhead
    have hcut := Text.before?_of_free (by decide) hfree rest
    have ht : '{' :: '%' :: (blanks ++ (name.keyword ++ (argument ++ ['%', '}']))) ++ rest
        = '{' :: '%' :: (blanks ++ (name.keyword ++ (argument ++ '%' :: '}' :: rest))) := by
      simp
    rw [ht]
    unfold tagAt
    simp only [Option.bind_eq_bind, hstrip, hrun, Option.bind_some,
      TagName.ofKeyword?_eq_some_iff.mpr rfl, hcut, pure]

theorem tagAt_local : Recogniser.Local tagAt := by
  refine .of_pieces (fun tag hnil => ?_) tagAt_eq_some_iff
  obtain ⟨blanks, argument, hpiece, -⟩ := hnil
  cases hpiece

/-- The text between two tags has the tags that stand there. -/
theorem tags_slice {t : Text} {os mid ps : List (Occurrence Tag)} {o p : Occurrence Tag}
    (h : tags t = os ++ o :: (mid ++ p :: ps)) :
    (tags (t.slice o.stop p.start)).map (Occurrence.shift o.stop) = mid :=
  occurrences_slice tagAt_local h

/-- Where no tag could start there is none. -/
theorem tags_of_free {t : Text} (h : ¬ ['{', '%'] <:+: t) : tags t = [] := by
  refine occurrences_eq_nil fun u hu => ?_
  rw [Option.eq_none_iff_forall_ne_some]
  rintro ⟨tag, rest⟩ htag
  obtain ⟨piece, rfl, blanks, argument, rfl, -⟩ := (tagAt_eq_some_iff u tag rest).mp htag
  exact h ((List.prefix_append ['{', '%'] _).isInfix.trans hu.isInfix)

theorem mayHoldTags_iff (t : Text) : mayHoldTags t = true ↔ ['{', '%'] <:+: t := by
  fun_induction mayHoldTags t with
  | case1 t => exact iff_of_true rfl (List.prefix_append ['{', '%'] t).isInfix
  | case2 c t hmark ih =>
    rw [ih, List.infix_cons_iff]
    refine ⟨.inr, fun h => h.resolve_left ?_⟩
    rintro ⟨u, hu⟩
    obtain ⟨rfl, rfl⟩ := List.cons.inj hu
    exact hmark u rfl rfl
  | case3 => simp

end Stencil
