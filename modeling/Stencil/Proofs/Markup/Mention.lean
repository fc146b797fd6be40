import Stencil.Markup.BlockArgument
import Stencil.Markup.Placeholder
import Stencil.Proofs.Markup.Nesting
import Stencil.Proofs.Scope.Agreement

/-!
# What a template mentions

Whatever a scanner hands on is a part of the text that it was given: the paths of placeholders
(`plain_isInfix`, `filtered_isInfix`), the arguments of blocks (`block_argument_isInfix`), their
branches (`branches_isInfix`), and the paths that conditions and loop headers name
(`condition_isInfix`, `loopHeader_isInfix`).
-/

namespace Stencil

namespace Text

theorem stripStart_isSuffix (t : Text) : t.stripStart <:+ t :=
  List.dropWhile_suffix _

theorem stripEnd_isPrefix (t : Text) : t.stripEnd <+: t := by
  have h : t.reverse.dropWhile isBlank <:+ t.reverse := List.dropWhile_suffix _
  simpa [stripEnd] using List.reverse_prefix.mpr h

theorem strip_isInfix (t : Text) : t.strip <:+: t :=
  (stripEnd_isPrefix _).isInfix.trans (stripStart_isSuffix t).isInfix

theorem run?_isInfix {p : Char → Bool} {t w rest : Text} (h : run? p t = some (w, rest)) :
    w <:+: t ∧ rest <:+ t := by
  obtain ⟨-, rfl, -⟩ := run?_eq_some_iff.mp h
  exact ⟨(List.prefix_append w rest).isInfix, List.suffix_append w rest⟩

theorem before?_isInfix {a b : Char} {t front rest : Text}
    (h : before? a b t = some (front, rest)) : front <:+: t := by
  obtain ⟨rfl, -⟩ := before?_eq_some_iff.mp h
  exact (List.prefix_append _ _).isInfix

theorem slice_isInfix (t : Text) (start stop : Nat) : t.slice start stop <:+: t :=
  (List.drop_suffix _ _).isInfix.trans (List.take_prefix _ _).isInfix

end Text

/-! ## Occurrences -/

/-- If what a recogniser finds at the head of a text has a part that stands in the text, so has
what it finds anywhere. -/
theorem occurrences_isInfix {α : Type} {r : Recogniser α} (part : α → Text)
    (hr : ∀ u a rest, r u = some (a, rest) → part a <:+: u) (t : Text) :
    ∀ o ∈ occurrences r t, part o.item <:+: t := by
  suffices h : ∀ (t : Text) (skip pos : Nat), ∀ o ∈ occurrencesFrom r skip pos t,
      part o.item <:+: t from h t 0 0
  intro t
  induction t with
  | nil => simp [occurrencesFrom]
  | cons c t ih =>
    intro skip pos o ho
    have hsuffix : t <:+: c :: t := (List.suffix_cons c t).isInfix
    unfold occurrencesFrom at ho
    cases skip with
    | succ skip => exact (ih _ _ o ho).trans hsuffix
    | zero =>
      cases hc : r (c :: t) with
      | none =>
        rw [hc] at ho
        exact (ih _ _ o ho).trans hsuffix
      | some found =>
        obtain ⟨a, rest⟩ := found
        rw [hc] at ho
        rcases List.mem_cons.mp ho with rfl | ho
        · exact hr _ a rest hc
        · exact (ih _ _ o ho).trans hsuffix

/-! ## Placeholders -/

theorem placeholderPathAt_isInfix {t path rest : Text}
    (h : placeholderPathAt t = some (path, rest)) : path <:+: t := by
  unfold placeholderPathAt at h
  split at h
  · rename_i t
    obtain ⟨⟨w, u⟩, hw, he⟩ := Option.bind_eq_some_iff.mp h
    cases he
    have hmarks : t <:+ '{' :: '{' :: t := ⟨['{', '{'], rfl⟩
    exact (Text.run?_isInfix hw).1.trans ((Text.stripStart_isSuffix t).trans hmarks).isInfix
  · cases h

/-- The path of a plain placeholder stands in the text. -/
theorem plain_isInfix (t : Text) : ∀ o ∈ occurrences plainAt t, o.item <:+: t := by
  refine occurrences_isInfix id (fun u path rest h => ?_) t
  obtain ⟨⟨p, v⟩, hp, h⟩ := Option.bind_eq_some_iff.mp h
  obtain ⟨_, _, h⟩ := Option.bind_eq_some_iff.mp h
  cases h
  exact placeholderPathAt_isInfix hp

/-- The path of a filtered placeholder stands in the text. -/
theorem filtered_isInfix (t : Text) : ∀ o ∈ occurrences filteredAt t, o.item.path <:+: t := by
  refine occurrences_isInfix Filtered.path (fun u f rest h => ?_) t
  obtain ⟨⟨p, v⟩, hp, h⟩ := Option.bind_eq_some_iff.mp h
  obtain ⟨_, _, h⟩ := Option.bind_eq_some_iff.mp h
  split at h
  · cases h
  · cases h
    exact placeholderPathAt_isInfix hp

/-! ## Tags and blocks -/

theorem tag_isInfix (t : Text) : ∀ o ∈ tags t, o.item.argument <:+: t := by
  refine occurrences_isInfix Tag.argument (fun u tag rest h => ?_) t
  unfold tagAt at h
  split at h
  · rename_i u
    obtain ⟨⟨word, v⟩, hw, h⟩ := Option.bind_eq_some_iff.mp h
    obtain ⟨name, _, h⟩ := Option.bind_eq_some_iff.mp h
    obtain ⟨⟨argument, _⟩, ha, h⟩ := Option.bind_eq_some_iff.mp h
    cases h
    have hmarks : u <:+ '{' :: '%' :: u := ⟨['{', '%'], rfl⟩
    have hv : v <:+ '{' :: '%' :: u :=
      (Text.run?_isInfix hw).2.trans ((Text.stripStart_isSuffix u).trans hmarks)
    exact (Text.strip_isInfix _).trans ((Text.before?_isInfix ha).trans hv.isInfix)
  · cases h

theorem mem_blocks_of_occurrence {t : Text} {o : Occurrence Block}
    (h : o ∈ (blocks t).map Block.occurrence) : o.item ∈ blocks t := by
  obtain ⟨b, hb, rfl⟩ := List.mem_map.mp h
  exact hb

/-- The argument of a block stands in the template. -/
theorem block_argument_isInfix {t : Text} {b : Block} (h : b ∈ blocks t) : b.argument <:+: t :=
  tag_isInfix t b.opener (blocks_built t b h).opener_mem

/-- The branches of a block stand in the template. -/
theorem branches_isInfix (t : Text) (b : Block) :
    (b.branches t).1 <:+: t ∧ (b.branches t).2 <:+: t := by
  unfold Block.branches
  split
  · exact ⟨Text.slice_isInfix _ _ _, List.nil_infix⟩
  · exact ⟨Text.slice_isInfix _ _ _, Text.slice_isInfix _ _ _⟩

/-! ## Conditions and loop headers -/

theorem comparison?_isInfix {t p : Text} {c : Condition} (h : Condition.comparison? t = some c)
    (hp : c.path? = some p) : p <:+: t := by
  obtain ⟨⟨named, u⟩, hn, h⟩ := Option.bind_eq_some_iff.mp h
  obtain ⟨⟨negated, v⟩, _, h⟩ := Option.bind_eq_some_iff.mp h
  obtain ⟨literal, _, h⟩ := Option.bind_eq_some_iff.mp h
  cases h
  cases hp
  exact (Text.run?_isInfix hn).1

theorem negation?_isInfix {t p : Text} {c : Condition} (h : Condition.negation? t = some c)
    (hp : c.path? = some p) : p <:+: t := by
  unfold Condition.negation? at h
  split at h
  · next b u =>
    simp only [Option.ite_none_right_eq_some] at h
    obtain ⟨-, h⟩ := h
    cases h
    cases hp
    have hword : u <:+ 'n' :: 'o' :: 't' :: b :: u := ⟨['n', 'o', 't', b], rfl⟩
    exact ((Text.stripStart_isSuffix u).trans hword).isInfix
  · cases h

/-- The path of a condition stands in its text. -/
theorem condition_isInfix {t p : Text} (h : (Condition.ofText t).path? = some p) : p <:+: t := by
  suffices hs : p <:+: t.strip from hs.trans (Text.strip_isInfix t)
  unfold Condition.ofText at h
  generalize t.strip = u at h
  simp only at h
  split at h
  · cases h
    exact List.infix_refl _
  · cases hc : (Condition.comparison? u).or (Condition.negation? u) with
    | none =>
      rw [hc] at h
      cases h
    | some c =>
      rw [hc] at h
      rcases Option.or_eq_some_iff.mp hc with hc | ⟨-, hc⟩
      · exact comparison?_isInfix hc h
      · exact negation?_isInfix hc h

theorem gap?_isSuffix {t u : Text} (h : gap? t = some u) : u <:+ t := by
  cases t with
  | nil => cases h
  | cons c t =>
    simp only [gap?, Option.ite_none_right_eq_some, Option.some.injEq] at h
    obtain ⟨-, rfl⟩ := h
    exact (Text.stripStart_isSuffix t).trans (List.suffix_cons c t)

theorem inWord?_isSuffix {t u : Text} (h : inWord? t = some u) : u <:+ t := by
  unfold inWord? at h
  split at h
  · cases h
    exact ⟨['i', 'n'], rfl⟩
  · cases h

/-- The path of a loop header stands in the argument of the loop. -/
theorem loopHeader_isInfix {t : Text} {header : LoopHeader}
    (h : LoopHeader.ofArgument? t = some header) : header.path <:+: t := by
  obtain ⟨⟨name, u⟩, hn, h⟩ := Option.bind_eq_some_iff.mp h
  obtain ⟨v, hv, h⟩ := Option.bind_eq_some_iff.mp h
  obtain ⟨w, hw, h⟩ := Option.bind_eq_some_iff.mp h
  obtain ⟨path, hp, h⟩ := Option.bind_eq_some_iff.mp h
  split at h
  · cases h
    have hsuffix := (gap?_isSuffix hp).trans ((inWord?_isSuffix hw).trans (gap?_isSuffix hv))
    exact (hsuffix.trans (Text.run?_isInfix hn).2).isInfix
  · cases h

end Stencil
