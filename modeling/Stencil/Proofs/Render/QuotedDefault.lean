import Stencil.Proofs.Filter.Marks
import Stencil.Proofs.Markup.QuotedArgument
import Stencil.Proofs.Render.Unresolved

/-!
# A default between quotes

A placeholder whose path names nothing gives way to the default that its chain supplies:

    {{ path | default("...") }}

What stands between the quotes comes out as it is, unless it holds a closing parenthesis, and only
then (`default_returns_quoted_iff`).  For the parenthesis ends the argument list, though it stands
between quotes.  What is left of the list begins with a quote that nothing closes, and that quote
can be told from the text that was meant: it stays where it is, if no placeholder is found around
it, and if one is, it is in the value that the chain begins with (`Marked`).
-/

namespace Stencil

open Render

/-- The placeholder of a path with a default between quotes. -/
def defaulted (path : Text) (quote : Char) (s : Text) : Text :=
  ['{', '{', ' '] ++ path ++ " | default(".toList ++ (quote :: s)
    ++ (quote :: [')', ' ', '}', '}'])

/-- The chain of such a placeholder. -/
def defaultChain (quote : Char) (s : Text) : Text :=
  "| default(".toList ++ (quote :: s) ++ (quote :: ") ".toList)

section
variable {path s : Text} {quote : Char}

theorem defaulted_eq (path : Text) (quote : Char) (s : Text) : defaulted path quote s
    = '{' :: '{' :: ([' '] ++ (path ++ ([' '] ++ (defaultChain quote s ++ ['}', '}'])))) := by
  show ['{', '{', ' '] ++ path ++ (' ' :: "| default(".toList) ++ (quote :: s)
    ++ (quote :: [')', ' ', '}', '}']) = '{' :: '{' :: ([' '] ++ (path ++ ([' ']
      ++ ("| default(".toList ++ (quote :: s) ++ (quote :: [')', ' ']) ++ ['}', '}']))))
  generalize "| default(".toList = opening
  simp

/-- What stands around the quotes. -/
theorem defaulted_eq_around (path : Text) (quote : Char) (s : Text) : defaulted path quote s
    = ('{' :: '{' :: ' ' :: (path ++ " | default(".toList))
      ++ quote :: (s ++ quote :: [')', ' ', '}', '}']) := by
  show ['{', '{', ' '] ++ path ++ " | default(".toList ++ (quote :: s)
    ++ (quote :: [')', ' ', '}', '}']) = _
  generalize " | default(".toList = opening
  simp

theorem length_lt_defaulted (path : Text) (quote : Char) (s : Text) :
    s.length < (defaulted path quote s).length := by
  unfold defaulted
  simp only [List.length_append, List.length_cons]
  omega

/-! ## Without a parenthesis -/

/-- The list goes up to the parenthesis behind the quotes. -/
theorem defaulted_spelled (hpath : path.isPath = true) (hquote : isQuote quote = true)
    (hclosed : ')' ∉ s) : Filtered.Spelled (defaulted path quote s) ⟨path, defaultChain quote s⟩ ∧
      segments (defaultChain quote s) = [⟨"default".toList, some (quote :: (s ++ [quote]))⟩] := by
  have hlist : ')' ∉ quote :: (s ++ [quote]) := by
    have hne : quote ≠ ')' := of_isQuote (p := (· ≠ ')')) (by decide) (by decide) hquote
    simp [hclosed, hne.symm]
  have hsegment : Segment.Spelled (defaultChain quote s)
      ⟨"default".toList, some (quote :: (s ++ [quote]))⟩ := by
    refine ⟨[' '], [], _, [' '], Text.allBlank_blank, nofun, Text.allBlank_blank, ?_,
      .some hlist, ?_⟩
    · show Text.isWord "default".toList = true
      decide +kernel
    · show '|' :: ' ' :: ("default".toList ++ ['(']) ++ (quote :: s) ++ (quote :: [')', ' '])
        = '|' :: ([' '] ++ ("default".toList ++ ([]
          ++ ('(' :: (quote :: (s ++ [quote]) ++ [')']) ++ [' ']))))
      generalize "default".toList = name
      simp
  rw [defaulted_eq]
  exact spelled_of_segment hpath hsegment

/-- Such a default is what the placeholder gives way to. -/
theorem filteredStage_defaulted (hpath : path.isPath = true) (hquote : isQuote quote = true)
    (hfree : quote ∉ s) (hclosed : ')' ∉ s) {filters : Registry}
    (hfilters : filters.find? "default".toList = some (.builtin .default)) {scope : Scope}
    (hscope : scope.resolve path = .ok none) {st : State}
    (hleft : st.substitutions < st.limits.maxSubstitutions) :
    ∃ after, filteredStage filters (defaulted path quote s) scope st = .ok s after := by
  obtain ⟨hspelled, hsegments⟩ := defaulted_spelled hpath hquote hclosed
  have hchain : applyChain filters none (defaultChain quote s) = pure (some (.text s)) := by
    rw [applyChain_of_segment hsegments hfilters, readArguments_quoted hquote hfree]
    rfl
  -- the substitution is asked for once the text has been read
  let read := st.record (.reads .filtered (defaulted path quote s))
  have hreads : Render.reads .filtered (defaulted path quote s) st = .ok () read := rfl
  obtain ⟨t, hspend, -⟩ := exists_spend read
  have hgranted : 0 < read.counters.left := Nat.sub_pos_of_lt hleft
  have hpaid : payAndDisplay (some (.text s)) read = .ok (some s) t := by
    rw [payAndDisplay, bind_of_ok hspend, decide_eq_true hgranted]
    rfl
  refine ⟨t, ?_⟩
  rw [filteredStage_of_spelled hspelled, bind_of_ok hreads]
  unfold fillFiltered
  rw [hscope, show Render.ofExcept (.ok none) = pure none from rfl, pure_bind, hchain, pure_bind,
    bind_of_ok hpaid]
  rfl

/-! ## Around the quotes -/

/-- The first text of a cut, if it has no quote, ends before the first quote. -/
theorem exists_of_quote_not_mem_left {front rest u w : Text} (h : front ++ quote :: rest = u ++ w)
    (hu : quote ∉ u) : ∃ m, front = u ++ m ∧ w = m ++ quote :: rest := by
  rcases List.append_eq_append_iff.mp h with ⟨m, hum, hw⟩ | ⟨m, hfront, hw⟩
  · cases m with
    | nil => exact ⟨[], by simpa using hum.symm, hw.symm⟩
    | cons c m =>
      obtain ⟨rfl, -⟩ := List.cons_eq_cons.mp hw
      exact absurd (by simp [hum]) hu
  · exact ⟨m, hfront, hw⟩

/-- The last one, if it has no quote, begins behind the last quote. -/
theorem exists_of_quote_not_mem_right {front rest w v : Text} (h : front ++ quote :: rest = w ++ v)
    (hv : quote ∉ v) : ∃ m, rest = m ++ v ∧ w = front ++ quote :: m := by
  rcases List.append_eq_append_iff.mp h with ⟨m, hw, hmv⟩ | ⟨m, -, hvm⟩
  · cases m with
    | nil =>
      obtain rfl : v = quote :: rest := hmv.symm
      exact absurd List.mem_cons_self hv
    | cons c m =>
      obtain ⟨rfl, hrest⟩ := List.cons_eq_cons.mp hmv
      exact ⟨m, hrest, hw⟩
  · exact absurd (by simp [hvm]) hv

/-- A doubled character stands where it stands first. -/
theorem eq_nil_of_doubled {c : Char} {rest u v : Text} (h : c :: c :: rest = u ++ c :: c :: v)
    (hrest : c ∉ rest) : u = [] := by
  cases u with
  | nil => rfl
  | cons d u =>
    obtain ⟨-, htail⟩ := List.cons_eq_cons.mp h
    cases u with
    | nil =>
      obtain ⟨-, rfl⟩ := List.cons_eq_cons.mp htail
      exact absurd List.mem_cons_self hrest
    | cons d' u =>
      obtain ⟨-, rfl⟩ := List.cons_eq_cons.mp htail
      exact absurd (by simp) hrest

/-- A placeholder around the quotes is the whole text. -/
theorem eq_nil_of_spelled (hpath : path.isPath = true) (hquote : isQuote quote = true)
    {u piece v : Text} {f : Filtered} (hf : f.Spelled piece)
    (h : defaulted path quote s = u ++ (piece ++ v)) (hu : quote ∉ u) (hv : quote ∉ v) :
    u = [] ∧ v = [] := by
  obtain ⟨⟨before, behind, -, -, -, hpiece⟩, -⟩ := hf
  have hopening : '{' ∉ " | default(".toList := by decide
  have haround := defaulted_eq_around path quote s
  generalize " | default(".toList = opening at hopening haround
  rw [haround] at h
  constructor
  · -- the braces that open the placeholder are those at the head of the text
    have hopen : quote ∉ ['{', '{'] :=
      of_isQuote (p := (· ∉ ['{', '{'])) (by decide) (by decide) hquote
    have hfront : '{' ∉ ' ' :: (path ++ opening) := by
      simp [brace_not_mem_path hpath, hopening]
    obtain ⟨m, hm, hrest⟩ := exists_of_quote_not_mem_left h hu
    rw [hpiece] at hrest
    obtain ⟨m', rfl, -⟩ := exists_of_quote_not_mem_left (u := ['{', '{']) hrest.symm hopen
    exact eq_nil_of_doubled hm hfront
  · -- those that close it are those at its end
    have hclose : quote ∉ ['}', '}'] :=
      of_isQuote (p := (· ∉ ['}', '}'])) (by decide) (by decide) hquote
    have hbehind : (('{' :: '{' :: ' ' :: (path ++ opening)) ++ quote :: s)
        ++ quote :: [')', ' ', '}', '}'] = (u ++ piece) ++ v := by
      rw [List.append_assoc u, ← h]
      simp
    obtain ⟨m, hm, hrest⟩ := exists_of_quote_not_mem_right hbehind hv
    have hends : u ++ piece
        = (u ++ '{' :: '{' :: (before ++ (f.path ++ (behind ++ f.chain)))) ++ ['}', '}'] := by
      rw [hpiece]
      simp
    obtain ⟨m', rfl, -⟩ := exists_of_quote_not_mem_right (hrest.symm.trans hends) hclose
    have hreversed : '}' :: '}' :: [' ', ')'] = v.reverse ++ '}' :: '}' :: m'.reverse := by
      have := congrArg List.reverse hm
      rwa [List.reverse_append, List.reverse_append] at this
    exact List.reverse_eq_nil_iff.mp (eq_nil_of_doubled hreversed (by decide))

/-! ## With a parenthesis -/

/-- Where the text is read as one placeholder, its chain is what stands behind the path. -/
theorem chain_of_spelled (hpath : path.isPath = true) {f : Filtered}
    (hf : f.Spelled (defaulted path quote s)) : f.chain = defaultChain quote s := by
  obtain ⟨⟨before, behind, hbefore, hbehind, hfpath, htext⟩, pieces, list, hne, hchain, hpieces⟩ :=
    hf
  have hends : ∀ c ∈ (f.chain ++ ['}', '}']).head?, isBlank c = false ∧ isPathChar c = false := by
    rw [hchain]
    cases hpieces with
    | nil => exact absurd rfl hne
    | cons hpiece _ =>
      obtain ⟨t, rfl⟩ := hpiece.exists_cons
      exact bar_ends _
  have hread := placeholderPathAt_of_spelled hbefore hbehind hfpath hends
  have hbar : ∀ c ∈ (defaultChain quote s ++ ['}', '}']).head?,
      isBlank c = false ∧ isPathChar c = false := bar_ends _
  have hmeant := placeholderPathAt_of_spelled Text.allBlank_blank Text.allBlank_blank hpath hbar
  rw [← htext, defaulted_eq, hmeant] at hread
  have hboth := congrArg Prod.snd (Option.some.inj hread)
  exact (List.append_cancel_right hboth).symm

/-- A list ends at its first parenthesis. -/
theorem segmentAt_list {name list : Text} (hword : name.isWord = true) (hlist : ')' ∉ list)
    (rest : Text) : segmentAt ('|' :: ' ' :: (name ++ '(' :: (list ++ ')' :: rest)))
      = some (⟨name, some list⟩, rest.stripStart) := by
  have hstart (t : Text) : Text.stripStart (' ' :: (name ++ t)) = name ++ t := by
    rw [Text.stripStart_blank]
    exact Text.stripStart_append_of_path (Text.isPath_of_isWord hword) t
  have hrun := Text.run?_word hword (t := '(' :: (list ++ ')' :: rest))
    (by rintro c ⟨⟩; decide +kernel)
  have hopen : Text.stripStart ('(' :: (list ++ ')' :: rest)) = '(' :: (list ++ ')' :: rest) :=
    Text.stripStart_of_head (by rintro c ⟨⟩; decide)
  unfold segmentAt
  simp only [hstart, hrun, Option.bind_eq_bind, Option.bind_some, hopen,
    argumentListAt_written hlist]
  rfl

/-- The chain begins with a default whose list ends inside the quotes. -/
theorem exists_segments (hquote : isQuote quote = true) {a : Text} (hclosed : ')' ∉ a) (b : Text) :
    ∃ rest, segments (defaultChain quote (a ++ ')' :: b))
      = ⟨"default".toList, some (quote :: a)⟩ :: rest := by
  have hlist : ')' ∉ quote :: a := by
    have hne : quote ≠ ')' := of_isQuote (p := (· ≠ ')')) (by decide) (by decide) hquote
    simp [hclosed, hne.symm]
  have hword : Text.isWord "default".toList = true := by decide +kernel
  have hread := segmentAt_list hword hlist (b ++ quote :: ") ".toList)
  have hchain : defaultChain quote (a ++ ')' :: b) = '|' :: ' ' :: ("default".toList
      ++ '(' :: ((quote :: a) ++ ')' :: (b ++ quote :: ") ".toList))) := by
    show '|' :: ' ' :: ("default".toList ++ ['(']) ++ (quote :: (a ++ ')' :: b))
      ++ (quote :: ") ".toList) = _
    generalize "default".toList = name
    simp
  rw [hchain]
  unfold segments occurrences
  rw [occurrencesFrom, hread]
  exact ⟨_, rfl⟩

theorem resolve_nil (path : Text) : Scope.resolve [] path = .ok none := by
  obtain ⟨rest, -, hresolve⟩ := Scope.resolve_eq path
  rw [hresolve]
  rfl

/-- What the chain makes of nothing has the quote, or is a size. -/
theorem marked_of_value (hquote : isQuote quote = true) (hfree : quote ∉ s) (hparen : ')' ∈ s)
    {f : Filtered} (hchain : f.chain = defaultChain quote s) {v : Value}
    (h : f.value .standard [] = .ok (some v)) : Marked quote v := by
  have hcaseless : Caseless quote :=
    of_isQuote (p := Caseless) (by decide +kernel) (by decide +kernel) hquote
  obtain ⟨a, b, rfl, hclosed⟩ := List.eq_append_cons_of_mem hparen
  have hunclosed : quote ∉ a := fun hmem => hfree (List.mem_append_left _ hmem)
  obtain ⟨rest, hsegments⟩ := exists_segments hquote hclosed b
  obtain ⟨u, hu⟩ := readArguments_unclosed hquote hunclosed
  have hfirst : Registry.standard.pass none ⟨"default".toList, some (quote :: a)⟩
      = .ok (some (.text (quote :: u))) := by
    show Except.ok (some ((readArguments (some (quote :: a))).head?.getD (.text []))) = _
    rw [hu]
    rfl
  unfold Filtered.value at h
  rw [resolve_nil, hchain, hsegments] at h
  have hrest : rest.foldlM Registry.standard.pass (some (.text (quote :: u))) = .ok (some v) := by
    rw [← h]
    show _ = List.foldlM _ _ _
    rw [List.foldlM_cons, hfirst]
    rfl
  obtain ⟨w, hw, hmarked⟩ :=
    Marked.foldlM_standard hcaseless (.text (.inl List.mem_cons_self)) hrest
  cases hw
  exact hmarked

/-- Where one edit takes the quotes away, what is left is the value of the chain. -/
theorem traced_of_fills (hpath : path.isPath = true) (hquote : isQuote quote = true)
    (hfree : quote ∉ s) (hparen : ')' ∈ s) {o : Occurrence Filtered} {e : Edit}
    (ho : o ∈ occurrences filteredAt (defaulted path quote s)) (hfills : Fills .standard [] o e)
    (hgone : quote ∉ (defaulted path quote s).edited 0 [e]) :
    ((defaulted path quote s).edited 0 [e]).Traced quote := by
  obtain ⟨hstart, hstop, v, hvalue, htext⟩ := hfills
  obtain ⟨hlt, hle, hspelled⟩ :=
    (filteredAt_takes.leftmost (defaulted path quote s) 0).spells_of_mem o ho
  have hedited : (defaulted path quote s).edited 0 [e]
      = (defaulted path quote s).slice 0 o.start ++ e.text
        ++ (defaulted path quote s).drop o.stop := by
    rw [← hstart, ← hstop]
    rfl
  have hsplit : defaulted path quote s = (defaulted path quote s).slice 0 o.start
      ++ ((defaulted path quote s).slice o.start o.stop
        ++ (defaulted path quote s).drop o.stop) := by
    rw [Text.slice_append_drop _ (Nat.le_of_lt hlt), Text.slice_append_drop _ (Nat.zero_le _)]
    rfl
  have hu : quote ∉ (defaulted path quote s).slice 0 o.start := by
    intro hmem
    exact hgone (hedited ▸ List.mem_append_left _ (List.mem_append_left _ hmem))
  have hv : quote ∉ (defaulted path quote s).drop o.stop := by
    intro hmem
    exact hgone (hedited ▸ List.mem_append_right _ hmem)
  obtain ⟨hfront, hbehind⟩ := eq_nil_of_spelled hpath hquote hspelled hsplit hu hv
  rw [hfront, hbehind, List.nil_append, List.append_nil] at hsplit hedited
  rw [← hsplit] at hspelled
  rw [hedited]
  exact (marked_of_value hquote hfree hparen (chain_of_spelled hpath hspelled) hvalue).display htext

/-- With a substitution left for one placeholder, a default with a parenthesis does not come out. -/
theorem not_mem_of_filteredStage (hpath : path.isPath = true) (hquote : isQuote quote = true)
    (hfree : quote ∉ s) {st after : State}
    (hleft : st.limits.maxSubstitutions - st.substitutions = 1)
    (h : filteredStage .standard (defaulted path quote s) [] st = .ok s after) : ')' ∉ s := by
  intro hparen
  obtain ⟨-, es, hes, hout⟩ := filteredStage_standard_iff.mp ⟨after, h⟩
  rw [hleft] at hes
  cases hfound : (occurrences filteredAt (defaulted path quote s)).filter
      fun o => !o.item.stays [] with
  | nil =>
    -- nothing is replaced, and the text is longer than what stands between its quotes
    rw [hfound] at hes
    cases hes
    have hlength := length_lt_defaulted path quote s
    rw [← show s = defaulted path quote s from hout] at hlength
    omega
  | cons o os =>
    rw [hfound] at hes
    obtain _ | @⟨_, e, _, _, hfills, _ | _⟩ := hes
    have ho : o ∈ occurrences filteredAt (defaulted path quote s) :=
      List.mem_of_mem_filter (hfound ▸ List.mem_cons_self)
    have htraced := traced_of_fills hpath hquote hfree hparen ho hfills (hout ▸ hfree)
    rw [← hout] at htraced
    rcases htraced with hmem | ⟨-, hdigits⟩
    · exact hfree hmem
    · exact absurd (hdigits ')' hparen) (by decide)

end

/-- In every scope where the path names nothing, and with a substitution left, the stage returns
what stands between the quotes. -/
def ComesOut (filters : Registry) (path : Text) (quote : Char) (s : Text) : Prop :=
  ∀ (scope : Scope) (st : State), scope.resolve path = .ok none →
    st.substitutions < st.limits.maxSubstitutions →
    ∃ after, filteredStage filters (defaulted path quote s) scope st = .ok s after

/-- **A default between quotes comes out unless it holds a closing parenthesis, and only then.**
Commas, bars, braces, line ends and the other quote do not matter, nor do the filters that an
application has registered besides. -/
theorem default_returns_quoted_iff {path s : Text} {quote : Char} (hpath : path.isPath = true)
    (hquote : isQuote quote = true) (hfree : quote ∉ s) :
    (ComesOut .standard path quote s ↔ ')' ∉ s) ∧
    (')' ∉ s → ∀ filters : Registry,
      filters.find? "default".toList = some (.builtin .default) →
        ComesOut filters path quote s) := by
  have hcomes (hclosed : ')' ∉ s) (filters : Registry)
      (hfilters : filters.find? "default".toList = some (.builtin .default)) :
      ComesOut filters path quote s := by
    intro scope st hscope hleft
    exact filteredStage_defaulted hpath hquote hfree hclosed hfilters hscope hleft
  refine ⟨⟨fun h => ?_, fun hclosed => hcomes hclosed .standard rfl⟩, hcomes⟩
  -- one substitution is enough to tell
  obtain ⟨after, hafter⟩ := h [] { limits := ⟨32, 1⟩ } (resolve_nil path) (by decide)
  exact not_mem_of_filteredStage hpath hquote hfree rfl hafter

/-- Commas, bars, braces, an opening parenthesis, a line end and the other quote. -/
theorem default_returns_quoted_iff_of_braces :
    let s : Text := "it's, | (a {{ b }}\n".toList
    (Text.isPath "p.q".toList = true ∧ isQuote '"' = true ∧ '"' ∉ s ∧ ')' ∉ s) ∧
    ComesOut .standard "p.q".toList '"' s ∧
    ∃ after, filteredStage .standard (defaulted "p.q".toList '"' s) [] {} = .ok s after := by
  intro s
  have hpath : Text.isPath "p.q".toList = true := by decide +kernel
  have hquote : isQuote '"' = true := by decide
  have hfree : '"' ∉ s := by decide
  have hclosed : ')' ∉ s := by decide
  have hcomes := (default_returns_quoted_iff hpath hquote hfree).1.mpr hclosed
  exact ⟨⟨hpath, hquote, hfree, hclosed⟩, hcomes, hcomes [] {} (resolve_nil _) (by decide)⟩

/-- A parenthesis between quotes: no placeholder is found, and the text stays as it is. -/
theorem default_with_parenthesis_stays :
    let text : Text := ['{', '{', ' '] ++ "p | default(\")\")".toList ++ [' ', '}', '}']
    let s : State := {}
    defaulted "p".toList '"' ")".toList = text ∧ isQuote '"' = true ∧ '"' ∉ ")".toList ∧
      Scope.resolve [] "p".toList = .ok none ∧ s.substitutions < s.limits.maxSubstitutions ∧
      (outcome (filteredStage .standard text [] s)).toOption = some text ∧
      ¬ ComesOut .standard "p".toList '"' ")".toList := by
  intro text s
  have hstays : (outcome (filteredStage .standard text [] s)).toOption = some text := by
    decide +kernel
  refine ⟨by decide, by decide, by decide, resolve_nil _, by decide, hstays, fun h => ?_⟩
  obtain ⟨after, hafter⟩ := h [] s (resolve_nil _) (by decide)
  have hmeant : (outcome (filteredStage .standard text [] s)).toOption = some ")".toList := by
    show (outcome (filteredStage .standard (defaulted "p".toList '"' ")".toList) [] s)).toOption = _
    unfold outcome
    rw [hafter]
    rfl
  rw [hstays] at hmeant
  exact absurd hmeant (by decide)

end Stencil
