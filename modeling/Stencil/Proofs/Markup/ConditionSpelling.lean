import Stencil.Proofs.Markup.Written
import Stencil.Proofs.Render.Course
import Stencil.Render.Pipeline

/-!
# How a condition is spelled

A condition, without the blanks around it, has one of three forms (`Condition.Spelled`), or none:

    path
    path  blanks  == or !=  blanks  quote literal quote
    not  blanks  path

The forms exclude each other, since neither a blank nor a comparison sign nor a quote is a part of a
path, and `Condition.ofText` reads a text as the form that it has (`Condition.ofText_of_spelled`,
`Condition.spelled_ofText`).  `judge_eq_by_form` says what becomes of a condition of each form.
-/

namespace Stencil

/-- The sign of a comparison. -/
def comparisonSign (negated : Bool) : Text :=
  if negated then ['!', '='] else ['=', '=']

namespace Condition

/-- What a condition of each form looks like.  A literal may hold anything but its own quote. -/
inductive Spelled : Text → Condition → Prop
  | path {named : Text} (isPath : named.isPath = true) : Spelled named (.path named)
  | comparison {named before behind literal : Text} {quote : Char} (negated : Bool)
      (isPath : named.isPath = true) (blankBefore : before.AllBlank) (blankBehind : behind.AllBlank)
      (isQuote : quote = '"' ∨ quote = '\'') (free : quote ∉ literal) :
      Spelled
        (named ++ (before ++ (comparisonSign negated ++ (behind ++ quote :: (literal ++ [quote])))))
        (.comparison named negated literal)
  | negation {blanks named : Text} (apart : blanks ≠ []) (blank : blanks.AllBlank)
      (isPath : named.isPath = true) :
      Spelled ('n' :: 'o' :: 't' :: (blanks ++ named)) (.negation named)

/-! ## What is read is spelled like that -/

theorem comparisonSignAt_eq_some_iff {t rest : Text} {negated : Bool} :
    comparisonSignAt t = some (negated, rest) ↔ t = comparisonSign negated ++ rest := by
  unfold comparisonSignAt
  constructor
  · intro h
    split at h <;> cases h <;> rfl
  · rintro rfl
    cases negated <;> rfl

theorem quotedLiteral?_eq_some_iff {t literal : Text} :
    quotedLiteral? t = some literal ↔
      ∃ quote : Char, (quote = '"' ∨ quote = '\'') ∧ quote ∉ literal ∧
        t = quote :: (literal ++ [quote]) := by
  constructor
  · intro h
    unfold quotedLiteral? at h
    split at h
    · rename_i quote t
      split at h
      · rename_i hquote
        cases h
        have hcut := List.takeWhile_append_dropWhile (p := (· != quote)) (l := t)
        rw [hquote.2] at hcut
        refine ⟨quote, hquote.1, ?_, by rw [hcut]⟩
        intro hmem
        have := List.all_eq_true.mp List.all_takeWhile quote hmem
        simp at this
      · cases h
    · cases h
  · rintro ⟨quote, hquote, hfree, rfl⟩
    unfold quotedLiteral?
    dsimp only
    rw [if_pos ⟨hquote, Text.dropWhile_ne hfree []⟩, Text.takeWhile_ne hfree []]

theorem spelled_of_comparison? {t : Text} {c : Condition} (h : comparison? t = some c) :
    Spelled t c := by
  obtain ⟨⟨named, u⟩, hnamed, h⟩ := Option.bind_eq_some_iff.mp h
  obtain ⟨⟨negated, v⟩, hsign, h⟩ := Option.bind_eq_some_iff.mp h
  obtain ⟨literal, hliteral, hc⟩ := Option.bind_eq_some_iff.mp h
  cases hc
  obtain ⟨hne, rfl, hpath, -⟩ := Text.run?_eq_some_iff.mp hnamed
  obtain ⟨before, hbefore, hu⟩ := Text.exists_blanks u
  rw [comparisonSignAt_eq_some_iff.mp hsign] at hu
  obtain ⟨behind, hbehind, hv⟩ := Text.exists_blanks v
  obtain ⟨quote, hquote, hfree, he⟩ := quotedLiteral?_eq_some_iff.mp hliteral
  rw [he] at hv
  rw [hu, hv]
  exact .comparison negated (Text.isPath_iff.mpr ⟨hne, hpath⟩) hbefore hbehind hquote hfree

theorem spelled_of_negation? {t : Text} {c : Condition} (h : negation? t = some c) :
    Spelled t c := by
  unfold negation? at h
  split at h
  · rename_i b t
    dsimp only at h
    split at h
    · rename_i hb
      obtain ⟨blanks, hblanks, ht⟩ := Text.exists_blanks t
      cases h
      have hblank : Text.AllBlank (b :: blanks) := List.forall_mem_cons.mpr ⟨hb.1, hblanks⟩
      have hspelled := Spelled.negation (List.cons_ne_nil b blanks) hblank hb.2
      rwa [List.cons_append, ← ht] at hspelled
    · cases h
  · cases h

/-! ## What is spelled like that is read -/

/-- A comparison sign is no part of a path, and no blank. -/
theorem comparisonSign_ends (negated : Bool) (rest : Text) :
    ∀ c ∈ (comparisonSign negated ++ rest).head?, isBlank c = false ∧ isPathChar c = false := by
  cases negated <;> rintro c ⟨⟩ <;> decide +kernel

theorem comparison?_of_spelled {named before behind literal : Text} {quote : Char} (negated : Bool)
    (hpath : named.isPath = true) (hbefore : before.AllBlank) (hbehind : behind.AllBlank)
    (hquote : quote = '"' ∨ quote = '\'') (hfree : quote ∉ literal) :
    comparison?
        (named ++ (before ++ (comparisonSign negated ++ (behind ++ quote :: (literal ++ [quote])))))
      = some (.comparison named negated literal) := by
  have hends := comparisonSign_ends negated (behind ++ quote :: (literal ++ [quote]))
  have hrun := Text.run?_path hpath
    (Text.head?_blanks_append (fun c => isPathChar_of_isBlank) hbefore fun c hc => (hends c hc).2)
  have hsign : Text.stripStart
      (before ++ (comparisonSign negated ++ (behind ++ quote :: (literal ++ [quote]))))
        = comparisonSign negated ++ (behind ++ quote :: (literal ++ [quote])) := by
    rw [Text.stripStart_append_of_blank hbefore]
    exact Text.stripStart_of_head fun c hc => (hends c hc).1
  have hliteral : Text.stripStart (behind ++ quote :: (literal ++ [quote]))
      = quote :: (literal ++ [quote]) := by
    rw [Text.stripStart_append_of_blank hbehind]
    apply Text.stripStart_of_head
    rintro c ⟨⟩
    rcases hquote with rfl | rfl <;> decide
  unfold comparison?
  simp only [Option.bind_eq_bind, hrun, Option.bind_some, hsign,
    comparisonSignAt_eq_some_iff.mpr rfl, hliteral,
    quotedLiteral?_eq_some_iff.mpr ⟨quote, hquote, hfree, rfl⟩]
  rfl

/-- What is behind the word of a negation begins with no comparison sign. -/
theorem comparison?_negation {blanks named : Text} (hne : blanks ≠ []) (hblanks : blanks.AllBlank)
    (hpath : named.isPath = true) :
    comparison? ('n' :: 'o' :: 't' :: (blanks ++ named)) = none := by
  have hword : Text.isPath ['n', 'o', 't'] = true := by decide +kernel
  have hrun := Text.run?_path hword (t := blanks ++ named) (by
    obtain ⟨b, blanks, rfl⟩ := List.exists_cons_of_ne_nil hne
    rintro c ⟨⟩
    exact isPathChar_of_isBlank (hblanks b List.mem_cons_self))
  have hstart : Text.stripStart (blanks ++ named) = named := by
    rw [Text.stripStart_append_of_blank hblanks, Text.stripStart_of_isPath hpath]
  have hsign : comparisonSignAt named = none := by
    rw [Option.eq_none_iff_forall_ne_some]
    rintro ⟨negated, rest⟩ h
    rw [comparisonSignAt_eq_some_iff] at h
    subst h
    obtain ⟨hne', hall⟩ := Text.isPath_iff.mp hpath
    obtain ⟨c, t, hc⟩ := List.exists_cons_of_ne_nil hne'
    have hpathChar := hall c (by rw [hc]; exact List.mem_cons_self)
    rw [(comparisonSign_ends negated rest c (by rw [hc]; rfl)).2] at hpathChar
    cases hpathChar
  unfold comparison?
  simp only [Option.bind_eq_bind]
  rw [show 'n' :: 'o' :: 't' :: (blanks ++ named) = ['n', 'o', 't'] ++ (blanks ++ named) from rfl,
    hrun]
  simp only [Option.bind_some, hstart, hsign, Option.bind_none]

theorem negation?_of_spelled {blanks named : Text} (hne : blanks ≠ []) (hblanks : blanks.AllBlank)
    (hpath : named.isPath = true) :
    negation? ('n' :: 'o' :: 't' :: (blanks ++ named)) = some (.negation named) := by
  obtain ⟨b, blanks, rfl⟩ := List.exists_cons_of_ne_nil hne
  obtain ⟨hb, hblanks⟩ := List.forall_mem_cons.mp hblanks
  have hstart : Text.stripStart (blanks ++ named) = named := by
    rw [Text.stripStart_append_of_blank hblanks, Text.stripStart_of_isPath hpath]
  show (if isBlank b = true ∧ (Text.stripStart (blanks ++ named)).isPath = true then
    some (Condition.negation (Text.stripStart (blanks ++ named))) else none) = _
  rw [hstart, if_pos ⟨hb, hpath⟩]

/-- A text with a character that is no part of a path is no path. -/
theorem isPath_eq_false_of_mem {t : Text} {c : Char} (hc : c ∈ t) (h : isPathChar c = false) :
    t.isPath = false := by
  rw [Bool.eq_false_iff]
  intro ht
  have := (Text.isPath_iff.mp ht).2 c hc
  rw [h] at this
  cases this

/-- **A condition is read as the form that it has.** -/
theorem ofText_of_spelled {t : Text} {c : Condition} (h : Spelled t.strip c) : ofText t = c := by
  unfold ofText
  dsimp only
  generalize t.strip = u at h
  cases h with
  | path isPath => exact if_pos isPath
  | @comparison named before behind literal quote negated isPath hbefore hbehind hquote free =>
    have hnot := isPath_eq_false_of_mem (c := '=')
      (t := named ++
        (before ++ (comparisonSign negated ++ (behind ++ quote :: (literal ++ [quote])))))
      (by cases negated <;> simp [comparisonSign]) (by decide +kernel)
    rw [hnot, comparison?_of_spelled negated isPath hbefore hbehind hquote free]
    rfl
  | @negation blanks named apart blank isPath =>
    obtain ⟨b, rest, rfl⟩ := List.exists_cons_of_ne_nil apart
    have hnot := isPath_eq_false_of_mem (c := b) (t := 'n' :: 'o' :: 't' :: (b :: rest ++ named))
      (by simp) (isPathChar_of_isBlank (blank b List.mem_cons_self))
    rw [hnot, comparison?_negation apart blank isPath, negation?_of_spelled apart blank isPath]
    rfl

/-- A condition that has none of the forms is not supported. -/
theorem spelled_ofText (t : Text) :
    Spelled t.strip (ofText t) ∨ ofText t = .unsupported t.strip := by
  unfold ofText
  dsimp only
  split
  · rename_i hpath
    exact .inl (.path hpath)
  · cases hcomparison : comparison? t.strip with
    | some c => exact .inl (spelled_of_comparison? hcomparison)
    | none =>
      cases hnegation : negation? t.strip with
      | some c => exact .inl (spelled_of_negation? hnegation)
      | none => exact .inr rfl

theorem ofText_eq_unsupported {t : Text} (h : ∀ c, ¬ Spelled t.strip c) :
    ofText t = .unsupported t.strip :=
  (spelled_ofText t).resolve_left (h _)

/-- Whether what a path names is this text. -/
def isLiteral (literal : Text) : Option Value → Bool
  | some (.text t) => t == literal
  | _ => false

theorem isLiteral_iff {literal : Text} {value : Option Value} :
    isLiteral literal value = true ↔ value = some (.text literal) := by
  unfold isLiteral
  split
  · simp
  · rename_i hother
    simp only [Bool.false_eq_true, false_iff]
    rintro rfl
    exact hother literal rfl

end Condition

/-! ## What becomes of a condition -/

open Condition Render

variable {scope : Scope} {t : Text}

theorem judge_of_spelled {c : Condition} (h : Spelled t.strip c) :
    judge scope t = ofExcept (c.holds scope) := by
  unfold judge
  rw [ofText_of_spelled h]
  generalize t.strip = u at h
  cases h <;> rfl

theorem judge_of_path {named : Text} (h : Spelled t.strip (.path named)) :
    judge scope t = ofExcept ((scope.resolve named).map truthy) := by
  rw [judge_of_spelled h]
  show ofExcept (scope.resolve named >>= fun value => pure (truthy value)) = _
  cases scope.resolve named <;> rfl

theorem judge_of_comparison {named literal : Text} {negated : Bool}
    (h : Spelled t.strip (.comparison named negated literal)) :
    judge scope t
      = ofExcept ((scope.resolve named).map fun value => isLiteral literal value != negated) := by
  rw [judge_of_spelled h]
  show ofExcept (scope.resolve named >>= fun value => pure (isLiteral literal value != negated)) = _
  cases scope.resolve named <;> rfl

theorem judge_of_negation {named : Text} (h : Spelled t.strip (.negation named)) :
    judge scope t = ofExcept ((scope.resolve named).map fun value => !truthy value) := by
  rw [judge_of_spelled h]
  show ofExcept (scope.resolve named >>= fun value => pure (!truthy value)) = _
  cases scope.resolve named <;> rfl

theorem map_not_ofExcept {α : Type} (r : Except Failure α) (f : α → Bool) :
    (!·) <$> ofExcept (r.map f) = ofExcept (r.map fun a => !f a) := by
  cases r <;> rfl

/-- **A condition is judged by its form.**  Without the blanks around it, it has one form at most.
A path counts as what it names does, and one that names nothing as false; a comparison holds if the
path names just the literal, or, if it is negated, if not; a negation holds if the path does not
count as true.  Anything else is false, whatever the scope, and is noticed.  So the negation of a
path and an unequal comparison are judged contrary to the path and to the equal one. -/
theorem judge_eq_by_form (scope : Scope) (t : Text) :
    (∀ c c', Spelled t.strip c → Spelled t.strip c' → c = c') ∧
      (∀ named, Spelled t.strip (.path named) →
        judge scope t = ofExcept ((scope.resolve named).map truthy)) ∧
      (∀ named negated literal, Spelled t.strip (.comparison named negated literal) →
        ∃ equal : Option Value → Bool,
          (∀ value, equal value = true ↔ value = some (.text literal)) ∧
          judge scope t = ofExcept ((scope.resolve named).map (equal · != negated))) ∧
      (∀ named, Spelled t.strip (.negation named) →
        judge scope t = ofExcept ((scope.resolve named).map fun value => !truthy value)) ∧
      ((∀ c, ¬ Spelled t.strip c) →
        judge scope t = do note (.unsupportedCondition t.strip); return false) ∧
      (∀ u named, Spelled t.strip (.path named) → Spelled u.strip (.negation named) →
        judge scope u = (!·) <$> judge scope t) ∧
      ∀ u named literal, Spelled t.strip (.comparison named false literal) →
        Spelled u.strip (.comparison named true literal) →
        judge scope u = (!·) <$> judge scope t := by
  refine ⟨?_, ?_, ?_, ?_, ?_, ?_, ?_⟩
  · intro c c' h h'
    exact (ofText_of_spelled h).symm.trans (ofText_of_spelled h')
  · intro named h
    exact judge_of_path h
  · intro named negated literal h
    exact ⟨isLiteral literal, fun value => isLiteral_iff, judge_of_comparison h⟩
  · intro named h
    exact judge_of_negation h
  · intro h
    unfold judge
    rw [ofText_eq_unsupported h]
    rfl
  · intro u named h h'
    rw [judge_of_path h, judge_of_negation h', map_not_ofExcept]
  · intro u named literal h h'
    rw [judge_of_comparison h, judge_of_comparison h', map_not_ofExcept]
    simp

/-- A name that is the word of a negation, and a literal that holds the other quote or its own. -/
example :
    let scope : Scope := [(.text "not".toList, .text "a'".toList)]
    let answer (condition : Text) := (outcome (judge scope condition {})).toOption
    answer " not==\n\"a'\" ".toList = some true ∧ answer "not not".toList = some false ∧
      answer "not != 'a''".toList = some false := by
  decide +kernel

end Stencil
