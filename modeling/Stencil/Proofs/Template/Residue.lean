import Stencil.Proofs.Markup.Written
import Stencil.Proofs.Template.NoBrace
import Stencil.Proofs.Text.Both

/-!
# What a walk leaves

A walk over a tree leaves a list of pieces: literal text, and placeholders that nothing has filled
(`Tree.residue`).  Its text is what the walk says (`Tree.toOption_walk`).  Going over the tree in
stages leaves the same (`Tree.stages_eq_residue`): first conditionals give way to their branches
(`Tree.decide`), then loops to what their turns leave (`Part.expand`), then the two kinds of
placeholder are filled, those that the turns have left among them.  The latter name nothing in the
scopes around the loop (`Tree.left_of_residue`), so that the second look at them changes nothing.
-/

namespace Stencil

/-! ## One walk -/

/-- The piece that is left of a piece. -/
def Piece.settle (scope : Scope) (p : Piece) : Option (List Piece) :=
  (p.fill scope).toOption.map fun filled => [filled.elim p literal]

/-- The pieces that a walk leaves. -/
def Tree.residue : Tree → Scope → Option (List Piece)
  | done, _ => some []
  | piece p rest, scope => both (p.settle scope) (rest.residue scope)
  | conditional condition body rest, scope =>
    both (((Condition.ofText condition).holds scope).toOption.bind fun truth =>
      if truth then body.residue scope else some []) (rest.residue scope)
  | either condition body other rest, scope =>
    both (((Condition.ofText condition).holds scope).toOption.bind fun truth =>
      if truth then body.residue scope else other.residue scope) (rest.residue scope)
  | loop name path body rest, scope =>
    both ((scope.resolve path).toOption.bind fun value =>
      allBoth (fun item => body.residue (scope.bind name item)) (itemsOf value))
      (rest.residue scope)

theorem toOption_bind {α β : Type} (x : Except Failure α) (f : α → Except Failure β) :
    (x >>= f).toOption = x.toOption.bind fun a => (f a).toOption := by
  cases x <;> rfl

/-- One text after the other, if there are both. -/
theorem toOption_append (x y : Except Failure Text) :
    (do let t ← x; return t ++ (← y) : Except Failure Text).toOption
      = both x.toOption y.toOption := by
  cases x <;> cases y <;> rfl

theorem toOption_flatten_mapM (f : Value → Except Failure Text) (items : List Value)
    (y : Except Failure Text) :
    (do let turns ← items.mapM f; return turns.flatten ++ (← y) : Except Failure Text).toOption
      = both (allBoth (fun item => (f item).toOption) items) y.toOption := by
  induction items generalizing y with
  | nil => cases y <;> rfl
  | cons item items ih =>
    rw [allBoth, both_assoc, ← ih, List.mapM_cons]
    cases f item with
    | error e => rfl
    | ok t =>
      cases items.mapM f with
      | error e => rfl
      | ok ts =>
        cases y with
        | error e => rfl
        | ok u =>
          show some ((t :: ts).flatten ++ u) = some (t ++ (ts.flatten ++ u))
          rw [List.flatten_cons, List.append_assoc]

theorem Piece.map_settle (p : Piece) (scope : Scope) :
    (p.settle scope).map (·.flatMap Piece.print)
      = (p.fill scope).toOption.map (·.getD p.print) := by
  unfold settle
  cases p.fill scope with
  | error e => rfl
  | ok filled =>
    refine (map_flatMap_singleton Piece.print (filled.elim p literal)).trans ?_
    cases filled <;> rfl

/-- The text of what a walk leaves is what the walk says. -/
theorem Tree.toOption_walk (tree : Tree) (scope : Scope) :
    (tree.walk scope).toOption = (tree.residue scope).map (·.flatMap Piece.print) := by
  induction tree generalizing scope with
  | done => rfl
  | piece p rest ih =>
    rw [residue, map_both, p.map_settle, ← ih]
    rw [walk]
    cases p.fill scope with
    | error e => rfl
    | ok filled => exact toOption_append (.ok (filled.getD p.print)) _
  | conditional condition body rest ihb ihr =>
    rw [residue, map_both, ← ihr]
    rw [walk]
    cases (Condition.ofText condition).holds scope with
    | error e => rfl
    | ok truth =>
      cases truth with
      | true => exact (toOption_append _ _).trans (congrArg (both · (rest.walk scope).toOption) (ihb scope))
      | false => exact toOption_append (.ok []) _
  | either condition body other rest ihb iho ihr =>
    rw [residue, map_both, ← ihr]
    rw [walk]
    cases (Condition.ofText condition).holds scope with
    | error e => rfl
    | ok truth =>
      cases truth with
      | true => exact (toOption_append _ _).trans (congrArg (both · (rest.walk scope).toOption) (ihb scope))
      | false => exact (toOption_append _ _).trans (congrArg (both · (rest.walk scope).toOption) (iho scope))
  | loop name path body rest ihb ihr =>
    rw [residue, map_both, ← ihr]
    rw [walk]
    cases scope.resolve path with
    | error e => rfl
    | ok value =>
      refine (toOption_flatten_mapM _ _ _).trans ?_
      simp only [ihb]
      exact congrArg (both · (rest.walk scope).toOption) (map_allBoth _ _ _).symm

/-! ## What the pieces left are like -/

theorem Piece.fill_congr {p : Piece} {s₁ s₂ : Scope}
    (h : ∀ path ∈ p.path?, s₁.resolve path = s₂.resolve path) : p.fill s₁ = p.fill s₂ := by
  cases p with
  | literal t => rfl
  | plain path => simp only [fill, h path rfl]
  | filtered path calls => simp only [fill, h path rfl]

theorem Builtin.isSome_of_apply (b : Builtin) {v : Value} {args : List Value}
    {result : Option Value} (h : b.apply (some v) args = .ok result) : result.isSome = true := by
  have htext {change : Text → Text} (h : applyToText change (some v) args = .ok result) :
      result.isSome = true := by
    obtain ⟨t, -, he⟩ := exists_of_bind_ok h
    cases he
    rfl
  cases b with
  | default =>
    unfold apply applyDefault at h
    dsimp only at h
    split at h
    all_goals
      cases h
      rfl
  | upper => exact htext h
  | lower => exact htext h
  | capitalize => exact htext h
  | length =>
    unfold apply applyLength at h
    dsimp only at h
    split at h
    all_goals
      cases h
      rfl
  | join =>
    unfold apply applyJoin at h
    dsimp only at h
    split at h
    · cases args
      all_goals
        obtain ⟨separator, -, h⟩ := exists_of_bind_ok h
        obtain ⟨ts, -, he⟩ := exists_of_bind_ok h
        cases he
        rfl
    · cases h
      rfl

/-- What has a value keeps one through filters. -/
theorem isSome_of_applyCalls {calls : List Call} {v : Value} {result : Option Value}
    (h : applyCalls calls (some v) = .ok result) : result.isSome = true := by
  induction calls generalizing v with
  | nil => cases h; rfl
  | cons c calls ih =>
    unfold applyCalls at h
    rw [List.foldlM_cons] at h
    obtain ⟨next, hnext, hrest⟩ := exists_of_bind_ok h
    cases next with
    | none => cases c.filter.isSome_of_apply hnext
    | some w => exact ih hrest

/-- The path of a placeholder that nothing fills names nothing. -/
theorem Piece.resolve_of_fill {p : Piece} {scope : Scope} (h : p.fill scope = .ok none) :
    ∀ path ∈ p.path?, scope.resolve path = .ok none := by
  have hdisplayed {value : Option Value} (h : displayed value = .ok none) : value = none := by
    cases value with
    | none => rfl
    | some v =>
      obtain ⟨t, -, he⟩ := exists_of_bind_ok h
      cases he
  cases p with
  | literal t => exact fun _ h => by cases h
  | plain path =>
    rintro _ ⟨⟩
    obtain ⟨value, hvalue, h⟩ := exists_of_bind_ok h
    rw [hvalue, hdisplayed h]
  | filtered path calls =>
    rintro _ ⟨⟩
    obtain ⟨value, hvalue, hrest⟩ := exists_of_bind_ok h
    obtain ⟨result, hresult, hdisplay⟩ := exists_of_bind_ok hrest
    rw [hdisplayed hdisplay] at hresult
    cases value with
    | none => exact hvalue
    | some v =>
      cases isSome_of_applyCalls hresult

/-- A piece that may stand in a text for the scopes around: it is well-formed, and nothing fills it
there. -/
structure Piece.Left (outer : List Scope) (p : Piece) : Prop where
  wellFormed : p.WellFormed
  fill : ∀ o ∈ outer, p.fill o = .ok none

theorem Piece.left_of_settle {p : Piece} (hp : p.WellFormed) {scope : Scope} {outer : List Scope}
    (hs : Value.EntriesNoBrace scope)
    (hsettled : ∀ path ∈ p.path?, scope.resolve path = .ok none →
      ∀ o ∈ outer, o.resolve path = .ok none) {ps : List Piece} (h : p.settle scope = some ps) :
    ∀ q ∈ ps, q.Left outer := by
  unfold settle at h
  cases hfill : p.fill scope with
  | error e => rw [hfill] at h; cases h
  | ok filled =>
    rw [hfill] at h
    cases h
    intro q hq
    cases List.mem_singleton.mp hq
    cases filled with
    | some t => exact ⟨brace_not_mem_fill hp hs hfill, fun _ _ => rfl⟩
    | none =>
      have hnone := resolve_of_fill hfill
      refine ⟨hp, fun o ho => ?_⟩
      rw [← hfill]
      refine fill_congr fun path hpath => ?_
      rw [hsettled path hpath (hnone path hpath) o ho, hnone path hpath]

theorem Piece.Left.of_cons {scope : Scope} {outer : List Scope} {p : Piece}
    (h : p.Left (scope :: outer)) : p.Left outer :=
  ⟨h.wellFormed, fun o ho => h.fill o (List.mem_cons_of_mem _ ho)⟩

theorem brace_not_mem_word {name : Text} (h : name.isWord = true) : '{' ∉ name := by
  intro hmem
  have := (Text.isWord_iff.mp h).2 '{' hmem
  rw [show isWordChar '{' = false by decide +kernel] at this
  cases this

theorem noBrace_itemsOf {scope : Scope} (hs : Value.EntriesNoBrace scope) {path : Text}
    {value : Option Value} (h : scope.resolve path = .ok value) :
    ∀ item ∈ itemsOf value, item.NoBrace := by
  intro item hitem
  unfold itemsOf at hitem
  split at hitem
  · exact noBrace_of_mem (Scope.noBrace_resolve hs h) hitem
  · cases hitem

/-- The pieces that the turns of a loop leave. -/
def turnsResidue (body : Tree) (name path : Text) (scope : Scope) : Option (List Piece) :=
  (scope.resolve path).toOption.bind fun value =>
    allBoth (fun item => body.residue (scope.bind name item)) (itemsOf value)

/-- What the turns of a loop leave stays in the scope around them, if that is so for each turn. -/
theorem left_of_turnsResidue {body : Tree} {name path : Text} {scope : Scope} {outer : List Scope}
    (hname : name.isWord = true) (hs : Value.EntriesNoBrace scope)
    (hsettled : ∀ value, scope.resolve path = .ok value → ∀ item ∈ itemsOf value,
      body.Settled (scope :: outer) (scope.bind name item))
    (hbody : ∀ inner : Scope, Value.EntriesNoBrace inner → body.Settled (scope :: outer) inner →
      ∀ ps, body.residue inner = some ps → ∀ p ∈ ps, p.Left (scope :: outer)) {ps : List Piece}
    (h : turnsResidue body name path scope = some ps) : ∀ p ∈ ps, p.Left (scope :: outer) := by
  obtain ⟨value, hvalue, h⟩ := Option.bind_eq_some_iff.mp h
  have hresolve : scope.resolve path = .ok value := by
    cases hr : scope.resolve path with
    | error e => rw [hr] at hvalue; cases hvalue
    | ok v => rw [hr] at hvalue; cases hvalue; rfl
  intro p hp
  obtain ⟨item, hitem, qs, hqs, hmem⟩ := mem_of_allBoth h hp
  have hscope : Value.EntriesNoBrace (scope.bind name item) :=
    Scope.noBrace_bind hs (brace_not_mem_word hname) (noBrace_itemsOf hs hresolve item hitem)
  exact hbody _ hscope (hsettled value hresolve item hitem) qs hqs p hmem

/-- What comes of a conditional comes of the branch that its condition chooses. -/
theorem forall_mem_of_chosen {α : Type} {c : Condition} {scope : Scope} {x y : Option (List α)}
    {P : α → Prop} {as : List α}
    (h : ((c.holds scope).toOption.bind fun truth => if truth then x else y) = some as)
    (hx : c.holds scope = .ok true → x = some as → ∀ a ∈ as, P a)
    (hy : c.holds scope = .ok false → y = some as → ∀ a ∈ as, P a) : ∀ a ∈ as, P a := by
  cases hholds : c.holds scope with
  | error e => rw [hholds] at h; cases h
  | ok truth =>
    rw [hholds] at h
    cases truth with
    | true => exact hx hholds h
    | false => exact hy hholds h

theorem Tree.left_of_residue {tree : Tree} (ht : tree.WellFormed) {scope : Scope}
    {outer : List Scope} (hs : Value.EntriesNoBrace scope) (hsettled : tree.Settled outer scope)
    {ps : List Piece} (h : tree.residue scope = some ps) : ∀ p ∈ ps, p.Left outer := by
  induction tree generalizing scope outer ps with
  | done => cases h; exact fun _ h => by cases h
  | piece p rest ih =>
    obtain ⟨qs, rs, hq, hr, rfl⟩ := both_eq_some_iff.mp h
    exact List.forall_mem_append.mpr
      ⟨Piece.left_of_settle ht.1 hs hsettled.1 hq, ih ht.2 hs hsettled.2 hr⟩
  | conditional condition body rest ihb ihr =>
    obtain ⟨qs, rs, hq, hr, rfl⟩ := both_eq_some_iff.mp h
    refine List.forall_mem_append.mpr
      ⟨forall_mem_of_chosen hq (fun htrue hb => ?_) fun _ hb => ?_, ihr ht.2.2 hs hsettled.2 hr⟩
    · exact ihb ht.2.1 hs (hsettled.1 htrue) hb
    · cases hb
      exact fun _ h => by cases h
  | either condition body other rest ihb iho ihr =>
    obtain ⟨qs, rs, hq, hr, rfl⟩ := both_eq_some_iff.mp h
    refine List.forall_mem_append.mpr
      ⟨forall_mem_of_chosen hq (fun htrue hb => ?_) fun hfalse hb => ?_, ihr ht.2.2.2 hs hsettled.2.2 hr⟩
    · exact ihb ht.2.1 hs (hsettled.1 htrue) hb
    · exact iho ht.2.2.1 hs (hsettled.2.1 hfalse) hb
  | loop name path body rest ihb ihr =>
    obtain ⟨qs, rs, hq, hr, rfl⟩ := both_eq_some_iff.mp h
    refine List.forall_mem_append.mpr
      ⟨fun p hp => (left_of_turnsResidue ht.1 hs hsettled.1 (fun inner hi hb qs hqs =>
        ihb ht.2.2.1 hi hb hqs) hq p hp).of_cons, ihr ht.2.2.2 hs hsettled.2 hr⟩

/-! ## The stages -/

/-- What is left of a tree when its conditionals have given way: pieces and loops. -/
inductive Part where
  | piece (p : Piece)
  | loop (name path : Text) (body : Tree)

/-- The parts of a tree once the conditionals outside loops are decided. -/
def Tree.decide : Tree → Scope → Option (List Part)
  | done, _ => some []
  | piece p rest, scope => both (some [.piece p]) (rest.decide scope)
  | conditional condition body rest, scope =>
    both (((Condition.ofText condition).holds scope).toOption.bind fun truth =>
      if truth then body.decide scope else some []) (rest.decide scope)
  | either condition body other rest, scope =>
    both (((Condition.ofText condition).holds scope).toOption.bind fun truth =>
      if truth then body.decide scope else other.decide scope) (rest.decide scope)
  | loop name path body rest, scope => both (some [.loop name path body]) (rest.decide scope)

/-- The pieces that a part is expanded to. -/
def Part.expand (scope : Scope) : Part → Option (List Piece)
  | piece p => some [p]
  | loop name path body => turnsResidue body name path scope

/-- What the stage of plain placeholders leaves of a piece. -/
def Piece.settlePlain (scope : Scope) (p : Piece) : Option (List Piece) :=
  match p with
  | plain _ => p.settle scope
  | _ => some [p]

/-- What the stage of filtered placeholders leaves of a piece. -/
def Piece.settleFiltered (scope : Scope) (p : Piece) : Option (List Piece) :=
  match p with
  | filtered .. => p.settle scope
  | _ => some [p]

/-- Each piece is settled in one of the two stages, and not touched in the other. -/
theorem settlePlain_bind_settleFiltered (p : Piece) (scope : Scope) :
    (p.settlePlain scope).bind (allBoth (Piece.settleFiltered scope)) = p.settle scope := by
  cases p with
  | literal t => rfl
  | filtered path calls => exact allBoth_singleton _ _
  | plain path =>
    unfold Piece.settlePlain Piece.settle
    dsimp only
    cases Piece.fill scope (.plain path) with
    | error e => rfl
    | ok filled => cases filled <;> rfl

theorem allBoth_settle (ps : List Piece) (scope : Scope) :
    (allBoth (Piece.settlePlain scope) ps).bind (allBoth (Piece.settleFiltered scope))
      = allBoth (Piece.settle scope) ps := by
  induction ps with
  | nil => rfl
  | cons p ps ih =>
    rw [allBoth, both_bind_allBoth, ih, settlePlain_bind_settleFiltered]
    rfl

/-- Pieces that are left for a scope stay as they are in it. -/
theorem allBoth_settle_of_left {ps : List Piece} {scope : Scope} {outer : List Scope}
    (h : ∀ p ∈ ps, p.Left (scope :: outer)) : allBoth (Piece.settle scope) ps = some ps := by
  induction ps with
  | nil => rfl
  | cons p ps ih =>
    have hp : p.settle scope = some [p] := by
      unfold Piece.settle
      rw [(h p List.mem_cons_self).fill scope List.mem_cons_self]
      rfl
    rw [allBoth, hp, ih fun q hq => h q (List.mem_cons_of_mem _ hq)]
    rfl

/-- **Stages and walk leave the same.** -/
theorem Tree.stages_eq_residue {tree : Tree} (ht : tree.WellFormed) {scope : Scope}
    {outer : List Scope} (hs : Value.EntriesNoBrace scope) (hsettled : tree.Settled outer scope) :
    ((tree.decide scope).bind (allBoth (Part.expand scope))).bind
      (allBoth (Piece.settle scope)) = tree.residue scope := by
  have hboth (x y : Option (List Part)) :
      ((both x y).bind (allBoth (Part.expand scope))).bind (allBoth (Piece.settle scope))
        = both ((x.bind (allBoth (Part.expand scope))).bind (allBoth (Piece.settle scope)))
          ((y.bind (allBoth (Part.expand scope))).bind (allBoth (Piece.settle scope))) := by
    rw [both_bind_allBoth, both_bind_allBoth]
  induction tree with
  | done => rfl
  | piece p rest ih =>
    rw [decide, hboth, ih ht.2 hsettled.2, residue]
    congr 1
    exact allBoth_singleton _ _
  | conditional condition body rest ihb ihr =>
    rw [decide, hboth, ihr ht.2.2 hsettled.2, residue]
    congr 1
    cases hholds : (Condition.ofText condition).holds scope with
    | error e => rfl
    | ok truth =>
      cases truth with
      | true => exact ihb ht.2.1 (hsettled.1 hholds)
      | false => rfl
  | either condition body other rest ihb iho ihr =>
    rw [decide, hboth, ihr ht.2.2.2 hsettled.2.2, residue]
    congr 1
    cases hholds : (Condition.ofText condition).holds scope with
    | error e => rfl
    | ok truth =>
      cases truth with
      | true => exact ihb ht.2.1 (hsettled.1 hholds)
      | false => exact iho ht.2.2.1 (hsettled.2.1 hholds)
  | loop name path body rest ihb ihr =>
    rw [decide, hboth, ihr ht.2.2.2 hsettled.2, residue]
    congr 1
    show (allBoth (Part.expand scope) [.loop name path body]).bind _ = turnsResidue body name path scope
    rw [allBoth_singleton]
    show (turnsResidue body name path scope).bind _ = _
    cases hturns : turnsResidue body name path scope with
    | none => rfl
    | some ps =>
      -- what the turns leave is looked at once more, and stays
      exact allBoth_settle_of_left (left_of_turnsResidue ht.1 hs hsettled.1
        (fun inner hi hb qs hqs => left_of_residue ht.2.2.1 hi hb hqs) hturns)

end Stencil
