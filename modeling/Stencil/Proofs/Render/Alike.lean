import Stencil.Proofs.Markup.Mention
import Stencil.Proofs.Render.Edited
import Stencil.Proofs.Render.OneLevel

/-!
# What the programs of a render are built of

The stages are gone through once, in the order in which they are built on each other: substitutions,
conditionals, loops, the pipeline.  What is proved on the way is that two renders of a text are put
together in the same manner (`alike_renderWithin`), be it in two scopes or with two numbers of levels
left.  What follows for their runs is proved from `Alike` by induction, whatever the stages are.

How far the two may differ is said by a `Comparison`, which has to be lawful:

    scopes   the scopes that the two are run in
    scans    the texts that are scanned for tags, by the levels that are left for it
    refuses  the levels that the second has left where the first has none
    reads    what is known of the texts that are read
    fails    the failures that are accounted for

A comparison of a render with itself is about one run.
-/

namespace Stencil

open Render

/-! ## Levels -/

/-- How branches are resolved at a number of levels. -/
def Render.branchesBelow (scope : Scope) : (room : Nat) → Option (Text → Render Text)
  | 0 => none
  | room + 1 => some (resolveConditionals scope room)

theorem Render.resolveConditionals_eq (scope : Scope) (room : Nat) :
    resolveConditionals scope room = chooseBranches (branchesBelow scope room) scope := by
  cases room <;> rfl

/-- How the bodies of loops are rendered at a number of levels. -/
def Render.bodiesBelow (filters : Registry) : (room : Nat) → Option BodyRenderer
  | 0 => none
  | room + 1 => some (renderWithin filters room)

theorem Render.renderWithin_eq (filters : Registry) (room : Nat) :
    renderWithin filters room = renderLevel filters room (bodiesBelow filters room) := by
  cases room <;> rfl

/-- Going deeper comes to asking first whether that may be done, for branches and for bodies: work is
missing just where no level is left. -/
theorem Render.descend_levels_eq (filters : Registry) (scope : Scope) (s : State)
    (resolve : (Text → Render Text) → Render Text) (render : BodyRenderer → Render Text) :
    descend ((branchesBelow scope s.room).map resolve) s = (do
        if ← mayDescend then
          ((branchesBelow scope s.room).map resolve).elim (pure []) deeper
        else return []) s ∧
      descend ((bodiesBelow filters s.room).map render) s = (do
        if ← mayDescend then ((bodiesBelow filters s.room).map render).elim (pure []) deeper
        else return []) s := by
  refine ⟨descend_eq_of_mayDescend ?_, descend_eq_of_mayDescend ?_⟩ <;> cases s.room <;>
    simp [branchesBelow, bodiesBelow]

/-! ## Comparisons -/

/-- The paths that a stage looks up in a text that it reads. -/
def Stage.paths : Stage → Text → List Text
  | conditionals, t => (blocks t).filterMap fun b =>
    if b.kind = .conditional then (Condition.ofText b.argument).path? else none
  | loops, t => (blocks t).filterMap fun b =>
    if b.kind = .loop then (LoopHeader.ofArgument? b.argument).map LoopHeader.path else none
  | plain, t => (occurrences plainAt t).map fun o => o.item
  | filtered, t => (occurrences filteredAt t).map fun o => o.item.path

/-- What a stage looks up stands in the text that it reads. -/
theorem Stage.isInfix_of_mem_paths {stage : Stage} {t path : Text} (h : path ∈ stage.paths t) :
    path <:+: t := by
  cases stage with
  | conditionals =>
    obtain ⟨b, hb, hpath⟩ := List.mem_filterMap.mp h
    split at hpath
    · exact (condition_isInfix hpath).trans (block_argument_isInfix hb)
    · cases hpath
  | loops =>
    obtain ⟨b, hb, hpath⟩ := List.mem_filterMap.mp h
    split at hpath
    · obtain ⟨header, hheader, rfl⟩ := Option.map_eq_some_iff.mp hpath
      exact (loopHeader_isInfix hheader).trans (block_argument_isInfix hb)
    · cases hpath
  | plain =>
    obtain ⟨o, ho, rfl⟩ := List.mem_map.mp h
    exact plain_isInfix t o ho
  | filtered =>
    obtain ⟨o, ho, rfl⟩ := List.mem_map.mp h
    exact filtered_isInfix t o ho

/-- How far two renders may differ, and what is supposed of what they do. -/
structure Comparison where
  /-- The two scopes. -/
  scopes : Scope → Scope → Prop
  /-- A text is scanned for tags, with so many levels left in the first and in the second. -/
  scans : (room room' : Nat) → Text → Prop
  /-- A block is found where the first has no level left, and the second so many. -/
  refuses : (room' : Nat) → Prop
  /-- A text is read by a stage. -/
  reads : Stage → Text → Prop
  fails : Failure → Prop

/-- What a comparison has to keep to. -/
structure Comparison.Lawful (c : Comparison) (filters : Registry) : Prop where
  bind {s₁ s₂ : Scope} {path : Text} {kind : SequenceKind} {items : List Value} {item : Value} :
    c.scopes s₁ s₂ → s₁.resolve path = .ok (some (.sequence kind items)) → item ∈ items →
      ∀ name, c.scopes (s₁.bind name item) (s₂.bind name item)
  /-- Conditionals leave a subsequence of the text. -/
  sublist {room room' : Nat} {t u : Text} :
    c.scans room room' t → u.Sublist t → c.scans room room' u
  /-- What a block encloses is scanned one level deeper. -/
  level {room room' : Nat} {t : Text} {b : Block} : c.scans (room + 1) room' t → b ∈ blocks t →
    ∃ below, room' = below + 1 ∧ c.scans room below (b.branches t).1 ∧
      c.scans room below (b.branches t).2
  stop {room' : Nat} {t : Text} {b : Block} : c.scans 0 room' t → b ∈ blocks t → c.refuses room'
  resolve {s₁ s₂ : Scope} {stage : Stage} {t path : Text} :
    c.scopes s₁ s₂ → c.reads stage t → path ∈ stage.paths t →
      s₁.resolve path = s₂.resolve path ∧ ∀ e, s₁.resolve path = .error e → c.fails e
  plain {s₁ s₂ : Scope} {t : Text} {o : Occurrence Text} :
    c.scopes s₁ s₂ → c.reads .plain t → o ∈ occurrences plainAt t →
      ∀ s e after, fillPlain s₁ o.item s = .error e after → c.fails e
  filtered {s₁ s₂ : Scope} {t : Text} {o : Occurrence Filtered} :
    c.scopes s₁ s₂ → c.reads .filtered t → o ∈ occurrences filteredAt t →
      ∀ s e after, fillFiltered filters s₁ o.item s = .error e after → c.fails e

/-- One scope, and levels that may differ. -/
def Comparison.ofLevels (scans : (room room' : Nat) → Text → Prop) (refuses : (room' : Nat) → Prop) :
    Comparison where
  scopes := Eq
  scans := scans
  refuses := refuses
  reads _ _ := True
  fails _ := True

theorem Comparison.ofLevels_lawful {scans : (room room' : Nat) → Text → Prop}
    {refuses : (room' : Nat) → Prop}
    (hsublist : ∀ room room' (t u : Text), scans room room' t → u.Sublist t → scans room room' u)
    (hlevel : ∀ room room' t b, scans (room + 1) room' t → b ∈ blocks t → ∃ below,
      room' = below + 1 ∧ scans room below (b.branches t).1 ∧ scans room below (b.branches t).2)
    (hstop : ∀ room' t b, scans 0 room' t → b ∈ blocks t → refuses room') (filters : Registry) :
    (ofLevels scans refuses).Lawful filters where
  bind hs _ _ name := by
    cases hs
    rfl
  sublist := hsublist _ _ _ _
  level := hlevel _ _ _ _
  stop := hstop _ _ _
  resolve hs _ _ := by
    cases hs
    exact ⟨rfl, fun _ _ => trivial⟩
  plain _ _ _ := fun _ _ _ _ => trivial
  filtered _ _ _ := fun _ _ _ _ => trivial

/-! ## Programs that are built alike -/

/-- Two programs are put together in the same way, the first at a level with `room` levels left below
it, the second with `room'`.  What has to hold only of texts that the comparison knows to be read may
rely on `known`. -/
inductive Alike (c : Comparison) : (known : Prop) → (room room' : Nat) → {α : Type} →
    Render α → Render α → Prop where
  /-- Work at one level is the same in both. -/
  | oneLevel {known : Prop} {room room' : Nat} {α : Type} {x y : Render α} (hx : OneLevel x)
      (hxy : known → x = y) (hfails : known → ∀ s e t, x s = .error e t → c.fails e) :
      Alike c known room room' x y
  /-- What follows is looked at for the values that can come before. -/
  | bind {known : Prop} {room room' : Nat} {α β : Type} {x y : Render α} {f g : α → Render β}
      (hx : Alike c known room room' x y)
      (hf : ∀ a s t, x s = .ok a t → Alike c known room room' (f a) (g a)) :
      Alike c known room room' (x >>= f) (y >>= g)
  /-- What follows a reading may rely on what is known of the text. -/
  | reads {known : Prop} {room room' : Nat} {α : Type} {x y : Render α} (stage : Stage) (t : Text)
      (hscan : stage.scansTags = true → c.scans room room' t)
      (h : Alike c (known ∧ c.reads stage t) room room' x y) :
      Alike c known room room' (do Render.reads stage t; x) (do Render.reads stage t; y)
  | deeper {known : Prop} {room room' : Nat} {α : Type} {x y : Render α}
      (h : Alike c known room room' x y) :
      Alike c known (room + 1) (room' + 1) (Render.deeper x) (Render.deeper y)
  /-- Where the first has no level left, the second may go on. -/
  | refused {known : Prop} {room' : Nat} {y : Option (Render Text)} (h : c.refuses room')
      (hy : room' = 0 → y = none) : Alike c known 0 room' (descend none) (descend y)
  /-- The first may be any program that does the same at its level. -/
  | atLevel {known : Prop} {room room' : Nat} {α : Type} {x x' y : Render α}
      (h : Alike c known room room' x y) (hx : ∀ s : State, s.room = room → x' s = x s) :
      Alike c known room room' x' y

/-- What two levels have below them: what is related, or nothing in the first. -/
inductive Below (c : Comparison) {γ : Type} (R : Nat → Nat → γ → γ → Prop) :
    (room room' : Nat) → Option γ → Option γ → Prop where
  | level {room room' : Nat} {x y : γ} (h : R room room' x y) :
      Below c R (room + 1) (room' + 1) (some x) (some y)
  | none {room' : Nat} {y : Option γ} (h : c.refuses room') (hy : room' = 0 → y = none) :
      Below c R 0 room' none y

variable {c : Comparison} {filters : Registry} {known : Prop} {room room' : Nat} {s₁ s₂ : Scope}

theorem Below.map {γ δ : Type} {R : Nat → Nat → γ → γ → Prop} {S : Nat → Nat → δ → δ → Prop}
    {x y : Option γ} {f g : γ → δ} (h : Below c R room room' x y)
    (hfg : ∀ below below' a b, R below below' a b → S below below' (f a) (g b)) :
    Below c S room room' (x.map f) (y.map g) := by
  cases h with
  | level h => exact .level (hfg _ _ _ _ h)
  | none h hy => exact .none h fun hroom => by rw [hy hroom]; rfl

theorem alike_descend {x y : Option (Render Text)}
    (h : Below c (fun below below' w w' => Alike c known below below' w w') room room' x y) :
    Alike c known room room' (descend x) (descend y) := by
  cases h with
  | level h => exact .deeper h
  | none h hy => exact .refused h hy

/-- A program that never fails is like itself. -/
theorem Alike.self {α : Type} {x : Render α} (hx : OneLevel x) (h : ∀ s e t, x s ≠ .error e t) :
    Alike c known room room' x x :=
  .oneLevel hx (fun _ => rfl) fun _ s e t he => absurd he (h s e t)

theorem Alike.pure {α : Type} (a : α) : Alike c known room room' (Pure.pure a) (Pure.pure a) :=
  .self (.pure a) nofun

theorem Alike.note {n : Notice} (hn : n.level = .debug) :
    Alike c known room room' (Render.note n) (Render.note n) :=
  .self (.note n hn) nofun

theorem Alike.spend : Alike c known room room' Render.spend Render.spend := by
  refine .self .spend fun s e t h => ?_
  obtain ⟨t', ht, -⟩ := exists_spend s
  rw [ht] at h
  cases h

theorem alike_substitute {α : Type} {f g : α → Render (Option Text)} {found : List (Occurrence α)}
    (h : ∀ o ∈ found, Alike c known room room' (f o.item) (g o.item)) (t : Text) :
    Alike c known room room' (substitute found f t) (substitute found g t) := by
  have hedits : Alike c known room room' (edits f found) (edits g found) := by
    induction found with
    | nil => exact .pure _
    | cons o os ih =>
      obtain ⟨ho, hos⟩ := List.forall_mem_cons.mp h
      refine .bind ho fun text _ _ _ => ?_
      cases text with
      | none => exact ih hos
      | some text => exact .bind (ih hos) fun _ _ _ _ => .pure _
  exact .bind hedits fun _ _ _ _ => .pure _

/-! ## Placeholders -/

theorem fillPlain_congr {path : Text} (h : s₁.resolve path = s₂.resolve path) :
    fillPlain s₁ path = fillPlain s₂ path := by
  unfold fillPlain
  rw [h]

theorem fillFiltered_congr (filters : Registry) {placeholder : Filtered}
    (h : s₁.resolve placeholder.path = s₂.resolve placeholder.path) :
    fillFiltered filters s₁ placeholder = fillFiltered filters s₂ placeholder := by
  unfold fillFiltered
  rw [h]

theorem alike_plainStage (hc : c.Lawful filters) (hs : c.scopes s₁ s₂) (t : Text) :
    Alike c known room room' (plainStage t s₁) (plainStage t s₂) := by
  refine .reads .plain t nofun (alike_substitute (fun o ho => ?_) t)
  refine .oneLevel (oneLevel_fillPlain s₁ o.item) (fun h => fillPlain_congr ?_) fun h => ?_
  · exact (hc.resolve hs h.2 (List.mem_map_of_mem ho)).1
  · exact hc.plain hs h.2 ho

theorem alike_filteredStage (hc : c.Lawful filters) (hs : c.scopes s₁ s₂) (t : Text) :
    Alike c known room room' (filteredStage filters t s₁) (filteredStage filters t s₂) := by
  refine .reads .filtered t nofun (alike_substitute (fun o ho => ?_) t)
  refine .oneLevel (oneLevel_fillFiltered filters s₁ o.item)
    (fun h => fillFiltered_congr filters ?_) fun h => ?_
  · exact (hc.resolve hs h.2 (List.mem_map_of_mem ho)).1
  · exact hc.filtered hs h.2 ho

/-! ## Conditionals -/

theorem judge_congr {argument : Text} (h : ∀ path, (Condition.ofText argument).path? = some path →
    s₁.resolve path = s₂.resolve path) : judge s₁ argument = judge s₂ argument := by
  unfold judge
  dsimp only
  rw [Condition.holds_congr h]

/-- A condition fails where its path does. -/
theorem exists_of_holds_error {condition : Condition} {scope : Scope} {e : Failure}
    (h : condition.holds scope = .error e) :
    ∃ path, condition.path? = some path ∧ scope.resolve path = .error e := by
  have herror {α : Type} {path : Text} {f : Option Value → α}
      (h : (do return f (← scope.resolve path)) = Except.error e) :
      scope.resolve path = .error e := by
    cases hr : scope.resolve path with
    | ok value =>
      rw [hr] at h
      cases h
    | error d =>
      rw [hr] at h
      cases h
      rfl
  cases condition with
  | path p => exact ⟨p, rfl, herror h⟩
  | comparison p negated literal => exact ⟨p, rfl, herror h⟩
  | negation p => exact ⟨p, rfl, herror h⟩
  | unsupported t => cases h

theorem exists_of_judge_error {argument : Text} {scope : Scope} {s after : State} {e : Failure}
    (h : judge scope argument s = .error e after) :
    ∃ path, (Condition.ofText argument).path? = some path ∧ scope.resolve path = .error e := by
  refine exists_of_holds_error ?_
  unfold judge at h
  cases hcondition : Condition.ofText argument <;> rw [hcondition] at h <;>
    exact eq_error_of_ofExcept h

theorem alike_judge (hc : c.Lawful filters) (hs : c.scopes s₁ s₂) {t : Text} {b : Block}
    (hb : b ∈ blocks t) (hkind : b.kind = .conditional) :
    Alike c (known ∧ c.reads .conditionals t) room room' (judge s₁ b.argument)
      (judge s₂ b.argument) := by
  have hpath (path : Text) (hp : (Condition.ofText b.argument).path? = some path) :
      path ∈ Stage.conditionals.paths t :=
    List.mem_filterMap.mpr ⟨b, hb, by rw [if_pos hkind]; exact hp⟩
  refine .oneLevel (oneLevel_judge s₁ b.argument) (fun h => judge_congr fun path hp => ?_)
    fun h s e after he => ?_
  · exact (hc.resolve hs h.2 (hpath path hp)).1
  · obtain ⟨path, hp, he⟩ := exists_of_judge_error he
    exact (hc.resolve hs h.2 (hpath path hp)).2 e he

theorem alike_resolveBranch {inner inner' : Option (Text → Render Text)} {branch : Text}
    (h : Below c (fun below below' f g => Alike c known below below' (f branch) (g branch))
      room room' inner inner') :
    Alike c known room room' (resolveBranch inner branch) (resolveBranch inner' branch) := by
  unfold resolveBranch
  split
  · exact alike_descend (h.map fun _ _ _ _ h => h)
  · exact .pure _

theorem alike_chooseBranches (hc : c.Lawful filters) (hs : c.scopes s₁ s₂)
    {inner inner' : Option (Text → Render Text)} {t : Text} (ht : c.scans room room' t)
    (h : ∀ b ∈ blocks t, ∀ branch, branch = (b.branches t).1 ∨ branch = (b.branches t).2 →
      Below c (fun below below' f g =>
        Alike c (known ∧ c.reads .conditionals t) below below' (f branch) (g branch))
        room room' inner inner') :
    Alike c known room room' (chooseBranches inner s₁ t) (chooseBranches inner' s₂ t) := by
  refine .reads .conditionals t (fun _ => ht) (alike_substitute (fun o ho => ?_) t)
  have hb := mem_blocks_of_occurrence ho
  unfold chooseBranch
  by_cases hkind : o.item.kind = .conditional
  · rw [if_pos hkind, if_pos hkind]
    refine .bind (alike_judge hc hs hb hkind) fun truth _ _ _ => ?_
    refine .bind (alike_resolveBranch (h o.item hb _ ?_)) fun _ _ _ _ => .pure _
    cases truth with
    | true => exact .inl rfl
    | false => exact .inr rfl
  · rw [if_neg hkind, if_neg hkind]
    exact .pure _

theorem alike_resolveConditionals (hc : c.Lawful filters) (hs : c.scopes s₁ s₂) {t : Text}
    (ht : c.scans room room' t) :
    Alike c known room room' (resolveConditionals s₁ room t) (resolveConditionals s₂ room' t) := by
  induction room generalizing room' t known with
  | zero =>
    rw [resolveConditionals_eq s₂]
    refine alike_chooseBranches hc hs ht fun b hb _ _ => .none (hc.stop ht hb) fun hroom => ?_
    rw [hroom]
    rfl
  | succ room ih =>
    rw [resolveConditionals_eq s₂]
    refine alike_chooseBranches hc hs ht fun b hb branch hbranch => ?_
    obtain ⟨below, rfl, hbody, hother⟩ := hc.level ht hb
    refine .level (ih ?_)
    rcases hbranch with rfl | rfl
    · exact hbody
    · exact hother

theorem resolveBranch_sublist {inner : Option (Text → Render Text)}
    (h : ∀ resolve, inner = some resolve →
      ∀ u s v after, resolve u s = .ok v after → v.Sublist u) {branch u : Text} {s after : State}
    (hu : resolveBranch inner branch s = .ok u after) : u.Sublist branch := by
  unfold resolveBranch at hu
  split at hu
  · cases inner with
    | none =>
      cases hu
      exact List.nil_sublist branch
    | some resolve =>
      unfold Option.map Render.descend Render.deeper at hu
      dsimp only at hu
      split at hu
      · rename_i hr
        cases hu
        exact h resolve rfl _ _ _ _ hr
      · cases hu
  · cases hu
    exact .refl _

theorem chooseBranches_sublist {inner : Option (Text → Render Text)}
    (h : ∀ resolve, inner = some resolve →
      ∀ u s v after, resolve u s = .ok v after → v.Sublist u) {scope : Scope} {t u : Text}
    {s after : State} (hu : chooseBranches inner scope t s = .ok u after) : u.Sublist t := by
  have hlaid := blocks_laid t
  obtain ⟨_, _, _, hu⟩ := bind_eq_ok_iff.mp hu
  refine substitute_sublist hlaid.inOrder (fun o ho s v after hv => ?_) hu
  obtain ⟨b, hb, rfl⟩ := List.mem_map.mp ho
  obtain ⟨hbody, hother⟩ := (hlaid.parts b hb).branches_sublist t
  unfold chooseBranch at hv
  split at hv
  · obtain ⟨truth, _, -, hv⟩ := bind_eq_ok_iff.mp hv
    obtain ⟨w, _, hw, hv⟩ := bind_eq_ok_iff.mp hv
    cases hv
    refine (resolveBranch_sublist h hw).trans ?_
    cases truth with
    | true => exact hbody
    | false => exact hother
  · cases hv

/-- What the conditionals of a text give way to is a subsequence of it, at every depth. -/
theorem resolveConditionals_sublist {scope : Scope} {room : Nat} {t u : Text} {s after : State}
    (h : resolveConditionals scope room t s = .ok u after) : u.Sublist t := by
  induction room generalizing t u s after with
  | zero => exact chooseBranches_sublist (fun _ hr => by cases hr) h
  | succ room ih =>
    refine chooseBranches_sublist (fun resolve hr u s v after hv => ?_) h
    cases hr
    exact ih hv

/-! ## Loops -/

section
variable {scope : Scope} {argument : Text} {header : LoopHeader} (inner : Option BodyRenderer)
  (body : Text)

/-- A loop with a malformed header is left as text. -/
theorem expandLoop_of_malformed (scope : Scope) (h : LoopHeader.ofArgument? argument = none) :
    expandLoop inner scope argument body = (do
      Render.note (.malformedHeader argument)
      return none) := by
  rw [expandLoop, h]

theorem expandLoop_of_error {e : Failure} (h : LoopHeader.ofArgument? argument = some header)
    (he : scope.resolve header.path = .error e) :
    expandLoop inner scope argument body = Render.ofExcept (.error e) := by
  rw [expandLoop, h]
  dsimp only
  rw [he]
  rfl

/-- A loop over no sequence gives nothing. -/
theorem expandLoop_of_not_sequence {value : Option Value}
    (h : LoopHeader.ofArgument? argument = some header)
    (hvalue : scope.resolve header.path = .ok value)
    (hother : ∀ kind items, value ≠ some (.sequence kind items)) :
    expandLoop inner scope argument body = (do
      Render.note (.notASequence header.path)
      return some []) := by
  rw [expandLoop, h]
  dsimp only
  rw [hvalue, Render.ofExcept, pure_bind]
  split
  · exact absurd rfl (hother _ _)
  · rfl

/-- A loop over a sequence takes its turns one level deeper. -/
theorem expandLoop_of_sequence {kind : SequenceKind} {items : List Value}
    (h : LoopHeader.ofArgument? argument = some header)
    (hvalue : scope.resolve header.path = .ok (some (.sequence kind items))) :
    expandLoop inner scope argument body = some <$> descend (inner.map fun render =>
      turns (render body) header.name scope items) := by
  rw [expandLoop, h]
  dsimp only
  rw [hvalue]
  rfl

/-- Where the turns come to the same one level deeper, so does the loop. -/
theorem expandLoop_congr (argument : Text) {inner inner' : Option BodyRenderer} {body : Text}
    {s : State}
    (h : ∀ name items, descend (inner.map fun render => turns (render body) name scope items) s
      = descend (inner'.map fun render => turns (render body) name scope items) s) :
    expandLoop inner scope argument body s = expandLoop inner' scope argument body s := by
  cases hheader : LoopHeader.ofArgument? argument with
  | none => rw [expandLoop_of_malformed _ _ _ hheader, expandLoop_of_malformed _ _ _ hheader]
  | some header =>
    cases hvalue : scope.resolve header.path with
    | error e => rw [expandLoop_of_error _ _ hheader hvalue, expandLoop_of_error _ _ hheader hvalue]
    | ok value =>
      by_cases hsequence : ∃ kind items, value = some (.sequence kind items)
      · obtain ⟨kind, items, rfl⟩ := hsequence
        rw [expandLoop_of_sequence _ _ hheader hvalue, expandLoop_of_sequence _ _ hheader hvalue]
        exact bind_congr_left (h header.name items) _
      · have hother : ∀ kind items, value ≠ some (.sequence kind items) := fun kind items he =>
          hsequence ⟨kind, items, he⟩
        rw [expandLoop_of_not_sequence _ _ hheader hvalue hother,
          expandLoop_of_not_sequence _ _ hheader hvalue hother]

end

theorem alike_turns {f g : Scope → Render Text} {name : Text} {items : List Value}
    (h : ∀ item ∈ items,
      Alike c known room room' (f (s₁.bind name item)) (g (s₂.bind name item))) :
    Alike c known room room' (turns f name s₁ items) (turns g name s₂ items) := by
  induction items with
  | nil => exact .pure _
  | cons item items ih =>
    obtain ⟨hitem, hitems⟩ := List.forall_mem_cons.mp h
    refine .bind .spend fun paid _ _ _ => ?_
    cases paid with
    | false => exact .pure _
    | true => exact .bind hitem fun _ _ _ _ => .bind (ih hitems) fun _ _ _ _ => .pure _

/-- The bodies of loops are rendered alike, in all scopes that are compared. -/
def BodiesAlike (c : Comparison) (known : Prop) (body : Text) (room room' : Nat) :
    Option BodyRenderer → Option BodyRenderer → Prop :=
  Below c (fun below below' render render' => ∀ s₁ s₂, c.scopes s₁ s₂ →
    Alike c known below below' (render body s₁) (render' body s₂)) room room'

/-- A loop, wherever its header is looked up alike, and its turns are in scopes that are compared. -/
theorem alike_expandLoop {argument body : Text} {inner inner' : Option BodyRenderer}
    (hresolve : ∀ header, LoopHeader.ofArgument? argument = some header → known →
      s₁.resolve header.path = s₂.resolve header.path ∧
        ∀ e, s₁.resolve header.path = .error e → c.fails e)
    (hbind : ∀ header, LoopHeader.ofArgument? argument = some header → ∀ kind items,
      s₁.resolve header.path = .ok (some (.sequence kind items)) → ∀ item ∈ items,
        c.scopes (s₁.bind header.name item) (s₂.bind header.name item))
    (hbody : BodiesAlike c known body room room' inner inner') :
    Alike c known room room' (expandLoop inner s₁ argument body)
      (expandLoop inner' s₂ argument body) := by
  unfold expandLoop
  cases hheader : LoopHeader.ofArgument? argument with
  | none => exact .bind (.note rfl) fun _ _ _ _ => .pure _
  | some header =>
    refine .bind (.oneLevel (.ofExcept _) (fun h => ?_) fun h s e after he => ?_)
      fun value s after hvalue => ?_
    · rw [(hresolve header hheader h).1]
    · exact (hresolve header hheader h).2 e (eq_error_of_ofExcept he)
    · replace hvalue := eq_ok_of_ofExcept hvalue
      split
      · rename_i kind items
        refine .bind (alike_descend (hbody.map fun _ _ _ _ h => ?_)) fun _ _ _ _ => .pure _
        exact alike_turns fun item hitem => h _ _ (hbind header hheader kind items hvalue item hitem)
      · exact .bind (.note rfl) fun _ _ _ _ => .pure _

theorem alike_expandLoops (hc : c.Lawful filters) (hs : c.scopes s₁ s₂)
    {inner inner' : Option BodyRenderer} {t : Text} (ht : c.scans room room' t)
    (h : ∀ b ∈ blocks t,
      BodiesAlike c (known ∧ c.reads .loops t) (b.branches t).1 room room' inner inner') :
    Alike c known room room' (expandLoops inner s₁ t) (expandLoops inner' s₂ t) := by
  refine .reads .loops t (fun _ => ht) (alike_substitute (fun o ho => ?_) t)
  have hb := mem_blocks_of_occurrence ho
  unfold expandBlock
  by_cases hkind : o.item.kind = .loop
  · rw [if_pos hkind, if_pos hkind]
    refine alike_expandLoop (fun header hheader hknown => ?_)
      (fun header _ kind items hvalue item hitem => ?_) (h o.item hb)
    · refine hc.resolve hs hknown.2 (List.mem_filterMap.mpr ⟨o.item, hb, ?_⟩)
      rw [if_pos hkind, hheader]
      rfl
    · exact hc.bind hs hvalue hitem header.name
  · rw [if_neg hkind, if_neg hkind]
    exact .pure _

/-! ## The pipeline -/

theorem alike_renderLevel (hc : c.Lawful filters) (hs : c.scopes s₁ s₂)
    {inner inner' : Option BodyRenderer} {t : Text} (ht : c.scans room room' t)
    (h : ∀ u, c.scans room room' u → ∀ b ∈ blocks u,
      BodiesAlike c (known ∧ c.reads .loops u) (b.branches u).1 room room' inner inner') :
    Alike c known room room' (renderLevel filters room inner t s₁)
      (renderLevel filters room' inner' t s₂) := by
  refine .bind (alike_resolveConditionals hc hs ht) fun u _ _ hu => ?_
  have hu := hc.sublist ht (resolveConditionals_sublist hu)
  refine .bind (alike_expandLoops hc hs hu (h u hu)) fun v _ _ _ => ?_
  exact .bind (alike_plainStage hc hs v) fun w _ _ _ => alike_filteredStage hc hs w

/-- **Renders of a text are built alike** in scopes that are compared, as far as the levels are
enough for the text. -/
theorem alike_renderWithin (hc : c.Lawful filters) (hs : c.scopes s₁ s₂) {t : Text}
    (ht : c.scans room room' t) :
    Alike c known room room' (renderWithin filters room t s₁) (renderWithin filters room' t s₂) := by
  induction room generalizing room' t s₁ s₂ known with
  | zero =>
    rw [renderWithin_eq filters room']
    refine alike_renderLevel hc hs ht fun u hu b hb => .none (hc.stop hu hb) fun hroom => ?_
    rw [hroom]
    rfl
  | succ room ih =>
    rw [renderWithin_eq filters room']
    refine alike_renderLevel hc hs ht fun u hu b hb => ?_
    obtain ⟨below, rfl, hbody, -⟩ := hc.level hu hb
    exact .level fun s₁ s₂ hs => ih hs hbody

/-- What a block encloses is rendered alike one level deeper. -/
theorem alike_bodiesBelow (hc : c.Lawful filters) {t : Text} (ht : c.scans room room' t) {b : Block}
    (hb : b ∈ blocks t) : BodiesAlike c known (b.branches t).1 room room'
      (bodiesBelow filters room) (bodiesBelow filters room') := by
  cases room with
  | zero =>
    refine .none (hc.stop ht hb) fun hroom => ?_
    rw [hroom]
    rfl
  | succ room =>
    obtain ⟨below, rfl, hbody, -⟩ := hc.level ht hb
    exact .level fun s₁ s₂ hs => alike_renderWithin hc hs hbody

/-- The stage of loops with the pipeline for the bodies is the one at its level. -/
theorem alike_loopStage (hc : c.Lawful filters) (hs : c.scopes s₁ s₂) {t : Text}
    (ht : c.scans room room' t) :
    Alike c known room room' (loopStage (renderStages filters) t s₁)
      (expandLoops (bodiesBelow filters room') s₂ t) := by
  refine .atLevel (x := expandLoops (if room = 0 then none else some (renderStages filters)) s₁ t)
    (alike_expandLoops hc hs ht fun b hb => ?_) fun s hs => by rw [← hs]; rfl
  cases room with
  | zero =>
    refine .none (hc.stop ht hb) fun hroom => ?_
    rw [hroom]
    rfl
  | succ room =>
    obtain ⟨below, rfl, hbody, -⟩ := hc.level ht hb
    refine .level fun s₁ s₂ hs => .atLevel (alike_renderWithin hc hs hbody) fun s hs => ?_
    rw [← hs]
    rfl

end Stencil
