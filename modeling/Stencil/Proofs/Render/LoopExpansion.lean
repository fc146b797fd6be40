import Stencil.Proofs.Markup.Pairing
import Stencil.Proofs.Markup.Written
import Stencil.Proofs.Render.Alike

/-!
# What the loops of a template give way to

The stage of loops is about any renderer of bodies, be it the whole pipeline or not, that looks at
nothing of the state but the counters and keeps the limits and the depth (`CountedRenderer`).  The
loops of a template are expanded from left to right (`Expansions`): each finds the counters as the
loops before it have left them, and each turn as the turn before it has.

    counters  →  turn, turn, ..., turn  →  counters  →  turn, ...  →

A loop takes its turns as long as there is a substitution left before each (`taken`), and the
counters behind it are those behind the last turn that it has taken (`countersBehind`).
-/

namespace Stencil

open Render

/-! ## Turns -/

section
variable (turn : Value → Counters → Text × Counters)

/-- The items of a loop, each with the counters before its turn. -/
def countersBefore : List Value → Counters → List (Value × Counters)
  | [], _ => []
  | item :: items, c => (item, c) :: countersBefore items (turn item c).2

/-- The turns that are taken: as many as have a substitution left before each. -/
def taken (items : List Value) (c : Counters) : List (Value × Counters) :=
  (countersBefore turn items c).takeWhile fun p =>
    p.2.substitutions < p.2.limits.maxSubstitutions

/-- The text of the turns that are taken. -/
def takenText (items : List Value) (c : Counters) : Text :=
  (taken turn items c).flatMap fun p => (turn p.1 p.2).1

/-- The counters behind the turns that are taken.  If items are left, the limit has been reached. -/
def countersBehind (items : List Value) (c : Counters) : Counters :=
  let last := (taken turn items c).foldl (fun c p => (turn p.1 c).2) c
  if (taken turn items c).length < items.length then last.exhaust else last

variable {turn} {item : Value} {items : List Value} {c : Counters}

theorem taken_cons_of_left (h : c.substitutions < c.limits.maxSubstitutions) :
    taken turn (item :: items) c = (item, c) :: taken turn items (turn item c).2 :=
  List.takeWhile_cons_of_pos (decide_eq_true h)

theorem taken_cons_of_spent (h : ¬ c.substitutions < c.limits.maxSubstitutions) :
    taken turn (item :: items) c = [] :=
  List.takeWhile_cons_of_neg (by simpa using h)

theorem takenText_cons_of_left (h : c.substitutions < c.limits.maxSubstitutions) :
    takenText turn (item :: items) c
      = (turn item c).1 ++ takenText turn items (turn item c).2 := by
  unfold takenText
  rw [taken_cons_of_left h, List.flatMap_cons]

theorem takenText_cons_of_spent (h : ¬ c.substitutions < c.limits.maxSubstitutions) :
    takenText turn (item :: items) c = [] := by
  unfold takenText
  rw [taken_cons_of_spent h, List.flatMap_nil]

theorem countersBehind_cons_of_left (h : c.substitutions < c.limits.maxSubstitutions) :
    countersBehind turn (item :: items) c = countersBehind turn items (turn item c).2 := by
  unfold countersBehind
  rw [taken_cons_of_left h]
  simp only [List.foldl_cons, List.length_cons, Nat.add_lt_add_iff_right]

theorem countersBehind_cons_of_spent (h : ¬ c.substitutions < c.limits.maxSubstitutions) :
    countersBehind turn (item :: items) c = c.exhaust := by
  unfold countersBehind
  rw [taken_cons_of_spent h]
  exact if_pos (Nat.succ_pos _)

/-- What every turn keeps of the counters, the loop does. -/
theorem countersBehind_keeps {α : Type} {f : Counters → α} (hturn : ∀ item c, f (turn item c).2 = f c)
    (hexhaust : ∀ c : Counters, f c.exhaust = f c) (items : List Value) (c : Counters) :
    f (countersBehind turn items c) = f c := by
  induction items generalizing c with
  | nil => rfl
  | cons item items ih =>
    by_cases h : c.substitutions < c.limits.maxSubstitutions
    · rw [countersBehind_cons_of_left h, ih, hturn]
    · rw [countersBehind_cons_of_spent h, hexhaust]

end

/-! ## Renderers -/

/-- How bodies are rendered, by the counters: the text, and the counters after it. -/
structure CountedRenderer where
  render : Text → Scope → Counters → Text × Counters
  limits_render : ∀ body scope c, (render body scope c).2.limits = c.limits
  depth_render : ∀ body scope c, (render body scope c).2.depth = c.depth

namespace CountedRenderer

/-- A renderer of bodies does what the counters say. -/
def Describes (r : CountedRenderer) (render : BodyRenderer) : Prop :=
  ∀ body scope s, ∃ after, render body scope s = .ok (r.render body scope s.counters).1 after ∧
    after.counters = (r.render body scope s.counters).2

/-- The turn of an item: it is paid for, and then the body is rendered with the name bound to the
item. -/
def turn (r : CountedRenderer) (body name : Text) (scope : Scope) (item : Value) (c : Counters) :
    Text × Counters :=
  r.render body (scope.bind name item) c.pay

theorem limits_turn (r : CountedRenderer) (body name : Text) (scope : Scope) (item : Value)
    (c : Counters) : (r.turn body name scope item c).2.limits = c.limits :=
  r.limits_render body (scope.bind name item) c.pay

theorem depth_turn (r : CountedRenderer) (body name : Text) (scope : Scope) (item : Value)
    (c : Counters) : (r.turn body name scope item c).2.depth = c.depth :=
  r.depth_render body (scope.bind name item) c.pay

variable {r : CountedRenderer} {render : BodyRenderer}

/-- The turns of a loop are taken one after the other. -/
theorem Describes.exists_turns (h : r.Describes render) (body name : Text) (scope : Scope)
    (items : List Value) (s : State) :
    ∃ after, turns (render body) name scope items s
        = .ok (takenText (r.turn body name scope) items s.counters) after ∧
      after.counters = countersBehind (r.turn body name scope) items s.counters := by
  induction items generalizing s with
  | nil => exact ⟨s, rfl, rfl⟩
  | cons item items ih =>
    obtain ⟨t, hspend, ht⟩ := exists_spend s
    by_cases hleft : 0 < s.counters.left
    · rw [decide_eq_true hleft] at hspend
      rw [Counters.charge_one_of_left hleft] at ht
      rw [Counters.left_pos_iff] at hleft
      obtain ⟨u, hbody, hu⟩ := h body (scope.bind name item) t
      rw [ht] at hbody hu
      obtain ⟨after, hrest, hafter⟩ := ih u
      rw [hu] at hrest hafter
      refine ⟨after, ?_, ?_⟩
      · rw [turns, bind_of_ok hspend, if_pos rfl, bind_of_ok hbody, bind_of_ok hrest,
          takenText_cons_of_left hleft]
        rfl
      · rw [hafter, countersBehind_cons_of_left hleft]
        rfl
    · rw [decide_eq_false hleft] at hspend
      rw [Counters.charge_one_of_spent hleft] at ht
      rw [Counters.left_pos_iff] at hleft
      refine ⟨t, ?_, ?_⟩
      · rw [turns, bind_of_ok hspend, takenText_cons_of_spent hleft]
        rfl
      · rw [ht, countersBehind_cons_of_spent hleft]

/-- What a loop over a value gives way to, and the counters behind it: nothing if the value is no
sequence, and nothing but that the limit has been reached if there is no level left. -/
def expansion (r : CountedRenderer) (body name : Text) (scope : Scope) (value : Option Value)
    (c : Counters) : Text × Counters :=
  match value with
  | some (.sequence _ items) =>
    if c.depth < c.limits.maxDepth then
      (takenText (r.turn body name scope) items c.enter,
        (countersBehind (r.turn body name scope) items c.enter).leave)
    else ([], c.exhaust)
  | _ => ([], c)

section
variable {body name : Text} {scope : Scope} {kind : SequenceKind} {items : List Value} {c : Counters}

theorem expansion_of_lt (h : c.depth < c.limits.maxDepth) :
    r.expansion body name scope (some (.sequence kind items)) c
      = (takenText (r.turn body name scope) items c.enter,
        (countersBehind (r.turn body name scope) items c.enter).leave) :=
  if_pos h

theorem expansion_of_not_lt (h : ¬ c.depth < c.limits.maxDepth) :
    r.expansion body name scope (some (.sequence kind items)) c = ([], c.exhaust) :=
  if_neg h

theorem expansion_of_not_sequence {value : Option Value}
    (h : ∀ kind items, value ≠ some (.sequence kind items)) :
    r.expansion body name scope value c = ([], c) := by
  unfold expansion
  split
  · exact absurd rfl (h _ _)
  · rfl

/-- The limits and the depth are the same behind a loop as before it. -/
theorem expansion_keeps (value : Option Value) :
    (r.expansion body name scope value c).2.limits = c.limits ∧
      (r.expansion body name scope value c).2.depth = c.depth := by
  by_cases hsequence : ∃ kind items, value = some (.sequence kind items)
  · obtain ⟨kind, items, rfl⟩ := hsequence
    by_cases hdepth : c.depth < c.limits.maxDepth
    · have hlimits : (countersBehind (r.turn body name scope) items c.enter).limits = c.limits :=
        countersBehind_keeps (r.limits_turn body name scope) (fun _ => rfl) items c.enter
      have hdepth' : (countersBehind (r.turn body name scope) items c.enter).depth = c.depth + 1 :=
        countersBehind_keeps (r.depth_turn body name scope) (fun _ => rfl) items c.enter
      rw [expansion_of_lt hdepth]
      exact ⟨hlimits, congrArg (· - 1) hdepth'⟩
    · rw [expansion_of_not_lt hdepth]
      exact ⟨rfl, rfl⟩
  · rw [expansion_of_not_sequence fun kind items he => hsequence ⟨kind, items, he⟩]
    exact ⟨rfl, rfl⟩

end

/-- A loop with a header is expanded as the counters say. -/
theorem Describes.exists_expandLoop (h : r.Describes render) {scope : Scope} {argument : Text}
    {header : LoopHeader} {value : Option Value}
    (hheader : LoopHeader.ofArgument? argument = some header)
    (hvalue : scope.resolve header.path = .ok value) (body : Text) (s : State) :
    ∃ after, expandLoop (if s.room = 0 then none else some render) scope argument body s
        = .ok (some (r.expansion body header.name scope value s.counters).1) after ∧
      after.counters = (r.expansion body header.name scope value s.counters).2 := by
  by_cases hsequence : ∃ kind items, value = some (.sequence kind items)
  · obtain ⟨kind, items, rfl⟩ := hsequence
    have hroom : s.room = 0 ↔ ¬ s.counters.depth < s.counters.limits.maxDepth := by
      show s.limits.maxDepth - s.depth = 0 ↔ ¬ s.depth < s.limits.maxDepth
      omega
    rw [expandLoop_of_sequence _ body hheader hvalue]
    by_cases hdepth : s.counters.depth < s.counters.limits.maxDepth
    · obtain ⟨t, hturns, ht⟩ := h.exists_turns body header.name scope items s.enter
      have hdeeper : deeper (turns (render body) header.name scope items) s
          = .ok (takenText (r.turn body header.name scope) items s.counters.enter) t.leave := by
        unfold deeper
        rw [hturns]
        rfl
      rw [if_neg (mt hroom.mp (not_not_intro hdepth)), expansion_of_lt hdepth]
      exact ⟨t.leave, bind_of_ok hdeeper, congrArg Counters.leave ht⟩
    · rw [if_pos (hroom.mpr hdepth), expansion_of_not_lt hdepth]
      exact ⟨_, rfl, State.counters_exhaust s _⟩
  · have hother : ∀ kind items, value ≠ some (.sequence kind items) := fun kind items he =>
      hsequence ⟨kind, items, he⟩
    rw [expandLoop_of_not_sequence _ body hheader hvalue hother, expansion_of_not_sequence hother]
    exact ⟨_, rfl, rfl⟩

end CountedRenderer

/-! ## Blocks -/

section
variable (r : CountedRenderer) (template : Text) (scope : Scope)

/-- What a block gives way to, if to anything, and the counters behind it. -/
inductive Expands (b : Block) (c : Counters) : Option Text → Counters → Prop where
  /-- A block that is no loop stays, and so does a loop whose argument is no header. -/
  | stays (h : b.kind = .loop → ∀ header : LoopHeader, ¬ header.Spelled b.argument) :
    Expands b c none c
  | gives {header : LoopHeader} {value : Option Value} (hkind : b.kind = .loop)
      (hheader : header.Spelled b.argument) (hvalue : scope.resolve header.path = .ok value) :
    Expands b c
      (some (r.expansion (template.slice b.bodyStart b.bodyStop) header.name scope value c).1)
      (r.expansion (template.slice b.bodyStart b.bodyStop) header.name scope value c).2

/-- The edits of a list of blocks, each of which finds the counters as those before it have left
them. -/
inductive Expansions : List Block → Counters → List Edit → Counters → Prop where
  | nil {c : Counters} : Expansions [] c [] c
  | cons {b : Block} {bs : List Block} {text : Option Text} {es : List Edit} {c d e : Counters}
      (hb : Expands r template scope b c text d) (hbs : Expansions bs d es e) :
    Expansions (b :: bs) c ((b.occurrence.edit? text).toList ++ es) e

variable {r template scope} {b : Block} {bs : List Block} {c d : Counters}

/-- There is only one way to expand a block. -/
theorem Expands.unique {text text' : Option Text} {d' : Counters}
    (h : Expands r template scope b c text d) (g : Expands r template scope b c text' d') :
    text = text' ∧ d = d' := by
  cases h with
  | stays h =>
    cases g with
    | stays => exact ⟨rfl, rfl⟩
    | gives hkind hheader _ => exact absurd hheader (h hkind _)
  | gives hkind hheader hvalue =>
    cases g with
    | stays g => exact absurd hheader (g hkind _)
    | gives _ hheader' hvalue' =>
      rw [← LoopHeader.ofArgument?_eq_some_iff] at hheader hheader'
      cases hheader.symm.trans hheader'
      cases hvalue.symm.trans hvalue'
      exact ⟨rfl, rfl⟩

/-- There is only one way to expand the blocks of a list. -/
theorem Expansions.unique {es es' : List Edit} {d' : Counters}
    (h : Expansions r template scope bs c es d) (g : Expansions r template scope bs c es' d') :
    es = es' ∧ d = d' := by
  induction h generalizing es' with
  | nil =>
    cases g
    exact ⟨rfl, rfl⟩
  | cons hb _ ih =>
    cases g with
    | cons hb' hbs' =>
      obtain ⟨rfl, rfl⟩ := hb.unique hb'
      obtain ⟨rfl, rfl⟩ := ih hbs'
      exact ⟨rfl, rfl⟩

theorem Expands.keeps {text : Option Text} (h : Expands r template scope b c text d) :
    d.limits = c.limits ∧ d.depth = c.depth := by
  cases h with
  | stays => exact ⟨rfl, rfl⟩
  | gives => exact CountedRenderer.expansion_keeps _

theorem Expansions.keeps {es : List Edit} (h : Expansions r template scope bs c es d) :
    d.limits = c.limits ∧ d.depth = c.depth := by
  induction h with
  | nil => exact ⟨rfl, rfl⟩
  | cons hb _ ih => exact ⟨ih.1.trans hb.keeps.1, ih.2.trans hb.keeps.2⟩

end

/-- A loop has no other branch: its body goes up to the closing tag. -/
theorem branches_of_loop {template : Text} {b : Block} (hb : b ∈ blocks template)
    (hkind : b.kind = .loop) : (b.branches template).1 = template.slice b.bodyStart b.bodyStop := by
  obtain ⟨i, j, -, -, -, hpair, -⟩ := (blocks_shows template b).mp hb
  have hnone : b.alternative = none := by
    cases h : b.alternative with
    | none => rfl
    | some tag =>
      have := ((hpair.alternative tag).mp h).1
      rw [hkind] at this
      cases this
  unfold Block.branches
  rw [hnone]

namespace CountedRenderer

variable {r : CountedRenderer} {render : BodyRenderer} {template : Text} {scope : Scope}

theorem Describes.exists_expandBlock (h : r.Describes render) {b : Block} (hb : b ∈ blocks template)
    (hresolve : b.kind = .loop → ∀ header : LoopHeader, header.Spelled b.argument →
      ∃ value, scope.resolve header.path = .ok value) (s : State) :
    ∃ text after, expandBlock (if s.room = 0 then none else some render) scope template b s
        = .ok text after ∧ Expands r template scope b s.counters text after.counters := by
  unfold expandBlock
  by_cases hkind : b.kind = .loop
  · rw [if_pos hkind, branches_of_loop hb hkind]
    cases hheader : LoopHeader.ofArgument? b.argument with
    | none =>
      refine ⟨none, s.note (.malformedHeader b.argument), ?_, .stays fun _ header hspelled => ?_⟩
      · rw [expandLoop_of_malformed _ _ scope hheader]
        rfl
      · rw [LoopHeader.ofArgument?_eq_some_iff.mpr hspelled] at hheader
        cases hheader
    | some header =>
      have hspelled := LoopHeader.ofArgument?_eq_some_iff.mp hheader
      obtain ⟨value, hvalue⟩ := hresolve hkind header hspelled
      obtain ⟨after, hrun, hafter⟩ := h.exists_expandLoop hheader hvalue
        (template.slice b.bodyStart b.bodyStop) s
      exact ⟨_, after, hrun, hafter ▸ .gives hkind hspelled hvalue⟩
  · rw [if_neg hkind]
    exact ⟨none, s, rfl, .stays fun hloop => absurd hloop hkind⟩

/-- The blocks of a template are expanded one after the other. -/
theorem Describes.exists_edits (h : r.Describes render) {bs : List Block}
    (hbs : ∀ b ∈ bs, b ∈ blocks template)
    (hresolve : ∀ b ∈ bs, b.kind = .loop → ∀ header : LoopHeader, header.Spelled b.argument →
      ∃ value, scope.resolve header.path = .ok value) (room : Nat) (s : State)
    (hroom : s.room = room) :
    ∃ es after, edits (expandBlock (if room = 0 then none else some render) scope template)
        (bs.map Block.occurrence) s = .ok es after ∧
      Expansions r template scope bs s.counters es after.counters := by
  induction bs generalizing s with
  | nil => exact ⟨[], s, rfl, .nil⟩
  | cons b bs ih =>
    obtain ⟨hb, hbs⟩ := List.forall_mem_cons.mp hbs
    obtain ⟨hresolveb, hresolve⟩ := List.forall_mem_cons.mp hresolve
    obtain ⟨text, between, hrun, hexpands⟩ := h.exists_expandBlock hb hresolveb s
    obtain ⟨hlimits, hdepth⟩ := hexpands.keeps
    -- the next block finds as many levels left
    have hbetween : between.room = room := by
      have hlimits : between.limits = s.limits := hlimits
      have hdepth : between.depth = s.depth := hdepth
      rw [← hroom]
      unfold State.room
      rw [hlimits, hdepth]
    obtain ⟨rest, after, hrest, hexpansions⟩ := ih hbs hresolve between hbetween
    rw [hroom] at hrun
    exact ⟨_, after, edits_cons_eq_ok_iff.mpr ⟨text, between, rest, hrun, hrest, rfl⟩,
      .cons hexpands hexpansions⟩

end CountedRenderer

/-- **Loops give way to their turns, and nothing else changes.**  With any renderer of bodies that
goes by the counters and keeps limits and depth, and paths of loops that can be resolved, the stage
returns its template with new text for those blocks that are loops with a header: each expanded with
the counters that the ones before it have left. -/
theorem loopStage_eq_expansions {r : CountedRenderer} {render : BodyRenderer}
    (h : r.Describes render) (template : Text) (scope : Scope)
    (hresolve : ∀ b ∈ blocks template, b.kind = .loop → ∀ header : LoopHeader,
      header.Spelled b.argument → ∃ value, scope.resolve header.path = .ok value) (s : State) :
    ∃ es after, loopStage render template scope s = .ok (template.edited 0 es) after ∧
      (∀ es' d, Expansions r template scope (blocks template) s.counters es' d ↔
        es' = es ∧ d = after.counters) ∧
      after.limits = s.limits ∧ after.depth = s.depth := by
  obtain ⟨es, after, hedits, hexpansions⟩ := h.exists_edits (fun _ hb => hb) hresolve s.room
    (s.record (.reads .loops template)) rfl
  have hinOrder := (blocks_laid template).inOrder
  have hrun := (substitute_eq_ok_iff hinOrder).mpr ⟨es, hedits, rfl⟩
  refine ⟨es, after, hrun, fun es' d => ⟨fun h' => ?_, ?_⟩, hexpansions.keeps⟩
  · obtain ⟨rfl, rfl⟩ := h'.unique hexpansions
    exact ⟨rfl, rfl⟩
  · rintro ⟨rfl, rfl⟩
    exact hexpansions

/-- A renderer of bodies that spends substitutions of its own, a malformed loop between two others,
and a budget that ends before the last turn. -/
theorem loopStage_eq_expansions_of_malformed :
    let shown (scope : Scope) : Text :=
      match scope.find? "x".toList with
      | some (.text t) => t
      | _ => []
    let r : CountedRenderer :=
      ⟨fun body scope c => (if 0 < c.left then body ++ shown scope else [], c.charge 1),
        fun _ _ _ => rfl, fun _ _ _ => rfl⟩
    let render : BodyRenderer := fun body scope => do
      if ← Render.spend then return body ++ shown scope else return []
    let loop (body : Text) : Text := forMark "x".toList "xs".toList ++ body ++ endforMark
    let malformed := "{% for x %}".toList ++ loop "b".toList ++ endforMark
    let template := loop "a".toList ++ malformed ++ loop "c".toList
    let scope : Scope :=
      [(.text "xs".toList, .sequence .list [.text "p".toList, .text "q".toList])]
    let s : State := { limits := ⟨32, 5⟩ }
    (r.Describes render ∧
      (∀ b ∈ blocks template, b.kind = .loop → ∀ header : LoopHeader,
        header.Spelled b.argument → ∃ value, scope.resolve header.path = .ok value) ∧
      (outcome (loopStage render template scope s)).toOption
        = some ("apaq".toList ++ malformed)) ∧
    ∃ es after, loopStage render template scope s = .ok (template.edited 0 es) after ∧
      (∀ es' d, Expansions r template scope (blocks template) s.counters es' d ↔
        es' = es ∧ d = after.counters) ∧
      after.limits = s.limits ∧ after.depth = s.depth := by
  intro shown r render loop malformed template scope s
  have hdescribes : r.Describes render := by
    intro body scope s
    obtain ⟨t, hspend, ht⟩ := exists_spend s
    refine ⟨t, (bind_of_ok hspend).trans ?_, ht⟩
    show _ = EStateM.Result.ok (if 0 < s.counters.left then body ++ shown scope else []) t
    by_cases hleft : 0 < s.counters.left
    · rw [decide_eq_true hleft, if_pos hleft]
      rfl
    · rw [decide_eq_false hleft, if_neg hleft]
      rfl
  have hpaths : ∀ b ∈ blocks template, ∀ header ∈ LoopHeader.ofArgument? b.argument,
      (scope.resolve header.path).toOption.isSome = true := by
    decide +kernel
  have hresolve : ∀ b ∈ blocks template, b.kind = .loop → ∀ header : LoopHeader,
      header.Spelled b.argument → ∃ value, scope.resolve header.path = .ok value := by
    intro b hb _ header hheader
    have := hpaths b hb header (LoopHeader.ofArgument?_eq_some_iff.mpr hheader)
    cases h : scope.resolve header.path with
    | ok value => exact ⟨value, rfl⟩
    | error e =>
      rw [h] at this
      cases this
  exact ⟨⟨hdescribes, hresolve, by decide +kernel⟩,
    loopStage_eq_expansions hdescribes template scope hresolve s⟩

end Stencil
