import Stencil.Proofs.Markup.Nesting
import Stencil.Proofs.Markup.Span
import Stencil.Proofs.Markup.Written
import Stencil.Proofs.Render.Interference
import Stencil.Proofs.Render.Yield

/-!
# What a loop hides

The item of a loop hides what its name means outside, and does so through all that the turns do
(`blockStages_congr_of_loop`).  But a placeholder that a turn leaves is still in the text when the
placeholders of the enclosing scope are filled, and there the name has its outer meaning again.
So the outer meaning shows in the output just as far as these two stages find something to fill
(`render_loop_eq_iff`); a turn that leaves a placeholder which begins with the name gives it away
(`render_loop_shows_outer_binding`).
-/

namespace Stencil

open Render

/-- A template that is one loop. -/
def loopTemplate (name path body : Text) : Text :=
  forMark name path ++ body ++ endforMark

/-- The stages of blocks: conditionals, then loops. -/
def blockStages (filters : Registry) (room : Nat) (template : Text) (scope : Scope) :
    Render Text := do
  let t ← resolveConditionals scope room template
  expandLoops (bodiesBelow filters room) scope t

/-- The stages of placeholders: plain ones, then filtered ones. -/
def placeholderStages (filters : Registry) (template : Text) (scope : Scope) : Render Text := do
  let t ← plainStage template scope
  filteredStage filters t scope

theorem renderWithin_eq_stages (filters : Registry) (room : Nat) (t : Text) (scope : Scope) :
    renderWithin filters room t scope
      = blockStages filters room t scope >>= (placeholderStages filters · scope) := by
  rw [renderWithin_eq]
  exact (bind_assoc _ _ _).symm

/-- What comes out if the stages of blocks run in one scope, and those of placeholders in another. -/
def renderedAcross (filters : Registry) (limits : Limits) (template : Text)
    (blockScope placeholderScope : Scope) : Text :=
  (result? ((blockStages filters limits.maxDepth template blockScope
    >>= (placeholderStages filters · placeholderScope)) { limits := limits })).getD template

/-! ## A template that is one loop -/

/-- What the text of a loop has to be like for its tags to be read as they are meant: the item is a
word, the sequence a path that begins with another name, and there is one block, from end to end. -/
structure IsLoop (name path body : Text) : Prop where
  name_isWord : name.isWord = true
  path_isPath : path.isPath = true
  path_head : path.pathHead ≠ name
  spans : (blocks (loopTemplate name path body)).map (fun b => (b.start, b.stop))
    = [(0, (loopTemplate name path body).length)]

/-- What is found at the very start of a text is what stands there. -/
theorem item_of_start_eq_zero {α : Type} {r : Recogniser α} {t : Text} {o : Occurrence α}
    (h : o ∈ occurrences r t) (ho : o.start = 0) : ∃ rest, r t = some (o.item, rest) := by
  cases t with
  | nil => cases h
  | cons c t =>
    unfold occurrences occurrencesFrom at h
    dsimp only at h
    split at h
    · rename_i a rest hr
      rcases List.mem_cons.mp h with rfl | h
      · exact ⟨rest, hr⟩
      · have hlater := occurrencesFrom_inOrder r t (t.length - rest.length) (0 + 1) (Nat.sub_le _ _)
        have := (hlater.bounds_of_mem o h).1
        omega
    · have hlater := occurrencesFrom_inOrder r t 0 (0 + 1) (Nat.zero_le _)
      have := (hlater.bounds_of_mem o h).1
      omega

namespace IsLoop

variable {name path body : Text}

/-- The block of the template is the loop that its first tag opens. -/
theorem exists_block (h : IsLoop name path body) :
    ∃ block, blocks (loopTemplate name path body) = [block] ∧ block.kind = .loop ∧
      LoopHeader.ofArgument? block.argument = some ⟨name, path⟩ := by
  obtain ⟨block, hblocks, hspan⟩ := List.map_eq_singleton_iff.mp h.spans
  have hb := blocks_built (loopTemplate name path body) block (by rw [hblocks]; simp)
  obtain ⟨rest, hrest⟩ := item_of_start_eq_zero hb.opener_mem (Prod.mk.inj hspan).1
  have hread := tagAt_for h.name_isWord h.path_isPath (body ++ endforMark)
  rw [← List.append_assoc] at hread
  have hopener := (Prod.mk.inj (Option.some.inj (hread.symm.trans hrest))).1
  have hkind := hb.opener_name
  rw [← hopener] at hkind
  refine ⟨block, hblocks, (TagName.start.inj hkind).symm, ?_⟩
  unfold Block.argument
  rw [← hopener]
  exact loopHeader_ofArgument?_written h.name_isWord h.path_isPath

/-- Conditionals are for the turns to resolve. -/
theorem conditionals_eq (h : IsLoop name path body) (scope : Scope) (room : Nat) :
    resolveConditionals scope room (loopTemplate name path body) = (do
      Render.reads .conditionals (loopTemplate name path body)
      pure (loopTemplate name path body)) := by
  rw [resolveConditionals_eq]
  obtain ⟨block, hblocks, hkind, -⟩ := h.exists_block
  unfold chooseBranches substitute
  rw [hblocks, List.map_singleton]
  unfold edits chooseBranch
  rw [if_neg (by rw [show block.occurrence.item = block from rfl, hkind]; decide)]
  rfl

end IsLoop

variable {s₁ s₂ : Scope} {name path body : Text}

/-- **The turns do not see what the name means outside.**  The stages of blocks do the same in
scopes that differ in the name of the item only. -/
theorem blockStages_congr_of_loop (filters : Registry) (h : IsLoop name path body)
    (hs : Scope.AgreeOn (· ≠ name) s₁ s₂) (s : State) :
    blockStages filters s.room (loopTemplate name path body) s₁ s
      = blockStages filters s.room (loopTemplate name path body) s₂ s := by
  have halike : Alike (.agreeing fun _ => True) True s.room s.room
      (expandLoops (bodiesBelow filters s.room) s₁ (loopTemplate name path body))
      (expandLoops (bodiesBelow filters s.room) s₂ (loopTemplate name path body)) := by
    refine .reads .loops _ (fun _ => rfl) (alike_substitute (fun o ho => ?_) _)
    obtain ⟨block, hblocks, hkind, hheader⟩ := h.exists_block
    have hblock : o.item = block := by
      have := mem_blocks_of_occurrence ho
      rw [hblocks] at this
      exact List.mem_singleton.mp this
    unfold expandBlock
    rw [hblock, if_pos hkind, if_pos hkind]
    refine alike_expandLoop (fun header hh _ => ?_) (fun header hh _ _ _ item _ => ?_) ?_
    · cases hh.symm.trans hheader
      exact ⟨hs.resolve h.path_head, fun _ _ => trivial⟩
    · cases hh.symm.trans hheader
      -- once the item is bound, the scopes agree on all names
      exact hs.bind_self item
    · cases s.room with
      | zero => exact .none rfl fun _ => rfl
      | succ room =>
        exact .level fun _ _ hs =>
          alike_renderWithin (Comparison.agreeing_lawful _ filters) hs rfl
  have hstages (scope : Scope) : blockStages filters s.room (loopTemplate name path body) scope s
      = expandLoops (bodiesBelow filters s.room) scope (loopTemplate name path body)
        (s.record (.reads .conditionals (loopTemplate name path body))) := by
    refine bind_of_ok ?_
    rw [h.conditionals_eq]
    rfl
  rw [hstages, hstages]
  exact halike.same trivial (fun _ hroom => hroom) rfl fun _ _ _ _ _ => trivial

theorem substitute_congr {α : Type} {f g : α → Render (Option Text)} {found : List (Occurrence α)}
    (h : ∀ o ∈ found, f o.item = g o.item) (t : Text) :
    substitute found f t = substitute found g t := by
  have hedits : edits f found = edits g found := by
    induction found with
    | nil => rfl
    | cons o os ih =>
      obtain ⟨ho, hos⟩ := List.forall_mem_cons.mp h
      unfold edits
      rw [ho, ih hos]
  unfold substitute
  rw [hedits]

theorem plainStage_congr {t : Text}
    (h : ∀ o ∈ occurrences plainAt t, s₁.resolve o.item = s₂.resolve o.item) :
    plainStage t s₁ = plainStage t s₂ := by
  unfold plainStage
  congr 1
  funext _
  exact substitute_congr (fun o ho => fillPlain_congr (h o ho)) t

theorem filteredStage_congr (filters : Registry) {t : Text}
    (h : ∀ o ∈ occurrences filteredAt t, s₁.resolve o.item.path = s₂.resolve o.item.path) :
    filteredStage filters t s₁ = filteredStage filters t s₂ := by
  unfold filteredStage
  congr 1
  funext _
  exact substitute_congr (fun o ho => fillFiltered_congr filters (h o ho)) t

/-- The stages of placeholders do the same in scopes that differ in one name only, if none of the
placeholders that they find begins with it. -/
theorem placeholderStages_congr (filters : Registry) (hs : Scope.AgreeOn (· ≠ name) s₁ s₂)
    {t : Text} {s : State} (hplain : ∀ o ∈ occurrences plainAt t, o.item.pathHead ≠ name)
    (hfiltered : ∀ u s', plainStage t s₁ s = .ok u s' →
      ∀ o ∈ occurrences filteredAt u, o.item.path.pathHead ≠ name) :
    placeholderStages filters t s₁ s = placeholderStages filters t s₂ s := by
  have hstage : plainStage t s₁ = plainStage t s₂ :=
    plainStage_congr fun o ho => hs.resolve (hplain o ho)
  unfold placeholderStages
  cases hr : plainStage t s₁ s with
  | ok u s' =>
    rw [bind_of_ok hr, bind_of_ok ((congrFun hstage s).symm.trans hr)]
    rw [filteredStage_congr filters fun o ho => hs.resolve (hfiltered u s' hr o ho)]
  | error e s' =>
    rw [bind_of_error hr, bind_of_error ((congrFun hstage s).symm.trans hr)]

/-- No turn leaves a placeholder that begins with the name, for the stages of placeholders to
find. -/
def LeavesNone (filters : Registry) (limits : Limits) (template name : Text) (scope : Scope) :
    Prop :=
  ∀ left s, blockStages filters limits.maxDepth template scope { limits := limits } = .ok left s →
    (∀ o ∈ occurrences plainAt left, o.item.pathHead ≠ name) ∧
      ∀ u s', plainStage left scope s = .ok u s' →
        ∀ o ∈ occurrences filteredAt u, o.item.path.pathHead ≠ name

/-- What the turns leave comes out alike if the placeholders in it are filled in the one scope or in
the other; where they cannot be filled, the template comes out. -/
def LeftFilledAlike (filters : Registry) (limits : Limits) (template : Text)
    (blockScope otherScope : Scope) : Prop :=
  ∀ left s, blockStages filters limits.maxDepth template blockScope { limits := limits } = .ok left s →
    (result? (placeholderStages filters left blockScope s)).getD template
      = (result? (placeholderStages filters left otherScope s)).getD template

/-- **A loop is expanded in either scope.**  What comes out in the one is what its placeholder stages
make of what the block stages leave in the other. -/
theorem render_loop_output_eq (filters : Registry) (limits : Limits) (h : IsLoop name path body)
    (hs : Scope.AgreeOn (· ≠ name) s₁ s₂) :
    (render filters limits (loopTemplate name path body) s₂).output
      = renderedAcross filters limits (loopTemplate name path body) s₁ s₂ := by
  have hblocks := blockStages_congr_of_loop filters h hs { limits := limits }
  rw [render_output_eq, renderWithin_eq_stages]
  unfold renderedAcross
  exact congrArg (fun run => (result? run).getD _) (bind_congr_left hblocks _).symm

theorem renderedAcross_eq_iff (filters : Registry) (limits : Limits) (template : Text)
    (s₁ s₂ : Scope) :
    renderedAcross filters limits template s₁ s₁ = renderedAcross filters limits template s₁ s₂ ↔
      LeftFilledAlike filters limits template s₁ s₂ := by
  unfold renderedAcross LeftFilledAlike
  cases hr : blockStages filters limits.maxDepth template s₁ { limits := limits } with
  | ok left s =>
    rw [bind_of_ok hr, bind_of_ok hr]
    constructor
    · intro heq left' s' h
      cases h
      exact heq
    · exact fun h => h left s rfl
  | error e s =>
    rw [bind_of_error hr, bind_of_error hr]
    exact ⟨fun _ => nofun, fun _ => rfl⟩

/-- **How far a loop hides a name.**  Two scopes that differ in the name of the item only give the
same output if and only if the placeholders that the turns leave in the one are filled alike in both.
So it is if no such placeholder begins with the name. -/
theorem render_loop_eq_iff (filters : Registry) (limits : Limits) (h : IsLoop name path body)
    (hs : Scope.AgreeOn (· ≠ name) s₁ s₂) :
    ((render filters limits (loopTemplate name path body) s₁).output
        = (render filters limits (loopTemplate name path body) s₂).output ↔
      LeftFilledAlike filters limits (loopTemplate name path body) s₁ s₂) ∧
    (LeavesNone filters limits (loopTemplate name path body) name s₁ →
      (render filters limits (loopTemplate name path body) s₁).output
        = (render filters limits (loopTemplate name path body) s₂).output) := by
  have hiff : (render filters limits (loopTemplate name path body) s₁).output
        = (render filters limits (loopTemplate name path body) s₂).output ↔
      LeftFilledAlike filters limits (loopTemplate name path body) s₁ s₂ := by
    rw [render_loop_output_eq filters limits h hs,
      render_loop_output_eq filters limits h fun _ _ => rfl]
    exact renderedAcross_eq_iff filters limits _ s₁ s₂
  refine ⟨hiff, fun hleft => hiff.mpr fun left s hr => ?_⟩
  obtain ⟨hplain, hfiltered⟩ := hleft left s hr
  rw [placeholderStages_congr filters hs hplain hfiltered]

/-- The outer meaning of the name does not matter for a turn that fills its placeholders. -/
theorem render_loop_hides_outer_binding :
    let inner : Scope := [(.text "xs".toList, .sequence .list [.text "a".toList, .null])]
    let outer : Scope := inner.bind "n".toList (.text "leak".toList)
    IsLoop "n".toList "xs".toList "[{{ n }}{{ n | upper }}]".toList ∧
      Scope.AgreeOn (· ≠ "n".toList) outer inner ∧
      ((render .standard {} (loopTemplate "n".toList "xs".toList
          "[{{ n }}{{ n | upper }}]".toList) outer).output
        = (render .standard {} (loopTemplate "n".toList "xs".toList
          "[{{ n }}{{ n | upper }}]".toList) inner).output) := by
  intro inner outer
  have hloop : IsLoop "n".toList "xs".toList "[{{ n }}{{ n | upper }}]".toList :=
    ⟨by decide +kernel, by decide +kernel, by decide +kernel, by decide +kernel⟩
  have hagree : Scope.AgreeOn (· ≠ "n".toList) outer inner :=
    fun other ho => Scope.find?_bind_of_ne _ inner ho
  refine ⟨hloop, hagree, (render_loop_eq_iff .standard {} hloop hagree).2 fun left s hr => ?_⟩
  have hleft : left = "[aA][]".toList := by
    have : result? (blockStages .standard 32 (loopTemplate "n".toList "xs".toList
        "[{{ n }}{{ n | upper }}]".toList) outer {}) = some "[aA][]".toList := by
      decide +kernel
    rw [show blockStages .standard 32 _ outer {} = _ from hr] at this
    exact Option.some.inj this
  subst hleft
  refine ⟨by decide +kernel, fun u s' hu => ?_⟩
  cases hu
  decide +kernel

/-- A turn that leaves a placeholder which begins with the name of the item gives the outer meaning
of the name away, though no limit is reached. -/
theorem render_loop_shows_outer_binding :
    let inner : Scope := [(.text "xs".toList, .sequence .list [.mapping []])]
    let outer : Scope := inner.bind "n".toList
      (.mapping [(.text "x".toList, .text "leak".toList)])
    let template := loopTemplate "n".toList "xs".toList "{{ n.x }}".toList
    IsLoop "n".toList "xs".toList "{{ n.x }}".toList ∧
      Scope.AgreeOn (· ≠ "n".toList) outer inner ∧
      ((renderStages .standard template outer).endState {}).exhausted = false ∧
      ((renderStages .standard template inner).endState {}).exhausted = false ∧
      (render .standard {} template outer).output = "leak".toList ∧
      (render .standard {} template inner).output = "{{ n.x }}".toList := by
  refine ⟨⟨?_, ?_, ?_, ?_⟩, fun other ho => Scope.find?_bind_of_ne _ _ ho, ?_, ?_, ?_, ?_⟩ <;>
    decide +kernel

end Stencil
