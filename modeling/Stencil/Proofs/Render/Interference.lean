import Stencil.Proofs.Render.SameCourse

/-!
# Which names a render depends on

A render depends on a name only if one of its stages looks up a path that begins with the name
(`render_congr_of_not_looked_up`).  What is looked up are the paths of placeholders, conditions and
loop headers in the texts that the stages read.  These texts are the template and what the stages
make of it, for each stage reads what the one before it has written.

That the template does not mention a name is therefore not enough (`render_not_congr_of_template`):
the text of a value may hold a placeholder or be put inside one, and the two sides of a tag that is
taken out come to stand together.

Two renders are compared, in scopes that agree on the names of a class (`Comparison.agreeing`).  That
the paths which are looked up begin with such names is asked of the texts that are on record when the
run is over.
-/

namespace Stencil

open Render

/-! ## Scopes that agree -/

/-- The two scopes bind the names of a class alike, and only such names are looked up. -/
def Comparison.agreeing (names : Text → Prop) : Comparison where
  scopes := Scope.AgreeOn names
  scans room room' _ := room = room'
  refuses room' := room' = 0
  reads stage t := ∀ path ∈ stage.paths t, names path.pathHead
  fails _ := True

theorem Comparison.agreeing_lawful (names : Text → Prop) (filters : Registry) :
    (agreeing names).Lawful filters where
  bind hs _ _ name := Scope.AgreeOn.bind hs name _
  sublist ht _ := ht
  level ht _ := ⟨_, ht.symm, rfl, rfl⟩
  stop ht _ := ht.symm
  resolve hs ht hpath := ⟨Scope.AgreeOn.resolve hs (ht _ hpath), fun _ _ => trivial⟩
  plain _ _ _ := fun _ _ _ _ => trivial
  filtered _ _ _ := fun _ _ _ _ => trivial

/-- **Renders in lockstep.**  In scopes that bind the names of a class alike, the stages do the same
if they look up paths only that begin with such names. -/
theorem renderStages_eq_of_agreeOn (filters : Registry) (template : Text) {names : Text → Prop}
    {s₁ s₂ : Scope} (hs : Scope.AgreeOn names s₁ s₂) (s : State)
    (hnames : ∀ stage t,
      ReadBetween s ((renderStages filters template s₁).endState s) stage t →
        ∀ path ∈ stage.paths t, names path.pathHead) :
    renderStages filters template s₁ s = renderStages filters template s₂ s := by
  have halike : Alike (.agreeing names) True s.room s.room
      (renderWithin filters s.room template s₁) (renderWithin filters s.room template s₂) :=
    alike_renderWithin (Comparison.agreeing_lawful names filters) hs rfl
  exact halike.same trivial (fun _ hroom => hroom) rfl hnames

/-! ## Names that are looked up -/

/-- The paths that are looked up at an event. -/
def Event.paths : Event → List Text
  | reads stage t => stage.paths t
  | depth _ => []

/-- The paths of the placeholders, conditions and loop headers in the texts that the stages of a
render read. -/
def pathsLookedUp (filters : Registry) (limits : Limits) (template : Text) (scope : Scope) :
    List Text :=
  ((renderStages filters template scope).endState { limits := limits }).history.flatMap Event.paths

/-- **Only names that are looked up matter.**  If no path that the stages look up begins with a name,
the render comes out the same, notices included, with any other value of the name. -/
theorem render_congr_of_not_looked_up (filters : Registry) (limits : Limits) (template : Text)
    (scope : Scope) (name : Text) (v w : Value)
    (h : ∀ path ∈ pathsLookedUp filters limits template (scope.bind name v), path.pathHead ≠ name) :
    render filters limits template (scope.bind name v)
      = render filters limits template (scope.bind name w) := by
  have heq := renderStages_eq_of_agreeOn filters template
    (Scope.agreeOn_bind_bind scope name v w) { limits := limits } fun stage t ht path hpath => by
      obtain ⟨new, hnew, hmem⟩ := ht
      refine h path (List.mem_flatMap.mpr ⟨.reads stage t, ?_, hpath⟩)
      rw [hnew]
      exact List.mem_append_left _ hmem
  unfold render EStateM.run
  rw [heq]

/-- A value with a placeholder in it is read again, and another one has the name in its text; but no
path begins with the name. -/
theorem render_congr_of_name_in_value :
    let scope : Scope := [(.text "user".toList, .text "Ann".toList),
      (.text "a".toList, .text "{{ user | upper }}".toList)]
    let template := "Dear {{ user }}! {% if user %}{{ a }}{% endif %}".toList
    let unnamed := scope.bind "n".toList .null
    (∀ path ∈ pathsLookedUp .standard {} template unnamed, path.pathHead ≠ "n".toList) ∧
      render .standard {} template unnamed
        = render .standard {} template (scope.bind "n".toList (.text "{{ a }}".toList)) ∧
      (render .standard {} template unnamed).output = "Dear Ann! ANN".toList := by
  intro scope template unnamed
  have h : ∀ path ∈ pathsLookedUp .standard {} template unnamed, path.pathHead ≠ "n".toList := by
    decide +kernel
  exact ⟨h, render_congr_of_not_looked_up _ _ _ _ _ _ _ h, by decide +kernel⟩

/-- The scope of a value `v` under the name, over a value that holds a placeholder. -/
def overPlaceholder (v : Text) : Scope :=
  Scope.bind "k".toList (.text v) [(.text "a".toList, .text "{{ k | lower }}".toList)]

/-- The scope of a value `v` under the name, over a value that is the name. -/
def overName (v : Text) : Scope :=
  Scope.bind "k".toList (.text v) [(.text "a".toList, .text "k".toList)]

/-- It is not enough that the template does not mention the name: the text of a value may hold a
placeholder (first) or be put inside one (second), and the two sides of a tag that is taken out come
to stand together (third). -/
theorem render_not_congr_of_template :
    (¬ "k".toList <:+: "{{ a }}".toList ∧
      (render .standard {} "{{ a }}".toList (overPlaceholder "x".toList)).output
        ≠ (render .standard {} "{{ a }}".toList (overPlaceholder "y".toList)).output) ∧
    (¬ "k".toList <:+: "{{ {{ a }} | lower }}".toList ∧
      (render .standard {} "{{ {{ a }} | lower }}".toList (overName "x".toList)).output
        ≠ (render .standard {} "{{ {{ a }} | lower }}".toList (overName "y".toList)).output) ∧
    (¬ "name".toList <:+: "{{ na{% if z %}{% endif %}me }}".toList ∧
      (render .standard {} "{{ na{% if z %}{% endif %}me }}".toList
          (Scope.bind "name".toList (.text "x".toList) [])).output
        ≠ (render .standard {} "{{ na{% if z %}{% endif %}me }}".toList
          (Scope.bind "name".toList (.text "y".toList) [])).output) := by
  refine ⟨⟨?_, ?_⟩, ⟨?_, ?_⟩, ?_, ?_⟩ <;> decide +kernel

end Stencil
