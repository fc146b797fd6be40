import Stencil.Proofs.Store.Lookup

/-!
# Whether there is a template

A name belongs to a template if one of the directories has a file at its place.  To say so, a library
reads the file that goes before the other one, and what that file holds is part of the answer:

    no file in either directory     no
    a file that is UTF-8            yes
    a file that is not UTF-8        no answer, even if the file behind it is one
    a place that is refused         no answer, unless the user has a file before it

So the answer is right whenever there is one, and there is none just where the system refuses to look
or the file that is seen cannot be decoded (`hasTemplate_returns_iff`).
-/

namespace Stencil

namespace Library

variable {lib : Library} {tree : FileTree} {name : InnerName}

/-- One of the directories has a file of a name. -/
def HasFile (lib : Library) (tree : FileTree) (name : InnerName) : Prop :=
  ∃ directory, (lib.user = some directory ∨ lib.default = some directory) ∧
    ∃ bytes, tree.file? (name.place directory) = some bytes

/-- A file that is seen is there. -/
theorem Sees.hasFile {bytes : List UInt8} (h : lib.Sees tree name (.ok (some bytes))) :
    lib.HasFile tree name := by
  cases h with
  | user layer look => exact ⟨_, .inl layer, bytes, (FileTree.look_eq_ok_iff.mp look).2⟩
  | default noUser layer look => exact ⟨_, .inr layer, bytes, (FileTree.look_eq_ok_iff.mp look).2⟩

/-- If nothing is seen, and the system has not refused to look, no file is there. -/
theorem Sees.not_hasFile (h : lib.Sees tree name (.ok none)) : ¬ lib.HasFile tree name := by
  cases h with
  | user layer look something => exact absurd rfl something
  | default noUser layer look something => exact absurd rfl something
  | nothing noUser noDefault =>
    rintro ⟨directory, layer, bytes, file⟩
    have hlook : tree.look (name.place directory) = .ok none :=
      layer.elim (noUser directory) (noDefault directory)
    rw [(FileTree.look_eq_ok_iff.mp hlook).2] at file
    cases file

theorem Sees.unique {seen other : Except Text (Option (List UInt8))} (h : lib.Sees tree name seen)
    (g : lib.Sees tree name other) : seen = other :=
  (sees_iff.mp h).symm.trans (sees_iff.mp g)

/-! ## The answer -/

/-- The bytes are the UTF-8 of a text. -/
def Decodable (bytes : List UInt8) : Prop :=
  ∃ t : Text, t.flatMap String.utf8EncodeChar = bytes

theorem decodable_iff {bytes : List UInt8} : Decodable bytes ↔ ∃ t, decodeUtf8? bytes = some t :=
  exists_congr fun _ => decodeUtf8?_eq_some_iff.symm

theorem hasTemplate_of_refused {reason : Text} (h : lib.Sees tree name (.error reason)) :
    lib.hasTemplate tree name.text = .error (.refused reason) := by
  unfold hasTemplate
  rw [looksUp_iff.mp (.refused h)]

theorem hasTemplate_of_nothing (h : lib.Sees tree name (.ok none)) :
    lib.hasTemplate tree name.text = .ok false := by
  unfold hasTemplate
  rw [looksUp_iff.mp (.missing h)]

theorem hasTemplate_of_decodable {bytes : List UInt8} (h : lib.Sees tree name (.ok (some bytes)))
    (hbytes : Decodable bytes) : lib.hasTemplate tree name.text = .ok true := by
  obtain ⟨t, ht⟩ := hbytes
  unfold hasTemplate
  rw [looksUp_iff.mp (.found h (.text ht (Text.lineFeedsOnly_iff.mpr rfl)))]

theorem hasTemplate_of_not_decodable {bytes : List UInt8}
    (h : lib.Sees tree name (.ok (some bytes))) (hbytes : ¬ Decodable bytes) :
    lib.hasTemplate tree name.text = .error .undecodable := by
  have hread : ReadAs bytes (.error .undecodable) := .undecodable fun t ht => hbytes ⟨t, ht⟩
  unfold hasTemplate
  rw [looksUp_iff.mp (.found h hread)]

end Library

/-- **Whether there is a template is answered unless the system refuses to look or the file that is
seen cannot be decoded**, whatever else the directories hold.  An answer is right: it is yes just if
one of the directories has a file of the name.  Where there is none, it is the refusal that comes out,
or a file of the name is to blame. -/
theorem hasTemplate_returns_iff (lib : Library) (tree : FileTree) (name : InnerName) :
    ((∃ answer, lib.hasTemplate tree name.text = .ok answer) ↔
      (∀ reason, ¬ lib.Sees tree name (.error reason)) ∧
        ∀ bytes, lib.Sees tree name (.ok (some bytes)) → Library.Decodable bytes) ∧
    (∀ answer, lib.hasTemplate tree name.text = .ok answer →
      (answer = true ↔ lib.HasFile tree name)) ∧
    ∀ e, lib.hasTemplate tree name.text = .error e →
      (e = .undecodable ∧ lib.HasFile tree name) ∨
        ∃ reason, e = .refused reason ∧ lib.Sees tree name (.error reason) := by
  have hsees : lib.Sees tree name (lib.file? tree name.text) := Library.sees_iff.mpr rfl
  generalize lib.file? tree name.text = seen at hsees
  have honly : ∀ other, lib.Sees tree name other → other = seen := fun other h => h.unique hsees
  match seen, hsees, honly with
  | .error reason, hsees, honly =>
    rw [Library.hasTemplate_of_refused hsees]
    refine ⟨iff_of_false nofun fun h => h.1 reason hsees, nofun, fun e h => ?_⟩
    cases h
    exact .inr ⟨reason, rfl, hsees⟩
  | .ok none, hsees, honly =>
    rw [Library.hasTemplate_of_nothing hsees]
    refine ⟨iff_of_true ⟨false, rfl⟩ ⟨fun reason h => ?_, fun bytes h => ?_⟩,
      fun answer h => ?_, nofun⟩
    · cases honly _ h
    · cases honly _ h
    · cases h
      exact iff_of_false Bool.false_ne_true hsees.not_hasFile
  | .ok (some bytes), hsees, honly =>
    by_cases hbytes : Library.Decodable bytes
    · rw [Library.hasTemplate_of_decodable hsees hbytes]
      refine ⟨iff_of_true ⟨true, rfl⟩ ⟨fun reason h => ?_, fun other h => ?_⟩,
        fun answer h => ?_, nofun⟩
      · cases honly _ h
      · cases honly _ h
        exact hbytes
      · cases h
        exact iff_of_true rfl hsees.hasFile
    · rw [Library.hasTemplate_of_not_decodable hsees hbytes]
      refine ⟨iff_of_false nofun fun h => hbytes (h.2 bytes hsees), nofun, fun e h => ?_⟩
      cases h
      exact .inl ⟨rfl, hsees.hasFile⟩

/-- A file of the user that is no text hides the default template, and then there is no answer. -/
theorem hasTemplate_fails_of_undecodable :
    let lib : Library := { user := some [['u']], default := some [['d']] }
    let tree := (FileTree.empty.write [['d'], ['t']] [97]).write [['u'], ['t']] [0xFF]
    let name : InnerName := ⟨['t'], by decide, by decide⟩
    lib.HasFile tree name ∧ ¬ ∃ answer, lib.hasTemplate tree name.text = .ok answer := by
  intro lib tree name
  have hsees : lib.Sees tree name (.ok (some [0xFF])) := .user rfl rfl nofun
  have hbytes : ¬ Library.Decodable [0xFF] := by
    rw [Library.decodable_iff]
    rintro ⟨t, ht⟩
    rw [decodeUtf8?_of_highest] at ht
    cases ht
  refine ⟨hsees.hasFile, ?_⟩
  rw [Library.hasTemplate_of_not_decodable hsees hbytes]
  exact nofun

end Stencil
