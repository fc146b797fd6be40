import Stencil.Proofs.Store.Encoded
import Stencil.Proofs.Store.FileTree
import Stencil.Store.Library

/-!
# Looking templates up while files come and go

A history writes and removes files and, in between, asks a library for templates.  Only the former
changes the tree, and each answer goes by the tree as it is then (`lookups_over_history`): the
user's file if there is one, or else the default, or else none.  So a file that the user writes hides
the default one at once, and shows it again when it is removed.

The tree stays sound through the history.  So what stands in the way of a file, a directory at its
place or none where it would have to be, is as good as no file.  That is so where the system takes the
name; a refusal is an answer of its own, which is not that there is no template
(`source_of_overlong_name`).
-/

namespace Stencil

/-! ## What a lookup finds -/

/-- What the bytes of a file are read as. -/
inductive ReadAs (bytes : List UInt8) : Except SourceError Text → Prop where
  | text {t u : Text} (h : t.flatMap String.utf8EncodeChar = bytes) (hu : t.LineFeedsOnly u) :
    ReadAs bytes (.ok u)
  | undecodable (h : ∀ t : Text, t.flatMap String.utf8EncodeChar ≠ bytes) :
    ReadAs bytes (.error .undecodable)

namespace Library

variable (lib : Library) (tree : FileTree) (name : InnerName)

/-- What is seen of a name: the file of the user, or the default one where the user has none, or
nothing where there is neither.  Where the system refuses to look, that is all there is to see. -/
inductive Sees : Except Text (Option (List UInt8)) → Prop where
  | user {directory : TreePath} {seen : Except Text (Option (List UInt8))}
      (layer : lib.user = some directory) (look : tree.look (name.place directory) = seen)
      (something : seen ≠ .ok none) : Sees seen
  | default {directory : TreePath} {seen : Except Text (Option (List UInt8))}
      (noUser : ∀ d, lib.user = some d → tree.look (name.place d) = .ok none)
      (layer : lib.default = some directory) (look : tree.look (name.place directory) = seen)
      (something : seen ≠ .ok none) : Sees seen
  | nothing (noUser : ∀ d, lib.user = some d → tree.look (name.place d) = .ok none)
      (noDefault : ∀ d, lib.default = some d → tree.look (name.place d) = .ok none) :
    Sees (.ok none)

/-- What a name is looked up as. -/
inductive LooksUp : Except SourceError Text → Prop where
  | found {bytes : List UInt8} {result : Except SourceError Text}
      (sees : lib.Sees tree name (.ok (some bytes))) (read : ReadAs bytes result) : LooksUp result
  | missing (sees : lib.Sees tree name (.ok none)) : LooksUp (.error (.notFound name.text))
  | refused {reason : Text} (sees : lib.Sees tree name (.error reason)) :
    LooksUp (.error (.refused reason))

end Library

theorem readAs_iff {bytes : List UInt8} {result : Except SourceError Text} :
    ReadAs bytes result ↔
      (match decodeUtf8? bytes with
        | none => .error .undecodable
        | some t => .ok (unifyLineEnds t)) = result := by
  constructor
  · intro h
    cases h with
    | text h hu =>
      rw [decodeUtf8?_eq_some_iff.mpr h, Text.lineFeedsOnly_iff.mp hu]
    | undecodable h =>
      have hnone : decodeUtf8? bytes = none :=
        Option.eq_none_iff_forall_ne_some.mpr fun t ht => h t (decodeUtf8?_eq_some_iff.mp ht)
      rw [hnone]
  · rintro rfl
    cases hdecode : decodeUtf8? bytes with
    | none =>
      refine .undecodable fun t ht => ?_
      rw [decodeUtf8?_eq_some_iff.mpr ht] at hdecode
      cases hdecode
    | some t => exact .text (decodeUtf8?_eq_some_iff.mp hdecode) (Text.lineFeedsOnly_iff.mpr rfl)

/-- The highest byte stands in no text. -/
theorem decodeUtf8?_of_highest : decodeUtf8? [0xFF] = none := by
  decide +kernel

/-- What is seen of a name in a directory, if that is given. -/
def InnerName.seenIn (name : InnerName) (tree : FileTree) :
    Option TreePath → Except Text (Option (List UInt8))
  | none => .ok none
  | some directory => tree.look (name.place directory)

theorem InnerName.seenIn_eq_none {name : InnerName} {tree : FileTree} {layer : Option TreePath} :
    name.seenIn tree layer = .ok none ↔
      ∀ d, layer = some d → tree.look (name.place d) = .ok none := by
  cases layer with
  | none => exact iff_of_true rfl nofun
  | some directory => exact ⟨fun h _ hd => Option.some.inj hd ▸ h, fun h => h directory rfl⟩

namespace Library

variable {lib : Library} {tree : FileTree} {name : InnerName}

/-- The directories are looked in as long as nothing is seen. -/
theorem findSomeM?_cons (tree : FileTree) (name : InnerName) (directory : TreePath)
    (rest : List TreePath) : (directory :: rest).findSomeM? (tree.find · name.text)
      = match tree.look (name.place directory) with
        | .ok none => rest.findSomeM? (tree.find · name.text)
        | seen => seen := by
  rw [List.findSomeM?, name.find_eq]
  cases tree.look (name.place directory) with
  | error reason => rfl
  | ok found => cases found <;> rfl

theorem file?_of_noUser (h : name.seenIn tree lib.user = .ok none) :
    lib.file? tree name.text = name.seenIn tree lib.default := by
  have hdefault : lib.default.toList.findSomeM? (tree.find · name.text)
      = name.seenIn tree lib.default := by
    cases lib.default with
    | none => rfl
    | some directory =>
      refine (findSomeM?_cons tree name directory []).trans ?_
      show _ = tree.look (name.place directory)
      cases tree.look (name.place directory) with
      | error reason => rfl
      | ok found => cases found <;> rfl
  unfold file?
  cases huser : lib.user with
  | none => exact hdefault
  | some directory =>
    rw [huser] at h
    refine (findSomeM?_cons tree name directory _).trans ?_
    rw [show tree.look (name.place directory) = .ok none from h]
    exact hdefault

theorem file?_of_user (h : name.seenIn tree lib.user ≠ .ok none) :
    lib.file? tree name.text = name.seenIn tree lib.user := by
  unfold file?
  cases huser : lib.user with
  | none =>
    rw [huser] at h
    exact absurd rfl h
  | some directory =>
    rw [huser] at h
    refine (findSomeM?_cons tree name directory _).trans ?_
    show _ = tree.look (name.place directory)
    split
    · exact absurd ‹_› h
    · rfl

/-- What is read is what is seen. -/
theorem sees_iff {seen : Except Text (Option (List UInt8))} :
    lib.Sees tree name seen ↔ lib.file? tree name.text = seen := by
  constructor
  · intro h
    cases h with
    | user layer look something =>
      have huser : name.seenIn tree lib.user = seen := by
        rw [layer]
        exact look
      rw [file?_of_user (huser ▸ something), huser]
    | default noUser layer look _ =>
      rw [file?_of_noUser (InnerName.seenIn_eq_none.mpr noUser), layer]
      exact look
    | nothing noUser noDefault =>
      rw [file?_of_noUser (InnerName.seenIn_eq_none.mpr noUser)]
      exact InnerName.seenIn_eq_none.mpr noDefault
  · rintro rfl
    by_cases huser : name.seenIn tree lib.user = .ok none
    · rw [file?_of_noUser huser]
      have noUser := InnerName.seenIn_eq_none.mp huser
      cases hlayer : lib.default with
      | none => exact .nothing noUser fun d hd => by cases hlayer.symm.trans hd
      | some directory =>
        by_cases hdefault : tree.look (name.place directory) = .ok none
        · show lib.Sees tree name (tree.look (name.place directory))
          rw [hdefault]
          exact .nothing noUser (InnerName.seenIn_eq_none.mp (hlayer ▸ hdefault))
        · exact .default noUser hlayer rfl hdefault
    · rw [file?_of_user huser]
      cases hlayer : lib.user with
      | none => exact absurd (hlayer ▸ rfl) huser
      | some directory => exact .user hlayer rfl (hlayer ▸ huser)

/-- What the source of a template is. -/
theorem looksUp_iff {result : Except SourceError Text} :
    lib.LooksUp tree name result ↔ lib.source tree name.text = result := by
  unfold source
  constructor
  · intro h
    cases h with
    | found sees read =>
      rw [sees_iff.mp sees]
      exact readAs_iff.mp read
    | missing sees => rw [sees_iff.mp sees]
    | refused sees => rw [sees_iff.mp sees]
  · rintro rfl
    cases hfile : lib.file? tree name.text with
    | error reason => exact .refused (sees_iff.mpr hfile)
    | ok found =>
      cases found with
      | none => exact .missing (sees_iff.mpr hfile)
      | some bytes => exact .found (sees_iff.mpr hfile) (readAs_iff.mpr rfl)

/-- A library without the directory of the user. -/
def onlyDefault (lib : Library) : Library :=
  { lib with user := none }

/-- A file that the user writes is what is found from then on. -/
theorem source_write_user {directory : TreePath} (hlayer : lib.user = some directory)
    (hallowed : tree.allowsFile (name.place directory) = true) {bytes : List UInt8}
    {result : Except SourceError Text} (hread : ReadAs bytes result) :
    lib.source (tree.write (name.place directory) bytes) name.text = result :=
  looksUp_iff.mp (.found (.user hlayer (FileTree.look_write hallowed bytes) nofun) hread)

/-- Without the file of the user the default one is found again, if the system takes the name. -/
theorem source_remove_user {directory : TreePath} (hlayer : lib.user = some directory)
    (happart : lib.default ≠ some directory)
    (htaken : tree.refusal? (name.place directory) = none) :
    lib.source (tree.remove (name.place directory)) name.text
      = lib.onlyDefault.source tree name.text := by
  have huser : name.seenIn (tree.remove (name.place directory)) lib.user = .ok none := by
    rw [hlayer, InnerName.seenIn, FileTree.look_remove, if_pos rfl, FileTree.look, htaken]
    rfl
  have hdefault : name.seenIn (tree.remove (name.place directory)) lib.default
      = name.seenIn tree lib.default := by
    cases hother : lib.default with
    | none => rfl
    | some other =>
      -- one name has two places in two directories, so the default file is still there
      have hplace : name.place other ≠ name.place directory := fun h =>
        happart (hother.trans (congrArg some (List.append_cancel_right h)))
      exact (FileTree.look_remove ..).trans (if_neg hplace)
  have hfile : lib.file? (tree.remove (name.place directory)) name.text
      = lib.onlyDefault.file? tree name.text := by
    have honly : name.seenIn tree lib.onlyDefault.user = .ok none := rfl
    rw [file?_of_noUser huser, hdefault, file?_of_noUser honly]
    rfl
  unfold source
  rw [hfile]

/-- Rendering fails just where looking the template up does, and for the same reason. -/
theorem renderTemplate_eq_error_iff {filters : Registry} {scope : Scope} {text : Text}
    {e : SourceError} :
    lib.renderTemplate tree filters text scope = .error e ↔ lib.source tree text = .error e := by
  unfold renderTemplate
  cases lib.source tree text with
  | error _ =>
    constructor
    · exact fun h => congrArg _ (Except.error.inj h)
    · exact fun h => congrArg _ (Except.error.inj h)
  | ok _ => exact ⟨nofun, nofun⟩

/-! ## Histories -/

/-- What a library is asked. -/
inductive Call where
  | source (name : Text)
  | hasTemplate (name : Text)
  | render (name : Text) (scope : Scope)
  | renderText (template : Text) (scope : Scope)

/-- What it answers. -/
inductive Answer where
  | source (result : Except SourceError Text)
  | hasTemplate (result : Except SourceError Bool)
  | render (result : Except SourceError Rendered)
  | renderText (result : Rendered)

/-- One step of a history. -/
inductive Step where
  | write (place : TreePath) (bytes : List UInt8)
  | remove (place : TreePath)
  | call (call : Call)

/-- Whether a step writes or removes a file. -/
def Step.edits : Step → Bool
  | .write .. | .remove .. => true
  | .call _ => false

/-- The answer to a call, the tree being as it is. -/
def answer (lib : Library) (filters : Registry) (tree : FileTree) : Call → Answer
  | .source name => .source (lib.source tree name)
  | .hasTemplate name => .hasTemplate (lib.hasTemplate tree name)
  | .render name scope => .render (lib.renderTemplate tree filters name scope)
  | .renderText template scope => .renderText (lib.renderText filters template scope)

/-- The tree after a history, and what was answered on the way. -/
def run (lib : Library) (filters : Registry) : FileTree → List Step → FileTree × List Answer
  | tree, [] => (tree, [])
  | tree, .write place bytes :: steps => lib.run filters (tree.write place bytes) steps
  | tree, .remove place :: steps => lib.run filters (tree.remove place) steps
  | tree, .call call :: steps =>
    let (after, answers) := lib.run filters tree steps
    (after, lib.answer filters tree call :: answers)

variable (filters : Registry)

/-- A history goes on from where its beginning has led. -/
theorem run_append (tree : FileTree) (before after : List Step) :
    lib.run filters tree (before ++ after)
      = ((lib.run filters (lib.run filters tree before).1 after).1,
        (lib.run filters tree before).2
          ++ (lib.run filters (lib.run filters tree before).1 after).2) := by
  induction before generalizing tree with
  | nil => rfl
  | cons step before ih =>
    cases step with
    | write place bytes => exact ih (tree.write place bytes)
    | remove place => exact ih (tree.remove place)
    | call call =>
      show ((lib.run filters tree (before ++ after)).1,
        lib.answer filters tree call :: (lib.run filters tree (before ++ after)).2) = _
      rw [ih tree]
      rfl

/-- The calls of a history leave no trace in the tree. -/
theorem run_filter_edits (tree : FileTree) (steps : List Step) :
    (lib.run filters tree (steps.filter Step.edits)).1 = (lib.run filters tree steps).1 := by
  induction steps generalizing tree with
  | nil => rfl
  | cons step steps ih =>
    cases step with
    | write place bytes => exact ih (tree.write place bytes)
    | remove place => exact ih (tree.remove place)
    | call call => exact ih tree

theorem run_sound (h : tree.Sound) (steps : List Step) :
    (lib.run filters tree steps).1.Sound := by
  induction steps generalizing tree with
  | nil => exact h
  | cons step steps ih =>
    cases step with
    | write place bytes => exact ih (h.write place bytes)
    | remove place => exact ih (h.remove place)
    | call call => exact ih h

/-- What holds of a name as the tree is at some time. -/
structure Current (lib : Library) (filters : Registry) (tree : FileTree) (name : InnerName) :
    Prop where
  /-- It is looked up in the tree as it is. -/
  source : ∀ result, lib.source tree name.text = result ↔ lib.LooksUp tree name result
  /-- A directory at its place is no file. -/
  directory : ∀ d, tree.hasDirectory (name.place d) = true →
    tree.refusal? (name.place d) = none → tree.look (name.place d) = .ok none
  /-- There is no file in a directory that is missing. -/
  missing : ∀ d, tree.hasDirectory d = false → tree.file? d = none →
    tree.refusal? (name.place d) = none → tree.look (name.place d) = .ok none
  /-- A file that the user writes is found at once. -/
  overrides : ∀ d bytes result, lib.user = some d → tree.allowsFile (name.place d) = true →
    ReadAs bytes result → lib.source (tree.write (name.place d) bytes) name.text = result
  /-- Once the user's file is removed, the default one is found, as if there were no user. -/
  uncovers : ∀ d, lib.user = some d → lib.default ≠ some d →
    tree.refusal? (name.place d) = none →
    lib.source (tree.remove (name.place d)) name.text = lib.onlyDefault.source tree name.text
  /-- Rendering fails just if looking it up does, and for the same reason. -/
  render : ∀ scope e, lib.renderTemplate tree filters name.text scope = .error e
    ↔ lib.source tree name.text = .error e

theorem current (h : tree.Sound) (name : InnerName) : lib.Current filters tree name where
  source _ := looksUp_iff.symm
  directory _ hdirectory htaken :=
    FileTree.look_eq_ok_iff.mpr ⟨htaken, h.file?_of_directory hdirectory⟩
  missing _ hdirectory hfile htaken :=
    FileTree.look_eq_ok_iff.mpr ⟨htaken, h.file?_of_missing hdirectory hfile name.parts⟩
  overrides _ _ _ hlayer hallowed hread := source_write_user hlayer hallowed hread
  uncovers _ := source_remove_user
  render _ _ := renderTemplate_eq_error_iff

end Library

/-- **Every lookup goes by the tree as it is.**  Calls leave no trace in it: a file holds what has
been written to it last, unless it has been removed since.  Each call is answered by the tree as it
is then, whatever has been asked before, and every name is looked up anew.  What the system refuses to
look at has no other answer than the refusal. -/
theorem lookups_over_history (lib : Library) (filters : Registry) {tree : FileTree}
    (htree : tree.Sound) (steps : List Library.Step) :
    let after := (lib.run filters tree steps).1
    (lib.run filters tree (steps.filter Library.Step.edits)).1 = after ∧
    (∀ p bytes q, (lib.run filters tree (steps ++ [.write p bytes])).1.file? q
      = if q = p ∧ after.allowsFile p = true then some bytes else after.file? q) ∧
    (∀ p q, (lib.run filters tree (steps ++ [.remove p])).1.file? q
      = if q = p then none else after.file? q) ∧
    (∀ before call later, steps = before ++ .call call :: later →
      (lib.run filters tree steps).2 = (lib.run filters tree before).2
        ++ lib.answer filters (lib.run filters tree before).1 call
          :: (lib.run filters (lib.run filters tree before).1 later).2) ∧
    ∀ name : InnerName, lib.Current filters after name := by
  have hsound : (lib.run filters tree steps).1.Sound := Library.run_sound filters htree steps
  refine ⟨Library.run_filter_edits filters tree steps, fun p bytes q => ?_, fun p q => ?_, ?_,
    Library.current filters hsound⟩
  · rw [Library.run_append]
    exact FileTree.file?_write_eq_ite _ p bytes q
  · rw [Library.run_append]
    exact FileTree.file?_remove _ p q
  · rintro before call later rfl
    rw [Library.run_append]
    rfl

/-- The user hides the default file by one of the same name, and removes it again. -/
theorem lookups_over_history_of_override :
    let lib : Library := { user := some [['u']], default := some [['d']] }
    let overriding : List Library.Step :=
      [.write [['d'], ['t']] [97, 13], .write [['u'], ['t']] [98], .call (.source ['t'])]
    let during := (lib.run .standard .empty overriding).1
    let after := (lib.run .standard .empty (overriding ++ [.remove [['u'], ['t']]])).1
    FileTree.empty.Sound ∧ lib.source during ['.', '/', 't'] = .ok ['b'] ∧
      lib.source after ['t', '/'] = .ok ['a', '\n'] := by
  intro lib overriding during after
  have hempty : FileTree.empty.Sound := .empty _
  refine ⟨hempty, ?_, ?_⟩
  · have h := (lookups_over_history lib .standard hempty overriding).2.2.2.2
      ⟨['.', '/', 't'], by decide, by decide⟩
    have hread : ReadAs [98] (.ok ['b']) :=
      .text (t := ['b']) rfl (Text.lineFeedsOnly_iff.mpr rfl)
    exact (h.source _).mpr (.found (.user rfl rfl nofun) hread)
  · have h := (lookups_over_history lib .standard hempty
      (overriding ++ [.remove [['u'], ['t']]])).2.2.2.2 ⟨['t', '/'], by decide, by decide⟩
    have hread : ReadAs [97, 13] (.ok ['a', '\n']) :=
      .text (t := ['a', '\r']) rfl (Text.lineFeedsOnly_iff.mpr rfl)
    have huser : ∀ d, lib.user = some d → after.look (d ++ [['t']]) = .ok none := by
      rintro _ ⟨⟩
      rfl
    exact (h.source _).mpr (.found (.default huser rfl rfl nofun) hread)

/-- Where no part of a name may have more than 255 bytes, a name of 256 is refused, though there is no
file of the name.  Nor is there a text of a file that is no UTF-8, and still it is there. -/
theorem source_of_overlong_name :
    let lib : Library := { user := some [['u']] }
    let empty : FileTree := { FileTree.empty with refusals := FileTree.nameLimit 255 }
    let tree := empty.write [['u'], ['t']] [0xFF]
    let name : InnerName := ⟨List.replicate 256 'a', by decide, by decide +kernel⟩
    tree.Sound ∧ tree.file? (name.place [['u']]) = none ∧
      lib.source tree name.text = .error (.refused "File name too long".toList) ∧
      lib.source tree ['t'] = .error .undecodable := by
  intro lib empty tree name
  have hrefused : tree.look (name.place [['u']]) = .error "File name too long".toList :=
    FileTree.look_eq_error_iff.mpr (by decide +kernel)
  have hread : ReadAs [0xFF] (.error .undecodable) :=
    readAs_iff.mpr (by rw [decodeUtf8?_of_highest])
  let other : InnerName := ⟨['t'], by decide, by decide⟩
  have hseen : tree.look (other.place [['u']]) = .ok (some [0xFF]) :=
    FileTree.look_eq_ok_iff.mpr ⟨by decide +kernel, by decide +kernel⟩
  refine ⟨(FileTree.Sound.empty _).write _ _, by decide +kernel, ?_, ?_⟩
  · exact Library.looksUp_iff.mp (.refused (.user rfl hrefused nofun))
  · have hsees : lib.Sees tree other (.ok (some [0xFF])) := .user rfl hseen nofun
    exact Library.looksUp_iff.mp (.found hsees hread)

end Stencil
