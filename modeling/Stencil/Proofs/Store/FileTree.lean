import Stencil.Store.FileTree

/-!
# Files and directories

What stands at the places of a tree after a file has been written or removed (`file?_write`,
`file?_remove`).  In a sound tree no place has both a file and a directory, and every file is in
directories all the way (`FileTree.Sound`); writing and removing keep it sound.

A name that does not lead out of a directory leads to the place below it that its parts spell
(`locate_eq`), and what is seen there is what the tree has at the place, unless the system refuses to
look (`look_eq_ok_iff`).
-/

namespace Stencil

namespace FileTree

variable {t : FileTree} {p q : TreePath} {bytes : List UInt8}

/-! ## Files -/

theorem lookup_filter_ne (files : List (TreePath × List UInt8)) (p q : TreePath) :
    (files.filter (·.1 != p)).lookup q = if q = p then none else files.lookup q := by
  induction files with
  | nil => split <;> rfl
  | cons file files ih =>
    obtain ⟨r, bytes⟩ := file
    by_cases hr : r = p
    · subst hr
      rw [List.filter_cons_of_neg (by simp), ih]
      split
      · rfl
      · rename_i hq
        rw [List.lookup_cons, beq_eq_false_iff_ne.mpr hq]
    · rw [List.filter_cons_of_pos (by simpa using hr), List.lookup_cons, List.lookup_cons, ih]
      by_cases hq : q = r
      · have hqp : q ≠ p := fun he => hr (hq.symm.trans he)
        rw [beq_iff_eq.mpr hq]
        exact (if_neg hqp).symm
      · rw [beq_eq_false_iff_ne.mpr hq]

/-- A file that is written is there, and the others are as they were. -/
theorem file?_write (h : t.allowsFile p = true) (bytes : List UInt8) (q : TreePath) :
    (t.write p bytes).file? q = if q = p then some bytes else t.file? q := by
  unfold write
  rw [if_pos h]
  show List.lookup q ((p, bytes) :: t.files.filter (·.1 != p)) = _
  rw [List.lookup_cons, lookup_filter_ne]
  by_cases hq : q = p
  · subst hq
    rw [beq_self_eq_true]
    exact (if_pos rfl).symm
  · rw [beq_eq_false_iff_ne.mpr hq, if_neg hq, if_neg hq]
    rfl

/-- Where no file can be, none is written. -/
theorem write_of_not_allowsFile (h : ¬ t.allowsFile p = true) (bytes : List UInt8) :
    t.write p bytes = t :=
  if_neg h

/-- What the files hold after one has been written, if it can be. -/
theorem file?_write_eq_ite (t : FileTree) (p : TreePath) (bytes : List UInt8) (q : TreePath) :
    (t.write p bytes).file? q
      = if q = p ∧ t.allowsFile p = true then some bytes else t.file? q := by
  by_cases h : t.allowsFile p = true
  · rw [file?_write h]
    simp only [h, and_true]
  · rw [write_of_not_allowsFile h, if_neg fun hq => h hq.2]

/-- A file that is removed is gone, and the others are as they were. -/
theorem file?_remove (t : FileTree) (p q : TreePath) :
    (t.remove p).file? q = if q = p then none else t.file? q :=
  lookup_filter_ne t.files p q

/-! ## Directories -/

theorem mem_stops : q ∈ stops p ↔ q ≠ [] ∧ q <+: p := by
  induction p generalizing q with
  | nil => simp [stops]
  | cons name p ih =>
    cases q with
    | nil => simp [stops]
    | cons other q =>
      rw [stops, List.mem_cons, List.mem_map, List.cons_prefix_cons]
      constructor
      · rintro (h | ⟨r, hr, h⟩)
        · cases h
          exact ⟨nofun, rfl, List.nil_prefix⟩
        · cases h
          exact ⟨nofun, rfl, (ih.mp hr).2⟩
      · rintro ⟨-, rfl, hq⟩
        by_cases hnil : q = []
        · exact .inl (by rw [hnil])
        · exact .inr ⟨q, ih.mpr ⟨hnil, hq⟩, rfl⟩

theorem hasDirectory_iff : t.hasDirectory p = true ↔ p = [] ∨ p ∈ t.directories := by
  unfold hasDirectory
  rw [Bool.or_eq_true, List.isEmpty_iff, List.contains_iff_mem]

/-- Making a directory makes all on the way to it, and nothing else. -/
theorem hasDirectory_makeDirectory :
    (t.makeDirectory p).hasDirectory q = true ↔ t.hasDirectory q = true ∨ q <+: p := by
  rw [hasDirectory_iff, hasDirectory_iff]
  show q = [] ∨ q ∈ t.directories ++ (stops p).filter (!t.directories.contains ·) ↔ _
  rw [List.mem_append, List.mem_filter, mem_stops]
  by_cases hnil : q = []
  · simp [hnil]
  · by_cases hq : q ∈ t.directories
    · simp [hnil, hq]
    · simp [hnil, hq]

/-- Where a file can be is no directory, no file is on the way to it, and the system takes the place
once it is in a directory. -/
theorem allowsFile_iff : t.allowsFile p = true ↔
    t.hasDirectory p = false ∧ (∀ q, q ≠ [] → q <+: p.dropLast → t.file? q = none) ∧
      (t.makeDirectory p.dropLast).refusal? p = none := by
  unfold allowsFile
  rw [Bool.and_eq_true, Bool.and_eq_true, List.all_eq_true, Bool.not_eq_true',
    Option.isNone_iff_eq_none, and_assoc]
  refine and_congr_right fun _ => and_congr_left fun _ => ?_
  constructor
  · intro h q hq hprefix
    exact Option.isNone_iff_eq_none.mp (h q (mem_stops.mpr ⟨hq, hprefix⟩))
  · intro h q hq
    obtain ⟨hne, hprefix⟩ := mem_stops.mp hq
    exact Option.isNone_iff_eq_none.mpr (h q hne hprefix)

theorem hasDirectory_write (h : t.allowsFile p = true) :
    (t.write p bytes).hasDirectory q = true ↔ t.hasDirectory q = true ∨ q <+: p.dropLast := by
  unfold write
  rw [if_pos h]
  exact hasDirectory_makeDirectory

/-- What leads to a place, and is not that place, leads to where it is. -/
theorem prefix_dropLast (h : q <+: p) (hne : q ≠ p) : q <+: p.dropLast := by
  obtain ⟨rest, rfl⟩ := h
  have hrest : rest ≠ [] := by
    rintro rfl
    exact hne (List.append_nil q).symm
  rw [List.dropLast_append_of_ne_nil hrest]
  exact List.prefix_append q _

/-! ## What is seen -/

/-- What is seen at a place is what is there, if the system does not refuse to look. -/
theorem look_eq_ok_iff {found : Option (List UInt8)} :
    t.look p = .ok found ↔ t.refusal? p = none ∧ t.file? p = found := by
  unfold look
  cases t.refusal? p with
  | none =>
    constructor
    · exact fun h => ⟨rfl, Except.ok.inj h⟩
    · exact fun h => congrArg _ h.2
  | some reason => exact ⟨nofun, nofun⟩

theorem look_eq_error_iff {reason : Text} :
    t.look p = .error reason ↔ t.refusal? p = some reason := by
  unfold look
  cases t.refusal? p with
  | none => exact ⟨nofun, nofun⟩
  | some other =>
    constructor
    · exact fun h => congrArg _ (Except.error.inj h)
    · exact fun h => congrArg _ (Option.some.inj h)

/-- A file that is written is seen. -/
theorem look_write (h : t.allowsFile p = true) (bytes : List UInt8) :
    (t.write p bytes).look p = .ok (some bytes) := by
  refine look_eq_ok_iff.mpr ⟨?_, (file?_write h bytes p).trans (if_pos rfl)⟩
  obtain ⟨-, -, htaken⟩ := allowsFile_iff.mp h
  unfold write
  rw [if_pos h]
  exact htaken

/-- Where a file was removed there is none to be seen, and the other places look the same. -/
theorem look_remove (t : FileTree) (p q : TreePath) :
    (t.remove p).look q = if q = p then (t.look p).map fun _ => none else t.look q := by
  have hrefusal : (t.remove p).refusal? q = t.refusal? q := rfl
  unfold look
  rw [hrefusal, file?_remove]
  by_cases hq : q = p
  · subst hq
    rw [if_pos rfl, if_pos rfl]
    cases t.refusal? q <;> rfl
  · rw [if_neg hq, if_neg hq]

/-! ## Sound trees -/

/-- No place has both a file and a directory, and a file is in directories all the way. -/
structure Sound (t : FileTree) : Prop where
  apart : ∀ p bytes, t.file? p = some bytes → t.hasDirectory p = false
  parents : ∀ p bytes, t.file? p = some bytes → ∀ q, q <+: p → q ≠ p → t.hasDirectory q = true

namespace Sound

theorem empty (refusals : List TreePath → TreePath → Option Text) :
    Sound { FileTree.empty with refusals := refusals } :=
  ⟨nofun, nofun⟩

/-- Where there is a directory there is no file. -/
theorem file?_of_directory (h : t.Sound) (hp : t.hasDirectory p = true) : t.file? p = none := by
  cases hfile : t.file? p with
  | none => rfl
  | some bytes =>
    rw [h.apart p bytes hfile] at hp
    cases hp

/-- Below a place that is neither a directory nor a file there is no file, nor at the place. -/
theorem file?_of_missing (h : t.Sound) (hdirectory : t.hasDirectory p = false)
    (hfile : t.file? p = none) (parts : TreePath) : t.file? (p ++ parts) = none := by
  cases hbelow : t.file? (p ++ parts) with
  | none => rfl
  | some bytes =>
    by_cases hparts : parts = []
    · rw [hparts, List.append_nil, hfile] at hbelow
      cases hbelow
    · have hne : p ≠ p ++ parts := fun he => hparts (List.self_eq_append_right.mp he)
      rw [h.parents _ bytes hbelow p (List.prefix_append p parts) hne] at hdirectory
      cases hdirectory

theorem remove (h : t.Sound) (p : TreePath) : (t.remove p).Sound := by
  have hfile {q : TreePath} {bytes : List UInt8} (hq : (t.remove p).file? q = some bytes) :
      t.file? q = some bytes := by
    rw [file?_remove] at hq
    split at hq
    · cases hq
    · exact hq
  exact ⟨fun q bytes hq => h.apart q bytes (hfile hq), fun q bytes hq => h.parents q bytes (hfile hq)⟩

theorem write (h : t.Sound) (p : TreePath) (bytes : List UInt8) : (t.write p bytes).Sound := by
  by_cases hallowed : t.allowsFile p = true
  · obtain ⟨hp, hway, -⟩ := allowsFile_iff.mp hallowed
    have hpne : p ≠ [] := by
      rintro rfl
      cases hp
    have hother {q : TreePath} {found : List UInt8} (hq : q ≠ p)
        (hfound : (t.write p bytes).file? q = some found) : t.file? q = some found := by
      rwa [file?_write hallowed, if_neg hq] at hfound
    constructor
    · intro q found hfound
      refine Bool.eq_false_iff.mpr fun hdirectory => ?_
      by_cases hq : q = p
      · subst hq
        rcases (hasDirectory_write hallowed).mp hdirectory with hold | hnew
        · rw [hp] at hold
          cases hold
        · -- nor is the file in a directory of its own name
          have hlength := hnew.length_le
          have hpos := List.length_pos_iff.mpr hpne
          rw [List.length_dropLast] at hlength
          omega
      · have hold := hother hq hfound
        rcases (hasDirectory_write hallowed).mp hdirectory with hdirectory | hnew
        · rw [h.apart q found hold] at hdirectory
          cases hdirectory
        · -- the directories made for the file would have to go through another file
          have hqne : q ≠ [] := by
            rintro rfl
            cases h.apart [] found hold
          rw [hway q hqne hnew] at hold
          cases hold
    · intro q found hfound r hprefix hne
      refine (hasDirectory_write hallowed).mpr ?_
      by_cases hq : q = p
      · subst hq
        exact .inr (prefix_dropLast hprefix hne)
      · exact .inl (h.parents q found (hother hq hfound) r hprefix hne)
  · rw [write_of_not_allowsFile hallowed]
    exact h

end Sound

end FileTree

/-! ## Names -/

/-- A name of a template that does not lead out of a directory. -/
structure InnerName where
  text : Text
  relative : text.head? ≠ some '/'
  inner : ['.', '.'] ∉ text.splitOn '/'

namespace InnerName

/-- The parts of a name that lead somewhere. -/
def parts (name : InnerName) : TreePath :=
  (name.text.splitOn '/').filter fun part => part ≠ [] ∧ part ≠ ['.']

/-- The place below a directory that a name leads to. -/
def place (name : InnerName) (directory : TreePath) : TreePath :=
  directory ++ name.parts

/-- A name leads to its place, whatever is there. -/
theorem locate_eq (name : InnerName) (t : FileTree) (directory : TreePath) :
    t.locate directory name.text = .ok (some (name.place directory)) := by
  have hfollow : ∀ (parts : List Text) (p : TreePath), ['.', '.'] ∉ parts →
      t.follow p parts
        = .ok (some (p ++ parts.filter fun part => part ≠ [] ∧ part ≠ ['.'])) := by
    intro parts
    induction parts with
    | nil =>
      intro p _
      rw [FileTree.follow, List.filter_nil, List.append_nil]
    | cons part parts ih =>
      intro p h
      obtain ⟨hpart, hparts⟩ := List.ne_and_not_mem_of_not_mem_cons h
      rw [FileTree.follow]
      by_cases hnowhere : part = [] ∨ part = ['.']
      · have hdrop : ¬ (part ≠ [] ∧ part ≠ ['.']) := fun h => hnowhere.elim h.1 h.2
        rw [if_pos hnowhere, List.filter_cons_of_neg (by simpa using hdrop)]
        exact ih p hparts
      · have hkeep : part ≠ [] ∧ part ≠ ['.'] := not_or.mp hnowhere
        rw [if_neg hnowhere, if_neg hpart.symm, List.filter_cons_of_pos (by simpa using hkeep),
          ih _ hparts, List.append_assoc, List.singleton_append]
  exact hfollow _ directory name.inner

/-- What is seen under a name is what is seen at its place. -/
theorem find_eq (name : InnerName) (t : FileTree) (directory : TreePath) :
    t.find directory name.text = t.look (name.place directory) := by
  unfold FileTree.find
  rw [name.locate_eq]
  rfl

end InnerName

end Stencil
