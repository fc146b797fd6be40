import Stencil.Text.Basic

/-!
# Files

Files hold texts in UTF-8, with any of the three usual line ends.

A tree has directories and files below one root.  A directory stays when its last file goes.  A name
leads from a directory to a place in the tree (`locate`): its parts are separated by slashes, empty
ones and single dots lead nowhere, and two dots lead out of a directory, which has to be there.

The system may refuse to look at a place: a part of a name may be too long for it, a file may be
closed to the reader, a disk may fail.  What it refuses is a parameter of the tree
(`FileTree.refusals`), and `FileTree.nameLimit` is one example.  Beyond that a tree knows no
permissions, and neither links nor times nor other programs at work in it.
-/

namespace Stencil

/-! ## What files hold -/

/-- The text that bytes encode in UTF-8, if they are well formed. -/
def decodeUtf8? (bytes : List UInt8) : Option Text :=
  (String.fromUTF8? ⟨bytes.toArray⟩).map String.toList

/-- The bytes of a text in UTF-8. -/
def encodeUtf8 (t : Text) : List UInt8 :=
  (String.ofList t).toUTF8.data.toList

/-- Writes every line end as a line feed. -/
def unifyLineEnds : Text → Text
  | '\r' :: '\n' :: t => '\n' :: unifyLineEnds t
  | '\r' :: t => '\n' :: unifyLineEnds t
  | c :: t => c :: unifyLineEnds t
  | [] => []

/-! ## Trees -/

/-- A place in a tree: the names on the way from the root. -/
abbrev TreePath := List Text

/-- Directories and files, and what the system says of them. -/
structure FileTree where
  /-- The directories, but for the root. -/
  directories : List TreePath
  files : List (TreePath × List UInt8)
  /-- Why the system refuses to look at a place, if it does, by the directories that there are. -/
  refusals : List TreePath → TreePath → Option Text := fun _ _ => none

namespace FileTree

def empty : FileTree := { directories := [], files := [] }

/-- Whether a place is a directory.  The root always is. -/
def hasDirectory (t : FileTree) (p : TreePath) : Bool :=
  p.isEmpty || t.directories.contains p

/-- What the file at a place holds. -/
def file? (t : FileTree) (p : TreePath) : Option (List UInt8) :=
  t.files.lookup p

/-- Why the system refuses to look at a place, if it does. -/
def refusal? (t : FileTree) (p : TreePath) : Option Text :=
  t.refusals t.directories p

/-- What is seen at a place: the bytes of a file, or no file. -/
def look (t : FileTree) (p : TreePath) : Except Text (Option (List UInt8)) :=
  match t.refusal? p with
  | some reason => .error reason
  | none => .ok (t.file? p)

/-! ## Changes -/

/-- The places on the way to a place, and that place. -/
def stops : TreePath → List TreePath
  | [] => []
  | name :: p => [name] :: (stops p).map (name :: ·)

/-- Makes a place a directory, and all on the way to it. -/
def makeDirectory (t : FileTree) (p : TreePath) : FileTree :=
  { t with directories := t.directories ++ (stops p).filter (!t.directories.contains ·) }

/-- Whether a file can be at a place: it is no directory, no file is in the way, and the system takes
the place once the directories are there. -/
def allowsFile (t : FileTree) (p : TreePath) : Bool :=
  !t.hasDirectory p && ((stops p.dropLast).all fun stop => (t.file? stop).isNone)
    && ((t.makeDirectory p.dropLast).refusal? p).isNone

/-- Writes a file, in directories made as needed.  Where no file can be, nothing happens. -/
def write (t : FileTree) (p : TreePath) (bytes : List UInt8) : FileTree :=
  if t.allowsFile p then
    { t.makeDirectory p.dropLast with files := (p, bytes) :: t.files.filter (·.1 != p) }
  else t

/-- Removes a file. -/
def remove (t : FileTree) (p : TreePath) : FileTree :=
  { t with files := t.files.filter (·.1 != p) }

/-! ## Names -/

/-- The place that the parts of a name lead to, if they lead anywhere; a file need not be there.
Whether there is a directory to be led out of is for the system to see. -/
def follow (t : FileTree) (p : TreePath) : List Text → Except Text (Option TreePath)
  | [] => .ok (some p)
  | part :: parts =>
    if part = [] ∨ part = ['.'] then t.follow p parts
    else if part = ['.', '.'] then
      if p ≠ [] ∧ t.hasDirectory p then t.follow p.dropLast parts
      else (t.look p).map fun _ => none
    else t.follow (p ++ [part]) parts

/-- The place that a name leads to from a directory. -/
def locate (t : FileTree) (directory : TreePath) (name : Text) : Except Text (Option TreePath) :=
  t.follow directory (name.splitOn '/')

/-- What is seen at the place that a name leads to from a directory. -/
def find (t : FileTree) (directory : TreePath) (name : Text) :
    Except Text (Option (List UInt8)) := do
  match ← t.locate directory name with
  | some p => t.look p
  | none => return none

/-- Whether the way down from a directory comes to a part of more than so many bytes.  It comes to a
part only in a directory that is there. -/
def comesToLongPart (limit : Nat) (directories : List TreePath) (above : TreePath) : TreePath → Bool
  | [] => false
  | part :: below =>
    (above.isEmpty || directories.contains above) &&
      (limit < (encodeUtf8 part).length
        || comesToLongPart limit directories (above ++ [part]) below)

/-- The refusals of a system that takes no part of a name with more than so many bytes. -/
def nameLimit (limit : Nat) (directories : List TreePath) (p : TreePath) : Option Text :=
  if comesToLongPart limit directories [] p then some "File name too long".toList else none

/-! ## Listings -/

/-- All places in the tree, written with slashes and in the order of the texts. -/
def listing (t : FileTree) : List Text :=
  ((t.directories ++ t.files.map Prod.fst).map ['/'].intercalate).mergeSort
    fun a b => !decide (b < a)

end FileTree

end Stencil
