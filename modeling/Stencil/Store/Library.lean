import Stencil.Render.Pipeline
import Stencil.Store.FileTree

/-!
# Template libraries

A library finds templates by name in up to two directories: the user's own, and behind it the
default one.  The file tree is looked at anew each time and never changed.  Where the system refuses
to look at a place, that is the answer.
-/

namespace Stencil

/-- Where templates are looked for, and the limits that they are rendered under. -/
structure Library where
  user : Option TreePath := none
  default : Option TreePath := none
  limits : Limits := {}

/-- Why a template has no source. -/
inductive SourceError where
  /-- No file has the name. -/
  | notFound (name : Text)
  /-- The file does not hold well-formed UTF-8. -/
  | undecodable
  /-- The system refuses to look for the file, and says why. -/
  | refused (reason : Text)
  deriving DecidableEq

namespace Library

/-- What the file of a template holds: the user's file if there is one, or else the default.  The
search is over where the system refuses to look. -/
def file? (lib : Library) (tree : FileTree) (name : Text) : Except Text (Option (List UInt8)) :=
  (lib.user.toList ++ lib.default.toList).findSomeM? (tree.find · name)

/-- The source of a template. -/
def source (lib : Library) (tree : FileTree) (name : Text) : Except SourceError Text :=
  match lib.file? tree name with
  | .error reason => .error (.refused reason)
  | .ok none => .error (.notFound name)
  | .ok (some bytes) =>
    match decodeUtf8? bytes with
    | none => .error .undecodable
    | some t => .ok (unifyLineEnds t)

/-- Whether there is a template of a name.  That its source cannot be read, or not be looked for, is
still an error. -/
def hasTemplate (lib : Library) (tree : FileTree) (name : Text) : Except SourceError Bool :=
  match lib.source tree name with
  | .ok _ => .ok true
  | .error (.notFound _) => .ok false
  | .error e => .error e

/-- Renders a template that is given as text. -/
def renderText (lib : Library) (filters : Registry) (template : Text) (scope : Scope) : Rendered :=
  render filters lib.limits template scope

/-- Renders the template of a name. -/
def renderTemplate (lib : Library) (tree : FileTree) (filters : Registry) (name : Text)
    (scope : Scope) : Except SourceError Rendered := do
  return lib.renderText filters (← lib.source tree name) scope

end Library

end Stencil
