import Stencil.Number.Written
import Stencil.Text.Quoted

/-!
# Notices

What a render has to say beside its output, by cause.  Each notice belongs to a part of the
renderer, has a level, and is worded by `Notice.message`.
-/

namespace Stencil

/-- How grave a notice is. -/
inductive Level where
  | debug
  | warning
  | error
  deriving DecidableEq

namespace Level

def name : Level → Text
  | debug => "DEBUG".toList
  | warning => "WARNING".toList
  | error => "ERROR".toList

end Level

inductive Notice where
  /-- A condition has none of the known forms. -/
  | unsupportedCondition (condition : Text)
  /-- The argument of a loop does not name an item and a path. -/
  | malformedHeader (argument : Text)
  /-- The path of a loop names no sequence. -/
  | notASequence (path : Text)
  | unknownFilter (name : Text)
  | substitutionLimit (limit : Nat)
  | nestingLimit (limit : Nat)
  /-- A failure has stopped the render. -/
  | renderingFailed
  deriving DecidableEq

namespace Notice

/-- The part of the renderer that a notice comes from. -/
def source : Notice → Text
  | unsupportedCondition _ => "conditionals".toList
  | malformedHeader _ => "loops".toList
  | notASequence _ => "loops".toList
  | unknownFilter _ => "filters".toList
  | substitutionLimit _ => "limits".toList
  | nestingLimit _ => "limits".toList
  | renderingFailed => "engine".toList

def level : Notice → Level
  | substitutionLimit _ => .warning
  | nestingLimit _ => .warning
  | renderingFailed => .error
  | _ => .debug

def message : Notice → Text
  | unsupportedCondition c =>
    "Unsupported condition ".toList ++ quoted c ++ " treated as false".toList
  | malformedHeader a => "Malformed for header ".toList ++ quoted a ++ " left as text".toList
  | notASequence p =>
    "Loop target ".toList ++ quoted p ++ " is not a sequence, rendering nothing".toList
  | unknownFilter n =>
    "Unknown filter ".toList ++ quoted n ++ ", passing value through".toList
  | substitutionLimit n =>
    "substitution limit (".toList ++ Nat.toDigits 10 n
      ++ ") reached, leaving the rest unrendered".toList
  | nestingLimit n =>
    "nesting limit (".toList ++ Nat.toDigits 10 n ++ ") reached, dropping deeper blocks".toList
  | renderingFailed => "Template rendering failed, returning template unchanged".toList

end Notice

end Stencil
