import Stencil.Text.Basic

/-!
# Escaping

A text is made safe to stand in a template by a backslash before each character of a mark
(`escape`), and read back (`unescape`).  Backslashes that already stand before a brace or a percent
sign are doubled, so that nothing is lost.
-/

namespace Stencil

/-- The pairs of characters that open or close markup. -/
def isMark : Char → Char → Bool
  | '{', '{' => true
  | '{', '%' => true
  | '}', '}' => true
  | '%', '}' => true
  | _, _ => false

/-- The characters of the marks. -/
def isMarkChar (c : Char) : Bool :=
  c == '{' || c == '}' || c == '%'

/-- Whether a run of backslashes, possibly of none, leads to a character of a mark. -/
def leadsToMarkChar (t : Text) : Bool :=
  (t.dropWhile (· == '\\')).head?.any isMarkChar

/-- Escapes a text that follows the character `previous`. -/
def escapeAfter (previous : Option Char) : Text → Text
  | [] => []
  | c :: t =>
    if previous.any (isMark · c) || t.head?.any (isMark c) then
      '\\' :: c :: escapeAfter (some c) t
    else if c == '\\' && leadsToMarkChar t then '\\' :: '\\' :: escapeAfter (some c) t
    else c :: escapeAfter (some c) t

/-- The text with a backslash before each character that takes part in a mark. -/
def escape (t : Text) : Text :=
  escapeAfter none t

/-- Reads back a text that follows `n` backslashes not yet written. -/
def unescapeAfter (n : Nat) : Text → Text
  | [] => List.replicate n '\\'
  | c :: t =>
    if c == '\\' then unescapeAfter (n + 1) t
    else if isMarkChar c then List.replicate (n / 2) '\\' ++ c :: unescapeAfter 0 t
    else List.replicate n '\\' ++ c :: unescapeAfter 0 t

/-- The text that `escape` was given.  Of a run of backslashes before a character of a mark half
are kept, rounded down. -/
def unescape (t : Text) : Text :=
  unescapeAfter 0 t

/-- Whether markup opens at the head of a text and closes later on. -/
def opensMarkup : Text → Bool
  | '{' :: '{' :: t => (Text.before? '}' '}' t).isSome
  | '{' :: '%' :: t => (Text.before? '%' '}' t).isSome
  | _ => false

/-- Whether a text holds markup anywhere. -/
def hasMarkup : Text → Bool
  | [] => false
  | c :: t => opensMarkup (c :: t) || hasMarkup t

end Stencil
