import Stencil.Text.Class
import Stencil.Text.Occurrence

/-!
# Tags and blocks

A tag stands between `{%` and the next `%}`: one of five keywords, and an argument.  Anything else
between such marks is plain text.

Opening and closing tags are paired by one walk over the tags of a template (`Nest.take`), with a
stack of the blocks that are open.  No arrangement of tags is an error: a closing tag that does
not fit the innermost open block is passed over, and a block that is never closed gives way to the
blocks completed inside it.
-/

namespace Stencil

/-! ## Tags -/

/-- The two kinds of block that tags enclose. -/
inductive BlockKind where
  | conditional
  | loop
  deriving DecidableEq

/-- What a tag does: it opens a block, closes one, or begins the other branch of a conditional. -/
inductive TagName where
  | start (kind : BlockKind)
  | otherwise
  | finish (kind : BlockKind)
  deriving DecidableEq

namespace TagName

def keyword : TagName → Text
  | start .conditional => "if".toList
  | start .loop => "for".toList
  | otherwise => "else".toList
  | finish .conditional => "endif".toList
  | finish .loop => "endfor".toList

/-- The names of tags. -/
def all : List TagName :=
  [start .conditional, otherwise, finish .conditional, start .loop, finish .loop]

/-- The tag with a keyword. -/
def ofKeyword? (word : Text) : Option TagName :=
  all.find? (·.keyword = word)

end TagName

structure Tag where
  name : TagName
  argument : Text

/-- The tag at the head of a text.  The keyword is a whole word, and the first closing mark after
it ends the tag. -/
def tagAt : Recogniser Tag
  | '{' :: '%' :: t => do
    let (word, t) ← Text.run? isWordChar (Text.stripStart t)
    let name ← TagName.ofKeyword? word
    let (argument, rest) ← Text.before? '%' '}' t
    return (⟨name, Text.strip argument⟩, rest)
  | _ => none

/-- The tags of a template, in order. -/
def tags (template : Text) : List (Occurrence Tag) :=
  occurrences tagAt template

/-! ## Blocks -/

/-- A block: its two tags, and the tag between them that begins the other branch. -/
structure Block where
  kind : BlockKind
  opener : Occurrence Tag
  closer : Occurrence Tag
  alternative : Option (Occurrence Tag)

namespace Block

/-- What the opening tag says behind its keyword. -/
def argument (b : Block) : Text := b.opener.item.argument

def start (b : Block) : Nat := b.opener.start
def bodyStart (b : Block) : Nat := b.opener.stop
def bodyStop (b : Block) : Nat := b.closer.start
def stop (b : Block) : Nat := b.closer.stop

/-- What the block encloses in its template: up to the other branch, and that branch. -/
def branches (template : Text) (b : Block) : Text × Text :=
  match b.alternative with
  | none => (Text.slice template b.bodyStart b.bodyStop, [])
  | some tag =>
    (Text.slice template b.bodyStart tag.start, Text.slice template tag.stop b.bodyStop)

/-- The block at its place in the template. -/
def occurrence (b : Block) : Occurrence Block :=
  ⟨b, b.start, b.stop⟩

end Block

/-- A block that is open: its first tag, the start of its other branch if it has come, and the
blocks completed directly inside. -/
structure OpenBlock where
  kind : BlockKind
  opener : Occurrence Tag
  alternative : Option (Occurrence Tag)
  inside : List Block

/-- The walk over the tags so far: the blocks completed outside all open ones, and the open ones,
innermost first. -/
structure Nest where
  completed : List Block
  opened : List OpenBlock

namespace Nest

/-- Adds completed blocks to the innermost open block, or to the outermost level. -/
def add (n : Nest) (blocks : List Block) : Nest :=
  match n.opened with
  | [] => { n with completed := n.completed ++ blocks }
  | o :: os => { n with opened := { o with inside := o.inside ++ blocks } :: os }

/-- Marks where the other branch begins, in a conditional that has none yet. -/
def branch (n : Nest) (tag : Occurrence Tag) : Nest :=
  match n.opened with
  | [] => n
  | o :: os =>
    if o.kind = .conditional ∧ o.alternative.isNone then
      { n with opened := { o with alternative := some tag } :: os }
    else n

/-- Closes the innermost open block if it is of the kind. -/
def close (n : Nest) (kind : BlockKind) (tag : Occurrence Tag) : Nest :=
  match n.opened with
  | [] => n
  | o :: os =>
    if o.kind = kind then { n with opened := os }.add [⟨kind, o.opener, tag, o.alternative⟩]
    else n

/-- The walk after one more tag. -/
def take (n : Nest) (tag : Occurrence Tag) : Nest :=
  match tag.item.name with
  | .start kind => { n with opened := ⟨kind, tag, none, []⟩ :: n.opened }
  | .otherwise => n.branch tag
  | .finish kind => n.close kind tag

/-- The completed blocks once the tags are over, with those inside blocks that stay open. -/
def finish (n : Nest) : List Block :=
  n.completed ++ n.opened.reverse.flatMap OpenBlock.inside

end Nest

/-- The outermost blocks of a template, in order. -/
def blocks (template : Text) : List Block :=
  ((tags template).foldl Nest.take ⟨[], []⟩).finish

end Stencil
