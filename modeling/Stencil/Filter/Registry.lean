import Stencil.Filter.Basic
import Stencil.Text.Class
import Stencil.Text.Quoted

/-!
# The filter registry

Filters are known by name.  A name is a word, so that a template can name it; a filter that is
registered takes the place of the one that had its name.  The entries are kept in the order of
their names, which is that of the code points.
-/

namespace Stencil

/-- A name that is no word is refused. -/
structure InvalidName where
  name : Text
  deriving DecidableEq

def InvalidName.message (e : InvalidName) : Text :=
  "Invalid filter name ".toList ++ quoted e.name ++ ": must be a single word".toList

/-- The filters by name, in ascending order. -/
structure Registry where
  entries : List (Text × Filter)

namespace Registry

/-- Puts a filter in its place among entries in ascending order. -/
def insert (name : Text) (filter : Filter) : List (Text × Filter) → List (Text × Filter)
  | [] => [(name, filter)]
  | (n, f) :: es =>
    if name = n then (name, filter) :: es
    else if name < n then (name, filter) :: (n, f) :: es
    else (n, f) :: insert name filter es

/-- A filter put in takes the place of the one of its name, and no other. -/
theorem lookup_insert (name other : Text) (filter : Filter) (es : List (Text × Filter)) :
    (insert name filter es).lookup other =
      if other = name then some filter else es.lookup other := by
  have hcons (n : Text) (f : Filter) (l : List (Text × Filter)) :
      ((n, f) :: l).lookup other = if other = n then some f else l.lookup other := by
    rw [List.lookup_cons]
    by_cases h : other = n
    · rw [if_pos h, beq_iff_eq.2 h]
    · rw [if_neg h, beq_eq_false_iff_ne.2 h]
  induction es with
  | nil => rw [insert, hcons]
  | cons e es ih =>
    obtain ⟨n, f⟩ := e
    rw [insert]
    split
    · rename_i h
      subst h
      rw [hcons, hcons]
      split <;> rfl
    · split
      · rw [hcons]
      · rename_i hne _
        rw [hcons, hcons, ih]
        by_cases h : other = n
        · subst h
          rw [if_pos rfl, if_neg (Ne.symm hne), if_pos rfl]
        · rw [if_neg h, if_neg h]

/-- The filter of a name. -/
def find? (r : Registry) (name : Text) : Option Filter :=
  r.entries.lookup name

/-- The names in ascending order. -/
def names (r : Registry) : List Text :=
  r.entries.map Prod.fst

/-- Makes a filter known under a name. -/
def register (r : Registry) (name : Text) (filter : Filter) : Except InvalidName Registry :=
  if name.isWord then .ok ⟨insert name filter r.entries⟩ else .error ⟨name⟩

/-- The filters that are always there. -/
def standard : Registry :=
  ⟨Builtin.all.foldl (fun es b => insert b.name (.builtin b) es) []⟩

end Registry

end Stencil
