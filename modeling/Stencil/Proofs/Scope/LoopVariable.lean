import Stencil.Proofs.Markup.Written
import Stencil.Proofs.Number.Decimal
import Stencil.Proofs.Scope.Within

/-!
# What a loop variable denotes

In the turn of a loop that its item at index `i` is for, the variable of the loop stands for that item,
and so a path that begins with the variable goes where a path outside goes that begins with the path
of the loop and the index:

    inside     name . rest
    outside    path . i . rest

Both lead to the same value, or to none, or fail alike (`loop_variable_denotes_item`).  All other paths
mean inside what they mean outside.
-/

namespace Stencil

/-! ## Paths that go on -/

/-- A path, and what it goes on with if it does. -/
def Text.further (path : Text) : Option Text → Text
  | none => path
  | some rest => path ++ '.' :: rest

/-- The segments of what a path goes on with. -/
def segmentsBehind : Option Text → List Text
  | none => []
  | some rest => rest.stripEnd.splitOn '.'

theorem splitOn_append_dot (t u : Text) :
    (t ++ '.' :: u).splitOn '.' = t.splitOn '.' ++ u.splitOn '.' := by
  simp only [List.splitOn_eq_splitOnP]
  exact List.splitOnP_append_cons t u (by decide)

variable {path : Text}

theorem segments_further (h : path.stripEnd = path) (rest : Option Text) :
    (path.further rest).strip.splitOn '.' = path.strip.splitOn '.' ++ segmentsBehind rest := by
  cases rest with
  | none => exact (List.append_nil _).symm
  | some rest =>
    have hdot : isBlank '.' = false := by decide
    have hstart : Text.stripStart (path ++ '.' :: rest) = path.stripStart ++ '.' :: rest := by
      have hstop : List.dropWhile isBlank ('.' :: rest) = '.' :: rest :=
        List.dropWhile_cons_of_neg (by simp [hdot])
      unfold Text.stripStart
      rw [List.dropWhile_append, hstop]
      split
      · rename_i hnil
        rw [List.isEmpty_iff.mp hnil]
        rfl
      · rfl
    show (Text.stripEnd (Text.stripStart (path ++ '.' :: rest))).splitOn '.' = _
    rw [hstart, Text.stripEnd_append_cons _ hdot, splitOn_append_dot, Text.strip_eq_stripStart h]
    rfl

/-! ## Items -/

namespace Value

/-- Where a path leads to a value, what it goes on with is followed from there. -/
theorem follow_append {v w : Value} {front : List Text} (h : v.follow front = .ok (some w))
    (rest : List Text) : v.follow (front ++ rest) = w.follow rest := by
  induction front generalizing v with
  | nil =>
    cases h
    rfl
  | cons segment front ih =>
    obtain ⟨found, hpart, h⟩ := exists_of_bind_ok h
    cases found with
    | none => cases h
    | some part =>
      rw [List.cons_append, follow_of_part? hpart, ih h]

/-- An index in decimal leads to the item at that place. -/
theorem follow_index {kind : SequenceKind} {items : List Value} {i : Nat} (hi : i < items.length)
    (hshort : (Nat.toDigits 10 i).length ≤ maxDigits) (rest : List Text) :
    (Value.sequence kind items).follow (Nat.toDigits 10 i :: rest) = items[i].follow rest := by
  have hpart : (Value.sequence kind items).part? (Nat.toDigits 10 i) = .ok (some items[i]) := by
    unfold part?
    dsimp only
    rw [if_pos (isNumeral_toDigits i), if_pos hshort, numeralValue_toDigits,
      List.getElem?_eq_getElem hi]
  exact follow_of_part? hpart rest

end Value

theorem stripEnd_toDigits (i : Nat) : Text.stripEnd (Nat.toDigits 10 i) = Nat.toDigits 10 i := by
  refine Text.stripEnd_of_forall ?_
  intro c hc
  exact of_isDigit (p := fun c => isBlank c = false) (by decide +kernel) (isDigit_of_mem_toDigits hc)

namespace Scope

variable {scope : Scope} {name : Text}

/-- A name that has been bound names its value, and a path that goes on from there goes on in it. -/
theorem resolve_bind_further (hname : name.isWord = true) (v : Value) (rest : Option Text) :
    (scope.bind name v).resolve (name.further rest) = v.follow (segmentsBehind rest) := by
  have hpath := Text.isPath_of_isWord hname
  have hdot : '.' ∉ name := by
    intro hmem
    have hword : isWordChar '.' = false := by decide +kernel
    rw [(Text.isWord_iff.mp hname).2 '.' hmem] at hword
    cases hword
  have hend : name.stripEnd = name :=
    Text.stripEnd_of_forall fun c hc => isBlank_of_isPathChar ((Text.isPath_iff.mp hpath).2 c hc)
  have hsegments : (name.further rest).strip.splitOn '.' = name :: segmentsBehind rest := by
    rw [segments_further hend, Text.strip_of_isPath hpath, List.splitOn_eq_singleton hdot]
    rfl
  have hfound : (Value.mapping (scope.bind name v)).part? name = .ok (some v) := by
    unfold Value.part?
    dsimp only
    rw [find?_bind_self]
  unfold resolve
  rw [hsegments, follow_of_part? hfound]

theorem resolve_index_further {kind : SequenceKind} {items : List Value}
    (hend : path.stripEnd = path) (hpath : scope.resolve path = .ok (some (.sequence kind items)))
    {i : Nat} (hi : i < items.length) (hshort : (Nat.toDigits 10 i).length ≤ maxDigits)
    (rest : Option Text) :
    scope.resolve ((path.further (some (Nat.toDigits 10 i))).further rest)
      = items[i].follow (segmentsBehind rest) := by
  have hdigits : segmentsBehind (some (Nat.toDigits 10 i)) = [Nat.toDigits 10 i] := by
    show (Text.stripEnd (Nat.toDigits 10 i)).splitOn '.' = _
    rw [stripEnd_toDigits, List.splitOn_eq_singleton (not_mem_toDigits (by decide) i)]
  have hindex : (path.further (some (Nat.toDigits 10 i))).stripEnd
      = path.further (some (Nat.toDigits 10 i)) := by
    show Text.stripEnd (path ++ '.' :: Nat.toDigits 10 i) = _
    rw [Text.stripEnd_append_cons path (by decide), stripEnd_toDigits]
    rfl
  unfold resolve at hpath ⊢
  rw [segments_further hindex, segments_further hend, hdigits, List.append_assoc,
    Value.follow_append hpath]
  exact Value.follow_index hi hshort _

/-- Binding a name leaves the paths alone that do not begin with it. -/
theorem resolve_bind_of_ne (scope : Scope) (v : Value) (hpath : path.pathHead ≠ name) :
    (scope.bind name v).resolve path = scope.resolve path :=
  resolve_congr (find?_bind_of_ne v scope hpath)

end Scope

/-- **A loop variable denotes the item that its turn is for.**  What a path comes to that begins with
the variable is what the path of the loop comes to when it goes on with the index of the item, and
then in the same way.  (A sequence has no more items than an index can count, and a path ends with no
blank: at its end one would be trimmed away, further in it is a part of a segment.)  A path that
begins with another name comes to what it comes to outside, whatever the variable stands for. -/
theorem loop_variable_denotes_item (scope : Scope) {name : Text} (hname : name.isWord = true) :
    (∀ (path : Text) (kind : SequenceKind) (items : List Value), path.stripEnd = path →
      scope.resolve path = .ok (some (.sequence kind items)) →
      items.length < Nat.pow 10 maxDigits → ∀ (i : Nat) (hi : i < items.length)
        (rest : Option Text), (scope.bind name items[i]).resolve (name.further rest)
          = scope.resolve ((path.further (some (Nat.toDigits 10 i))).further rest)) ∧
    ∀ (v : Value) (path : Text), path.pathHead ≠ name →
      (scope.bind name v).resolve path = scope.resolve path := by
  refine ⟨?_, ?_⟩
  · intro path kind items hend hpath hcounted i hi rest
    have hshort : (Nat.toDigits 10 i).length ≤ maxDigits :=
      length_toDigits_le (by decide) (Nat.lt_trans hi hcounted)
    rw [Scope.resolve_bind_further hname,
      Scope.resolve_index_further hend hpath hi hshort]
  · intro v path hpath
    exact Scope.resolve_bind_of_ne scope v hpath

/-- The name of the loop is bound outside to something else, and the item has a part without a name. -/
theorem loop_variable_denotes_item_of_shadowed :
    let item : Value := .mapping [(.text [], .sequence .tuple [.int 7])]
    let scope : Scope := [(.text "n".toList, .text "outer".toList),
      (.text "rows".toList, .sequence .list [.null, item])]
    Text.isWord "n".toList = true ∧
      scope.resolve "rows".toList = .ok (some (.sequence .list [.null, item])) ∧
      (scope.bind "n".toList item).resolve "n..0".toList = .ok (some (.int 7)) ∧
      (scope.bind "n".toList item).resolve "rows.0".toList = .ok (some .null) := by
  intro item scope
  have hname : Text.isWord "n".toList = true := by decide +kernel
  have hpath : scope.resolve "rows".toList = .ok (some (.sequence .list [.null, item])) := rfl
  obtain ⟨hinside, houtside⟩ := loop_variable_denotes_item scope hname
  refine ⟨hname, hpath, ?_, ?_⟩
  · exact hinside "rows".toList .list [.null, item] (by decide) hpath (by decide +kernel) 1
      (by decide) (some ".0".toList)
  · exact houtside item "rows.0".toList (by decide)

/-! ## Loops in loops -/

/-- The first segment of a path, and the segments of what it goes on with. -/
theorem segments_eq_pathHead (path : Text) :
    ∃ rest, path.strip.splitOn '.' = path.pathHead :: segmentsBehind rest := by
  have hcut : path.strip = path.pathHead ++ path.strip.dropWhile (· != '.') :=
    List.takeWhile_append_dropWhile.symm
  have hdot : '.' ∉ path.pathHead := by
    intro hmem
    have := List.all_eq_true.mp List.all_takeWhile '.' hmem
    simp at this
  cases hrest : path.strip.dropWhile (· != '.') with
  | nil =>
    refine ⟨none, ?_⟩
    rw [hrest, List.append_nil] at hcut
    rw [hcut, List.splitOn_eq_singleton hdot]
    rfl
  | cons c rest =>
    have hc : c = '.' := by
      have := List.head?_dropWhile_not (· != '.') path.strip
      rw [hrest] at this
      simpa using this
    subst hc
    rw [hrest] at hcut
    have hend : Text.stripEnd rest = rest := by
      have htrimmed : path.strip.stripEnd = path.strip := Text.stripEnd_stripEnd _
      rw [hcut, Text.stripEnd_append_cons _ (by decide)] at htrimmed
      exact (List.cons.inj (List.append_cancel_left htrimmed)).2
    refine ⟨some rest, ?_⟩
    show _ = _ :: (Text.stripEnd rest).splitOn '.'
    rw [hcut, splitOn_append_dot, List.splitOn_eq_singleton hdot, hend]
    rfl

/-- **Loop variables can be done without.**  In the scope of any turn of loops in loops, what a path
comes to is what some path comes to in the data, if its sequences have no more items than an index
can count. -/
theorem Scope.Derived.exists_resolve_eq {scope inner : Scope}
    (hcounted : ∀ v : Value, v.Within (.mapping scope) → v.count < Nat.pow 10 maxDigits)
    (h : scope.Derived inner) (path : Text) : ∃ outer, inner.resolve path = scope.resolve outer := by
  induction h generalizing path with
  | refl => exact ⟨path, rfl⟩
  | @bind inner loop kind items item derived found mem name ih =>
    by_cases hhead : path.pathHead = name
    · -- the path begins with the variable, which gives way to the loop's path and the index
      obtain ⟨i, hi, rfl⟩ := List.getElem_of_mem mem
      have hshort : (Nat.toDigits 10 i).length ≤ maxDigits :=
        length_toDigits_le (by decide) (Nat.lt_trans hi (hcounted _ (derived.resolve_within found)))
      obtain ⟨rest, hrest⟩ := segments_eq_pathHead path
      obtain ⟨segments, hsegments, hresolve⟩ := Scope.resolve_eq path
      obtain rfl : segments = segmentsBehind rest := (List.cons.inj (hsegments.symm.trans hrest)).2
      have hinside : (inner.bind name items[i]).resolve path
          = items[i].follow (segmentsBehind rest) := by
        rw [hresolve, hhead, find?_bind_self]
      have hend : loop.strip.stripEnd = loop.strip := Text.stripEnd_stripEnd _
      have hloop : inner.resolve loop.strip = .ok (some (.sequence kind items)) := by
        rw [← found]
        unfold Scope.resolve
        rw [Text.strip_strip]
      obtain ⟨outer, houter⟩ := ih ((loop.strip.further (some (Nat.toDigits 10 i))).further rest)
      refine ⟨outer, ?_⟩
      rw [hinside, ← houter, resolve_index_further hend hloop hi hshort]
    · obtain ⟨outer, houter⟩ := ih path
      exact ⟨outer, (resolve_bind_of_ne inner item hhead).trans houter⟩

end Stencil
