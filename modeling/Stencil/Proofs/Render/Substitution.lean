import Stencil.Proofs.Render.Invariant
import Stencil.Proofs.Render.Yield
import Stencil.Proofs.Text.Both
import Stencil.Proofs.Text.Chunk

/-!
# Substitution, chunk by chunk

On a text in chunks a substitution goes from chunk to chunk: it keeps a chunk that is no occurrence,
and puts new text in place of one that is (`substitute_found`).  So what it yields is put together
from what the chunks yield (`yields_rewrite_some`).
-/

namespace Stencil

open Render

namespace Chunk

variable {α : Type}

/-- The chunks with new text in place of the occurrences that are to have it. -/
def rewrite (f : α → Render (Option Text)) : List (Chunk α) → Render Text
  | [] => pure []
  | ⟨t, none⟩ :: cs => do return t ++ (← rewrite f cs)
  | ⟨t, some a⟩ :: cs => do
    let u ← f a
    return u.getD t ++ (← rewrite f cs)

/-- An edit that starts behind a text leaves it as it is. -/
theorem splice_cons_append (pos : Nat) (front t rest u : Text) (es : List Edit) :
    splice pos (⟨pos + front.length, pos + front.length + t.length, u⟩ :: es) (front ++ (t ++ rest))
      = front ++ (u ++ splice (pos + front.length + t.length) es rest) := by
  have h1 : pos + front.length - pos = front.length := by omega
  have h2 : pos + front.length + t.length - pos = (front ++ t).length := by
    rw [List.length_append]
    omega
  show (front ++ (t ++ rest)).take (pos + front.length - pos) ++ u
    ++ splice _ es ((front ++ (t ++ rest)).drop (pos + front.length + t.length - pos)) = _
  rw [h1, h2, List.take_left, ← List.append_assoc front t rest, List.drop_left, List.append_assoc]

/-- The same for chunks behind a text that no edit touches. -/
theorem splice_edits_found (f : α → Render (Option Text)) (cs : List (Chunk α)) (pos : Nat)
    (front : Text) :
    (do return splice pos (← edits f (found (pos + front.length) cs)) (front ++ join cs))
      = (do return front ++ (← rewrite f cs) : Render Text) := by
  induction cs generalizing pos front with
  | nil => rfl
  | cons c cs ih =>
    obtain ⟨t, item⟩ := c
    -- a chunk that is kept belongs to the front of the text behind it
    have hkept := ih pos (front ++ t)
    rw [List.length_append, ← Nat.add_assoc] at hkept
    cases item with
    | none =>
      simp only [found, rewrite, join_cons, bind_assoc, pure_bind]
      rw [← List.append_assoc, hkept]
      simp only [List.append_assoc]
    | some a =>
      simp only [found, rewrite, edits, join_cons, bind_assoc, pure_bind]
      congr 1
      funext u
      cases u with
      | none =>
        dsimp only
        rw [← List.append_assoc, hkept]
        simp only [Option.getD_none, List.append_assoc]
      | some u =>
        have hrest := ih (pos + front.length + t.length) []
        simp only [List.length_nil, Nat.add_zero, List.nil_append] at hrest
        simp only [bind_assoc, pure_bind, splice_cons_append, Option.getD_some]
        have := congrArg (· >>= fun v => (pure (front ++ (u ++ v)) : Render Text)) hrest
        simpa only [bind_assoc, pure_bind] using this

/-- A substitution goes from chunk to chunk. -/
theorem substitute_found (f : α → Render (Option Text)) (cs : List (Chunk α)) :
    substitute (found 0 cs) f (join cs) = rewrite f cs := by
  have := splice_edits_found f cs 0 []
  simp only [List.length_nil, Nat.add_zero, List.nil_append, bind_pure] at this
  exact this

theorem built_rewrite {room : Nat} {f : α → Render (Option Text)} (hf : ∀ a, Built room (f a))
    (cs : List (Chunk α)) : Built room (rewrite f cs) := by
  rw [← substitute_found]
  exact alike_substitute (fun o _ => hf o.item) _

/-- One text after the other. -/
theorem yields_both {room : Nat} {x y : Render Text} {r q : Option Text} (hax : Advances room x)
    (hay : Advances room y) (hx : Yields room x r) (hy : Yields room y q) :
    Yields room (do let t ← x; return t ++ (← y)) (both r q) :=
  yields_bind hax (fun _ => advances_bind hay fun _ => advances_pure room _) hx
    fun _ _ => yields_map hy

theorem yields_rewrite_none {room : Nat} {f : α → Render (Option Text)} {cs : List (Chunk α)}
    {q : Option Text} (hcs : Yields room (rewrite f cs) q) (t : Text) :
    Yields room (rewrite f (⟨t, none⟩ :: cs)) (both (some t) q) :=
  yields_map hcs

/-- A substitution yields what it yields on one chunk and on those that follow. -/
theorem yields_rewrite_some {room : Nat} {f : α → Render (Option Text)}
    (hf : ∀ a, Built room (f a)) {cs : List (Chunk α)} {q : Option Text}
    (hcs : Yields room (rewrite f cs) q) (t : Text) {a : α} {r : Option (Option Text)}
    (ha : Yields room (f a) r) :
    Yields room (rewrite f (⟨t, some a⟩ :: cs)) (both (r.map (·.getD t)) q) := by
  have hadv := (built_rewrite hf cs).advances
  have hstep : both (r.map (·.getD t)) q = r.bind fun u => q.map (u.getD t ++ ·) := by
    cases r <;> rfl
  rw [hstep]
  exact yields_bind (hf a).advances (fun u => advances_bind hadv fun v => advances_pure room _) ha
    fun u _ => yields_map hcs

end Chunk

end Stencil
