import Stencil.Store.FileTree

/-!
# What bytes are read as

Bytes are read as a text if they are its UTF-8, and as no text otherwise
(`decodeUtf8?_eq_some_iff`).  Each of the three line ends is then written as a line feed, and the
lines between them stay as they are (`Text.lineFeedsOnly_iff`):

    line  \n  line  \r  line  \r\n  line      ↦      line  \n  line  \n  line  \n  line
-/

namespace Stencil

/-! ## Bytes -/

theorem encodeUtf8_eq (t : Text) : encodeUtf8 t = t.flatMap String.utf8EncodeChar := by
  unfold encodeUtf8
  rw [String.toUTF8_eq_toByteArray, String.toByteArray_ofList]
  exact List.toList_data_toByteArray

/-- Bytes are read as a text exactly if they are its encoding. -/
theorem decodeUtf8?_eq_some_iff {bytes : List UInt8} {t : Text} :
    decodeUtf8? bytes = some t ↔ t.flatMap String.utf8EncodeChar = bytes := by
  rw [← encodeUtf8_eq]
  unfold decodeUtf8? encodeUtf8 String.fromUTF8?
  rw [String.toUTF8_eq_toByteArray]
  constructor
  · intro h
    obtain ⟨s, hs, rfl⟩ := Option.map_eq_some_iff.mp h
    split at hs
    · cases hs
      rw [String.ofList_toList]
      rfl
    · cases hs
  · rintro rfl
    have hvalid : ByteArray.IsValidUTF8 ⟨(String.ofList t).toByteArray.data.toList.toArray⟩ :=
      (String.ofList t).isValidUTF8
    rw [dif_pos hvalid]
    exact congrArg some String.toList_ofList

/-! ## Line ends -/

namespace Text

/-- A text without line ends. -/
def OneLine (line : Text) : Prop :=
  ∀ c ∈ line, c ≠ '\n' ∧ c ≠ '\r'

/-- A text, and the same with a line feed for each line end.  A carriage return and the line feed
behind it are one line end. -/
inductive LineFeedsOnly : Text → Text → Prop where
  | last {line : Text} (h : line.OneLine) : LineFeedsOnly line line
  | lf {line t u : Text} (h : line.OneLine) (ht : LineFeedsOnly t u) :
    LineFeedsOnly (line ++ '\n' :: t) (line ++ '\n' :: u)
  | cr {line t u : Text} (h : line.OneLine) (hnext : t.head? ≠ some '\n') (ht : LineFeedsOnly t u) :
    LineFeedsOnly (line ++ '\r' :: t) (line ++ '\n' :: u)
  | crlf {line t u : Text} (h : line.OneLine) (ht : LineFeedsOnly t u) :
    LineFeedsOnly (line ++ '\r' :: '\n' :: t) (line ++ '\n' :: u)

theorem unifyLineEnds_of_ne {c : Char} (h : c ≠ '\r') (t : Text) :
    unifyLineEnds (c :: t) = c :: unifyLineEnds t :=
  unifyLineEnds.eq_3 c t (fun _ he _ => h he) h

theorem unifyLineEnds_cr {t : Text} (h : t.head? ≠ some '\n') :
    unifyLineEnds ('\r' :: t) = '\n' :: unifyLineEnds t :=
  unifyLineEnds.eq_2 t fun _ he => h (he ▸ rfl)

theorem unifyLineEnds_append {line : Text} (h : line.OneLine) (t : Text) :
    unifyLineEnds (line ++ t) = line ++ unifyLineEnds t := by
  induction line with
  | nil => rfl
  | cons c line ih =>
    obtain ⟨hc, hline⟩ := List.forall_mem_cons.mp h
    rw [List.cons_append, unifyLineEnds_of_ne hc.2, ih hline, List.cons_append]

theorem LineFeedsOnly.cons {c : Char} (hc : c ≠ '\n' ∧ c ≠ '\r') {t u : Text}
    (h : LineFeedsOnly t u) : LineFeedsOnly (c :: t) (c :: u) := by
  have hcons {line : Text} (hline : line.OneLine) : OneLine (c :: line) :=
    List.forall_mem_cons.mpr ⟨hc, hline⟩
  cases h with
  | last h => exact .last (hcons h)
  | lf h ht => exact .lf (hcons h) ht
  | cr h hnext ht => exact .cr (hcons h) hnext ht
  | crlf h ht => exact .crlf (hcons h) ht

/-- Writing every line end as a line feed changes no line. -/
theorem lineFeedsOnly_iff {t u : Text} : LineFeedsOnly t u ↔ u = unifyLineEnds t := by
  constructor
  · intro h
    induction h with
    | @last line h =>
      have := unifyLineEnds_append h []
      rw [List.append_nil] at this
      rw [this]
      exact (List.append_nil line).symm
    | lf h _ ih =>
      rw [unifyLineEnds_append h, ih]
      rfl
    | cr h hnext _ ih =>
      rw [unifyLineEnds_append h, unifyLineEnds_cr hnext, ih]
    | crlf h _ ih =>
      rw [unifyLineEnds_append h, ih]
      rfl
  · rintro rfl
    have hempty : OneLine [] := nofun
    fun_induction unifyLineEnds t with
    | case1 t ih => exact .crlf hempty ih
    | case2 t hnext ih =>
      refine .cr hempty (fun hhead => ?_) ih
      obtain ⟨u, rfl⟩ := List.head?_eq_some_iff.mp hhead
      exact hnext u rfl
    | case3 c t _ hcr ih =>
      by_cases hlf : c = '\n'
      · subst hlf
        exact .lf hempty ih
      · exact ih.cons ⟨hlf, hcr⟩
    | case4 => exact .last nofun

end Text

end Stencil
