import Stencil.Proofs.Markup.Mention
import Stencil.Proofs.Template.Tree

/-!
# No brace out of nothing

Where no opening brace is in a scope, none comes into the text of a value (`brace_not_mem_display`),
nor out of a path (`Scope.noBrace_resolve`) or a filter (`Builtin.noBrace_apply`).  So what is
put into a template opens no markup.
-/

namespace Stencil

/-! ## Numbers -/

theorem brace_not_mem_toDigits (b n : Nat) : '{' ∉ Nat.toDigits b n := by
  have hdigit : ∀ k, Nat.digitChar k ≠ '{' := by
    intro k
    rcases Nat.lt_or_ge k 16 with hk | hk
    · exact (by decide : ∀ k < 16, Nat.digitChar k ≠ '{') k hk
    · obtain ⟨m, rfl⟩ := Nat.exists_eq_add_of_le' hk
      simp [Nat.digitChar]
  have hcore : ∀ (fuel n : Nat) (ds : List Char), '{' ∉ ds → '{' ∉ Nat.toDigitsCore b fuel n ds := by
    intro fuel
    induction fuel with
    | zero => exact fun _ _ h => h
    | succ fuel ih =>
      intro n ds hds
      have hcons : '{' ∉ Nat.digitChar (n % b) :: ds := by
        intro hmem
        rcases List.mem_cons.mp hmem with h | h
        · exact hdigit _ h.symm
        · exact hds h
      unfold Nat.toDigitsCore
      dsimp only
      split
      · exact hcons
      · exact ih _ _ hcons
  exact hcore _ _ _ (by simp)

theorem brace_not_mem_integerText (n : Int) : '{' ∉ integerText n := by
  unfold integerText
  have := brace_not_mem_toDigits 10 n.natAbs
  split <;> simp [this]

theorem shortestDigits_eq_ofScaled (x : Binary) :
    ∃ d e, x.shortestDigits = Decimal.ofScaled d e := by
  unfold Binary.shortestDigits
  dsimp only
  cases h : (List.range 17).findSome? fun n =>
      (x.onGrid? (x.magnitude - (n + 1 : Nat))).map fun d =>
        Decimal.ofScaled d (x.magnitude - (n + 1 : Nat)) with
  | none => exact ⟨_, _, rfl⟩
  | some d =>
    obtain ⟨n, -, hn⟩ := List.exists_of_findSome?_eq_some h
    obtain ⟨m, -, rfl⟩ := Option.map_eq_some_iff.mp hn
    exact ⟨_, _, rfl⟩

theorem brace_not_mem_digits (x : Binary) : '{' ∉ x.shortestDigits.digits := by
  obtain ⟨d, e, h⟩ := shortestDigits_eq_ofScaled x
  rw [h]
  intro hmem
  have := List.dropWhile_suffix (· == '0') (l := (Nat.toDigits 10 d).reverse)
  exact brace_not_mem_toDigits 10 d
    (List.mem_reverse.mp (this.subset (List.mem_reverse.mp hmem)))

theorem brace_not_mem_decimal {d : Decimal} (h : '{' ∉ d.digits) : '{' ∉ d.written := by
  have htake (n : Nat) : '{' ∉ d.digits.take n := fun hm => h (List.mem_of_mem_take hm)
  have hdrop (n : Nat) : '{' ∉ d.digits.drop n := fun hm => h (List.mem_of_mem_drop hm)
  have hexp := brace_not_mem_toDigits 10 (d.point - 1).natAbs
  unfold Decimal.written
  split
  · unfold Decimal.positional
    split
    · simp [h, List.mem_replicate]
    · dsimp only
      simp only [List.rightpad, List.mem_append, List.mem_cons, List.mem_replicate, htake]
      split <;> simp [hdrop]
  · unfold Decimal.scientific
    simp only [List.leftpad, List.mem_append, List.mem_cons, List.mem_replicate, htake, hexp]
    have hone := hdrop 1
    split <;> split <;> simp_all

theorem brace_not_mem_floatText (x : Float) : '{' ∉ floatText x := by
  have hdecimal (bits : UInt64) : '{' ∉ (Binary.ofBits bits).shortestDigits.written :=
    brace_not_mem_decimal (brace_not_mem_digits _)
  unfold floatText
  split
  · decide
  · dsimp only
    split <;> split
    · decide
    · split
      · decide
      · exact hdecimal _
    · decide
    · split
      · decide
      · intro hmem
        rcases List.mem_cons.mp hmem with h | h
        · cases h
        · exact hdecimal _ h

/-! ## Bytes -/

theorem brace_not_mem_hexDigits (width n : Nat) : '{' ∉ hexDigits width n := by
  have := brace_not_mem_toDigits 16 n
  unfold hexDigits List.leftpad
  simp [List.mem_replicate, this]

theorem brace_not_mem_quotedChar (quote : Char) {c : Char} (hc : c ≠ '{') :
    '{' ∉ quotedChar quote c := by
  have hhex (width : Nat) := brace_not_mem_hexDigits width c.toNat
  have hc := hc.symm
  unfold quotedChar
  repeat' split
  all_goals simp_all

theorem brace_not_mem_quotedBytes {bytes : List UInt8} (h : 0x7B ∉ bytes) :
    '{' ∉ quotedBytes bytes := by
  have hquote (t : Text) : '{' ≠ quoteFor t := by
    unfold quoteFor
    split <;> decide
  have hbyte : ∀ b ∈ bytes, ∀ quote, '{' ∉ quotedByte quote b := by
    intro b hb quote
    unfold quotedByte
    split
    · rename_i hlt
      refine brace_not_mem_quotedChar quote fun hc => h ?_
      have hcode : b = 0x7B := UInt8.toNat_inj.mp
        ((by decide : ∀ n < 0x80, Char.ofNat n = '{' → n = 0x7B) b.toNat hlt hc)
      rwa [← hcode]
    · simp [brace_not_mem_hexDigits]
  unfold quotedBytes
  dsimp only
  intro hmem
  rcases List.mem_cons.mp hmem with h | hmem
  · cases h
  rcases List.mem_cons.mp hmem with h | hmem
  · exact hquote _ h
  rcases List.mem_append.mp hmem with hmem | hmem
  · obtain ⟨b, hb, hmem⟩ := List.mem_flatMap.mp hmem
    exact hbyte b hb _ hmem
  · exact hquote _ (List.mem_singleton.mp hmem)

/-! ## Display -/

theorem mem_intercalate {c : Char} {separator : Text} {ts : List Text}
    (h : c ∈ separator.intercalate ts) : c ∈ separator ∨ ∃ t ∈ ts, c ∈ t := by
  induction ts with
  | nil => cases h
  | cons t ts ih =>
    cases ts with
    | nil =>
      rw [List.intercalate_singleton] at h
      exact .inr ⟨t, List.mem_cons_self, h⟩
    | cons u us =>
      rw [List.intercalate_cons_cons, List.append_assoc] at h
      rcases List.mem_append.mp h with h | h
      · exact .inr ⟨t, List.mem_cons_self, h⟩
      rcases List.mem_append.mp h with h | h
      · exact .inl h
      rcases ih h with h | ⟨v, hv, h⟩
      · exact .inl h
      · exact .inr ⟨v, List.mem_cons_of_mem _ hv, h⟩

theorem brace_not_mem_intercalate {separator : Text} {ts : List Text} (hs : '{' ∉ separator)
    (ht : ∀ t ∈ ts, '{' ∉ t) : '{' ∉ separator.intercalate ts := by
  intro h
  rcases mem_intercalate h with h | ⟨t, hmem, h⟩
  · exact hs h
  · exact ht t hmem h

theorem brace_not_mem_displayInteger {n : Int} {t : Text} (h : displayInteger n = .ok t) :
    '{' ∉ t := by
  unfold displayInteger at h
  split at h
  · cases h
    exact brace_not_mem_integerText n
  · cases h

theorem brace_not_mem_keyDisplay {k : Key} {t : Text} (hk : k.NoBrace)
    (h : k.display = .ok t) : '{' ∉ t := by
  cases k with
  | text u => cases h; exact hk
  | int n => exact brace_not_mem_displayInteger h
  | float x => cases h; exact brace_not_mem_floatText x
  | bool b => cases h; cases b <;> decide
  | null => cases h; decide

theorem exists_of_bind_ok {α β : Type} {x : Except Failure α} {f : α → Except Failure β} {b : β}
    (h : x >>= f = .ok b) : ∃ a, x = .ok a ∧ f a = .ok b := by
  cases x with
  | error e => cases h
  | ok a => exact ⟨a, rfl, h⟩

mutual

theorem brace_not_mem_display : ∀ (v : Value), v.NoBrace → ∀ t, v.display = .ok t → '{' ∉ t
  | .null, _, t, ht => by cases ht; decide
  | .bool b, _, t, ht => by cases ht; cases b <;> decide
  | .int _, _, _, ht => brace_not_mem_displayInteger ht
  | .float x, _, t, ht => by cases ht; exact brace_not_mem_floatText x
  | .text _, h, t, ht => by cases ht; exact h
  | .bytes _, h, t, ht => by cases ht; exact brace_not_mem_quotedBytes h
  | .sequence _ items, h, t, ht => by
    obtain ⟨ts, hts, he⟩ := exists_of_bind_ok ht
    cases he
    exact brace_not_mem_intercalate (by decide) (brace_not_mem_displayItems items h ts hts)
  | .mapping entries, h, t, ht => by
    obtain ⟨ts, hts, he⟩ := exists_of_bind_ok ht
    cases he
    exact brace_not_mem_intercalate (by decide) (brace_not_mem_displayEntries entries h ts hts)
  | .broken _, _, t, ht => by cases ht

theorem brace_not_mem_displayItems : ∀ (vs : List Value), Value.AllNoBrace vs →
    ∀ ts, Value.displayItems vs = .ok ts → ∀ t ∈ ts, '{' ∉ t
  | [], _, ts, hts => by cases hts; exact fun _ h => by cases h
  | v :: vs, h, ts, hts => by
    obtain ⟨t, ht, hrest⟩ := exists_of_bind_ok hts
    obtain ⟨us, hus, he⟩ := exists_of_bind_ok hrest
    cases he
    intro u hu
    rcases List.mem_cons.mp hu with rfl | hu
    · exact brace_not_mem_display v h.1 u ht
    · exact brace_not_mem_displayItems vs h.2 us hus u hu

theorem brace_not_mem_displayEntries : ∀ (es : List (Key × Value)), Value.EntriesNoBrace es →
    ∀ ts, Value.displayEntries es = .ok ts → ∀ t ∈ ts, '{' ∉ t
  | [], _, ts, hts => by cases hts; exact fun _ h => by cases h
  | (k, v) :: es, h, ts, hts => by
    obtain ⟨name, hname, hrest⟩ := exists_of_bind_ok hts
    obtain ⟨t, ht, hrest⟩ := exists_of_bind_ok hrest
    obtain ⟨us, hus, he⟩ := exists_of_bind_ok hrest
    cases he
    intro u hu
    rcases List.mem_cons.mp hu with rfl | hu
    · have h1 := brace_not_mem_keyDisplay h.1 hname
      have h2 := brace_not_mem_display v h.2.1 t ht
      simp [h1, h2]
    · exact brace_not_mem_displayEntries es h.2.2 us hus u hu

end

/-! ## Scopes -/

theorem entriesNoBrace_iff {entries : List (Key × Value)} :
    Value.EntriesNoBrace entries ↔ ∀ e ∈ entries, e.1.NoBrace ∧ e.2.NoBrace := by
  induction entries with
  | nil => exact ⟨fun _ => List.forall_mem_nil _, fun _ => trivial⟩
  | cons e es ih =>
    rw [List.forall_mem_cons, ← ih]
    exact and_assoc.symm

theorem noBrace_find? {name : Text} {entries : List (Key × Value)} {v : Value}
    (h : Value.EntriesNoBrace entries) (hv : Scope.find? name entries = some v) : v.NoBrace := by
  obtain ⟨k, hk⟩ := Scope.exists_mem_of_find? hv
  exact (entriesNoBrace_iff.mp h _ hk).2

theorem noBrace_of_mem {items : List Value} (h : Value.AllNoBrace items) {v : Value}
    (hv : v ∈ items) : v.NoBrace := by
  induction items with
  | nil => cases hv
  | cons u us ih =>
    rcases List.mem_cons.mp hv with rfl | hv
    · exact h.1
    · exact ih h.2 hv

theorem noBrace_part? {segment : Text} {value part : Value} (h : value.NoBrace)
    (hp : value.part? segment = .ok (some part)) : part.NoBrace := by
  cases value with
  | mapping entries => exact noBrace_find? h (Except.ok.inj hp)
  | sequence kind items =>
    unfold Value.part? at hp
    dsimp only at hp
    split at hp
    · split at hp
      · exact noBrace_of_mem h (List.mem_of_getElem? (Except.ok.inj hp))
      · cases hp
    · cases hp
  | _ => cases hp

theorem noBrace_follow {path : List Text} {value part : Value} (h : value.NoBrace)
    (hp : value.follow path = .ok (some part)) : part.NoBrace := by
  induction path generalizing value with
  | nil => cases hp; exact h
  | cons segment path ih =>
    obtain ⟨found, hfound, hrest⟩ := exists_of_bind_ok hp
    cases found with
    | none => cases hrest
    | some v => exact ih (noBrace_part? h hfound) hrest

theorem Scope.noBrace_resolve {scope : Scope} {path : Text} {v : Value}
    (h : Value.EntriesNoBrace scope) (hv : scope.resolve path = .ok (some v)) : v.NoBrace :=
  noBrace_follow (show (Value.mapping scope).NoBrace from h) hv

theorem Scope.noBrace_bind {scope : Scope} {name : Text} {v : Value}
    (h : Value.EntriesNoBrace scope) (hn : '{' ∉ name) (hv : v.NoBrace) :
    Value.EntriesNoBrace (scope.bind name v) := by
  refine entriesNoBrace_iff.mpr fun e he => ?_
  rcases mem_of_mem_bind he with rfl | he
  · exact ⟨hn, hv⟩
  · exact entriesNoBrace_iff.mp h e he

/-! ## Letter case -/

theorem eq_of_ofNat_eq_brace {n : Nat} (h : Char.ofNat n = '{') : n = 0x7B := by
  unfold Char.ofNat at h
  by_cases hn : n.isValidChar
  · rw [dif_pos hn] at h
    exact congrArg Char.toNat h
  · rw [dif_neg hn] at h
    cases h

/-- No code point is moved to the brace by a run. -/
def CaseRun.AvoidsBrace (r : CaseRun) : Prop :=
  (r.last : Int) + r.shift < 0x7B ∨ 0x7B < (r.first : Int) + r.shift

instance (r : CaseRun) : Decidable r.AvoidsBrace :=
  inferInstanceAs (Decidable (_ ∨ _))

theorem shiftBy_ne_brace {runs : List CaseRun} (h : ∀ r ∈ runs, r.AvoidsBrace) {c : Char}
    (hc : c ≠ '{') : shiftBy c runs ≠ '{' := by
  induction runs with
  | nil => exact hc
  | cons r runs ih =>
    unfold shiftBy
    split
    · exact hc
    · split
      · intro he
        have hcode := eq_of_ofNat_eq_brace he
        have hr := h r List.mem_cons_self
        unfold CaseRun.AvoidsBrace at hr
        omega
      · exact ih fun r hr => h r (List.mem_cons_of_mem _ hr)

theorem brace_not_mem_upperChar {c : Char} (hc : c ≠ '{') : '{' ∉ upperChar c := by
  have hruns : ∀ r ∈ upperRuns, r.AvoidsBrace := by decide +kernel
  have hexpansions : ∀ e ∈ upperExpansions, 0x7B ∉ e.2 := by decide +kernel
  unfold upperChar
  split
  · rename_i n codes hfind
    intro hmem
    obtain ⟨k, hk, he⟩ := List.mem_map.mp hmem
    have := eq_of_ofNat_eq_brace he
    subst this
    exact hexpansions _ (List.mem_of_find?_eq_some hfind) hk
  · intro hmem
    exact shiftBy_ne_brace hruns hc (List.mem_singleton.mp hmem).symm

theorem brace_not_mem_lowerChar {c : Char} (hc : c ≠ '{') : '{' ∉ lowerChar c := by
  have hruns : ∀ r ∈ lowerRuns, r.AvoidsBrace := by decide +kernel
  unfold lowerChar
  split
  · decide
  · intro hmem
    exact shiftBy_ne_brace hruns hc (List.mem_singleton.mp hmem).symm

theorem brace_not_mem_upper {t : Text} (h : '{' ∉ t) : '{' ∉ t.upper := by
  intro hmem
  obtain ⟨c, hc, hmem⟩ := List.mem_flatMap.mp hmem
  exact brace_not_mem_upperChar (fun he => h (he ▸ hc)) hmem

theorem brace_not_mem_lower {t : Text} (h : '{' ∉ t) : '{' ∉ t.lower := by
  have hafter (cased : Bool) : '{' ∉ Text.lowerAfter cased t := by
    induction t generalizing cased with
    | nil => exact List.not_mem_nil
    | cons c t ih =>
      have hc : c ≠ '{' := fun he => h (he ▸ List.mem_cons_self)
      have hrest := ih fun hmem => h (List.mem_cons_of_mem _ hmem)
      have hlow := brace_not_mem_lowerChar hc
      unfold Text.lowerAfter
      dsimp only
      intro hmem
      rcases List.mem_append.mp hmem with hmem | hmem
      · split at hmem
        · split at hmem <;> exact absurd hmem (by decide)
        · exact hlow hmem
      · exact hrest _ hmem
  exact hafter false

theorem brace_not_mem_capitalize {t : Text} (h : '{' ∉ t) : '{' ∉ t.capitalize := by
  intro hmem
  rcases List.mem_append.mp hmem with hmem | hmem
  · exact brace_not_mem_upper (fun hm => h (List.mem_of_mem_take hm)) hmem
  · exact brace_not_mem_lower (fun hm => h (List.mem_of_mem_drop hm)) hmem

/-! ## Filters -/

theorem quotedArgument?_isPrefix {t a rest : Text} (h : quotedArgument? t = some (a, rest)) :
    a <+: t := by
  unfold quotedArgument? at h
  split at h
  · rename_i q t
    split at h
    · split at h
      · rename_i d u hdrop
        obtain ⟨_, -, he⟩ := Option.map_eq_some_iff.mp h
        cases he
        have hd : d = q := by
          have := List.head?_dropWhile_not (· != q) t
          simpa [hdrop] using this
        have ht := List.takeWhile_append_dropWhile (p := (· != q)) (l := t)
        rw [hdrop, hd] at ht
        exact ⟨u, by simp [ht]⟩
      · cases h
    · cases h
  · cases h

theorem argument_isInfix (t : Text) : ∀ o ∈ occurrences argumentAt t, o.item <:+: t := by
  refine occurrences_isInfix id (fun u a rest h => ?_) t
  show a <:+: u
  unfold argumentAt at h
  split at h
  · split at h
    · cases h
    · cases h
      exact List.nil_infix
  · split at h
    · cases h
    · cases h
      exact List.nil_infix
  · have hbody : u.stripStart <:+: u := (Text.stripStart_isSuffix u).isInfix
    refine List.IsInfix.trans ?_ hbody
    cases hq : quotedArgument? u.stripStart with
    | none =>
      rw [hq] at h
      cases h
      exact (Text.stripEnd_isPrefix _).isInfix.trans (List.takeWhile_prefix _).isInfix
    | some found =>
      obtain ⟨b, v⟩ := found
      rw [hq] at h
      cases h
      exact (quotedArgument?_isPrefix hq).isInfix

theorem noBrace_readLiteral {token : Text} (h : '{' ∉ token) : (readLiteral token).NoBrace := by
  have hstrip : '{' ∉ token.strip := fun hm => h ((Text.strip_isInfix token).subset hm)
  unfold readLiteral
  dsimp only
  split
  · rename_i t hquote
    unfold unquote? at hquote
    split at hquote
    · rename_i q u hu
      split at hquote
      · cases hquote
        refine fun hm => hstrip ?_
        rw [hu]
        exact List.mem_cons_of_mem _ ((List.dropLast_sublist u).subset hm)
      · cases hquote
    · cases hquote
  · split
    · rename_i v hword
      unfold wordValue? at hword
      split at hword
      · cases hword; trivial
      · split at hword
        · cases hword; trivial
        · split at hword
          · cases hword; trivial
          · cases hword
    · split
      · trivial
      · split
        · trivial
        · exact hstrip

theorem noBrace_readArguments {list : Option Text} (h : ∀ t ∈ list, '{' ∉ t) :
    ∀ v ∈ readArguments list, v.NoBrace := by
  intro v hv
  cases list with
  | none => cases hv
  | some t =>
    unfold readArguments at hv
    dsimp only at hv
    split at hv
    · cases hv
    · obtain ⟨o, ho, rfl⟩ := List.mem_map.mp hv
      exact noBrace_readLiteral fun hm => h t rfl ((argument_isInfix t o ho).subset hm)

/-- A filter that is always there brings no brace in. -/
theorem Builtin.noBrace_apply (b : Builtin) {value result : Option Value} {args : List Value}
    (hv : ∀ v ∈ value, v.NoBrace) (ha : ∀ v ∈ args, v.NoBrace)
    (h : b.apply value args = .ok result) : ∀ v ∈ result, v.NoBrace := by
  have htext {change : Text → Text} (hchange : ∀ t, '{' ∉ t → '{' ∉ change t)
      (h : applyToText change value args = .ok result) : ∀ v ∈ result, v.NoBrace := by
    cases value with
    | none => cases h; exact fun _ h => by cases h
    | some v =>
      obtain ⟨t, ht, he⟩ := exists_of_bind_ok h
      cases he
      rintro w ⟨⟩
      exact hchange t (brace_not_mem_display v (hv v rfl) t ht)
  cases b with
  | default =>
    have hsubstitute : (args.head?.getD (.text [])).NoBrace := by
      cases args with
      | nil => exact List.not_mem_nil
      | cons a args => exact ha a List.mem_cons_self
    unfold apply applyDefault at h
    dsimp only at h
    split at h
    all_goals
      cases h
      rintro w ⟨⟩
    · exact hsubstitute
    · exact hsubstitute
    · exact hsubstitute
    · exact hv _ rfl
  | upper => exact htext (fun _ => brace_not_mem_upper) h
  | lower => exact htext (fun _ => brace_not_mem_lower) h
  | capitalize => exact htext (fun _ => brace_not_mem_capitalize) h
  | length =>
    unfold apply applyLength at h
    dsimp only at h
    split at h
    all_goals
      cases h
      rintro w ⟨⟩
      trivial
  | join =>
    unfold apply applyJoin at h
    dsimp only at h
    split at h
    · rename_i kind items
      have hjoined {separator : Text} (hs : '{' ∉ separator)
          (h : (do return some (.text ((if separator.isEmpty then itemSeparator else
            separator).intercalate (← Value.displayItems items))) : Except Failure _) = .ok result) :
          ∀ v ∈ result, v.NoBrace := by
        obtain ⟨ts, hts, he⟩ := exists_of_bind_ok h
        cases he
        rintro w ⟨⟩
        refine brace_not_mem_intercalate ?_ (brace_not_mem_displayItems items (hv _ rfl) ts hts)
        split
        · decide
        · exact hs
      cases args with
      | nil => exact hjoined List.not_mem_nil h
      | cons a args =>
        obtain ⟨separator, hseparator, h⟩ := exists_of_bind_ok h
        exact hjoined (brace_not_mem_display a (ha a List.mem_cons_self) _ hseparator) h
    · cases h
      exact hv

theorem noBrace_applyCalls {calls : List Call} (hc : ∀ c ∈ calls, c.WellFormed)
    {value result : Option Value} (hv : ∀ v ∈ value, v.NoBrace)
    (h : applyCalls calls value = .ok result) : ∀ v ∈ result, v.NoBrace := by
  induction calls generalizing value with
  | nil => cases h; exact hv
  | cons c calls ih =>
    unfold applyCalls at h
    rw [List.foldlM_cons] at h
    obtain ⟨next, hnext, hrest⟩ := exists_of_bind_ok h
    have harguments := noBrace_readArguments fun t ht => (hc c List.mem_cons_self t ht).1
    exact ih (fun c hmem => hc c (List.mem_cons_of_mem _ hmem))
      (c.filter.noBrace_apply hv harguments hnext) hrest

/-- What a piece gives way to has no brace where there is none in the scope. -/
theorem Piece.brace_not_mem_fill {p : Piece} (hp : p.WellFormed) {scope : Scope}
    (hs : Value.EntriesNoBrace scope) {t : Text} (h : p.fill scope = .ok (some t)) : '{' ∉ t := by
  have hdisplayed {value : Option Value} (hv : ∀ v ∈ value, v.NoBrace)
      (h : displayed value = .ok (some t)) : '{' ∉ t := by
    cases value with
    | none => cases h
    | some v =>
      obtain ⟨u, hu, he⟩ := exists_of_bind_ok h
      cases he
      exact brace_not_mem_display v (hv v rfl) _ hu
  have hresolved {path : Text} {value : Option Value} (h : scope.resolve path = .ok value) :
      ∀ v ∈ value, v.NoBrace := by
    rintro v rfl
    exact Scope.noBrace_resolve hs h
  cases p with
  | literal u => cases h
  | plain path =>
    obtain ⟨value, hvalue, h⟩ := exists_of_bind_ok h
    exact hdisplayed (hresolved hvalue) h
  | filtered path calls =>
    obtain ⟨value, hvalue, h⟩ := exists_of_bind_ok h
    obtain ⟨result, hresult, h⟩ := exists_of_bind_ok h
    exact hdisplayed (noBrace_applyCalls hp.2.2 (hresolved hvalue) hresult) h

end Stencil
