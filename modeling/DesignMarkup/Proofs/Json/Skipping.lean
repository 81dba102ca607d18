/-
  DesignMarkup/Proofs/Json/Skipping.lean
  ======================================
  **What can be read can be skipped.**  A value under a key that nobody asks for is only
  skipped: its form is checked, its numbers are not computed, its surrogates need no
  partner, and it may be nested as deep as it likes.  All this asks for less than reading
  the value does, and it ends in the same place.

  `Skips` says so of two scans.  The one point where the two modes go different ways is a
  surrogate pair, which is read as one character and skipped as two
  (`scanEscape_skip`).
-/
import DesignMarkup.Proofs.Json.Written

namespace DesignMarkup.Json

variable {α β : Type}

/-- Where `scan` succeeds, on a text of less than `n` characters, `skip` gets to the same
    place. -/
def Skips (n : Nat) (skip : Text → Outcome (β × Text)) (scan : Text → Outcome (α × Text)) : Prop :=
  ∀ ⦃text a rest⦄, text.length < n → scan text = .ok (a, rest) → ∃ b, skip text = .ok (b, rest)

/-! ### Strings -/

/-- Skipping gets past the same escape, or past the first of the two that are read as one
    character. -/
theorem scanEscape_skip {text : Text} {c : Char} {rest : Text}
    (h : scanEscape .keep text = .ok (c, rest)) :
    ∃ c' mid, scanEscape .skip text = .ok (c', mid) ∧
      (mid = rest ∨ ∃ c'' second, mid = '\\' :: second ∧
        scanEscape .skip second = .ok (c'', rest)) := by
  unfold scanEscape at h
  split at h
  · cases h
  · next digits =>
    obtain ⟨⟨unit, mid⟩, hunit, h⟩ := bind_eq_ok.mp h
    refine ⟨Char.ofNat unit, mid, bind_eq_ok.mpr ⟨_, hunit, rfl⟩, ?_⟩
    simp only at h
    split_ifs at h
    · cases h
    · -- the other half of the pair
      unfold scanTrailing at h
      split at h
      · cases h
      · next second =>
        split at h
        · cases h
        · obtain ⟨⟨unit', last⟩, hunit', h⟩ := bind_eq_ok.mp h
          simp only at h
          split_ifs at h
          · obtain ⟨-, rfl⟩ := Prod.mk.inj (Except.ok.inj h)
            exact Or.inr ⟨Char.ofNat unit', _, rfl, bind_eq_ok.mpr ⟨_, hunit', rfl⟩⟩
          · cases h
        · cases h
      · cases h
    · obtain ⟨-, rfl⟩ := Prod.mk.inj (Except.ok.inj h)
      exact Or.inl rfl
  · next first tail hne =>
    refine ⟨c, rest, ?_, Or.inl rfl⟩
    unfold scanEscape
    split
    · next heq => cases heq
    · next heq => exact absurd (List.cons.inj heq).1 (fun hu => hne (hu ▸ rfl))
    · next heq =>
      obtain ⟨rfl, rfl⟩ := List.cons.inj heq
      exact h

theorem scanStringBody_skip {fuel n : Nat} {text : Text} {chars : List Char} {rest : Text}
    (hn : text.length < n) (h : scanStringBody .keep fuel text = .ok (chars, rest)) :
    ∃ chars', scanStringBody .skip n text = .ok (chars', rest) := by
  induction fuel generalizing n text chars with
  | zero => cases h
  | succ fuel ih =>
    obtain ⟨n, rfl⟩ := Nat.exists_eq_succ_of_ne_zero (Nat.ne_zero_of_lt hn)
    unfold scanStringBody at h
    split at h
    · cases h
    · obtain ⟨-, rfl⟩ := Prod.mk.inj (Except.ok.inj h)
      exact ⟨[], rfl⟩
    · next tail =>
      obtain ⟨⟨c, mid⟩, hescape, h⟩ := bind_eq_ok.mp h
      obtain ⟨⟨more, last⟩, hbody, h⟩ := bind_eq_ok.mp h
      cases h
      simp only [List.length_cons] at hn
      have hlt := advances_scanEscape .keep hescape
      obtain ⟨c', afterFirst, hfirst, rfl | ⟨c'', second, rfl, hsecond⟩⟩ := scanEscape_skip hescape
      · obtain ⟨more', hmore⟩ := ih (n := n) (by omega) hbody
        exact ⟨c' :: more', bind_eq_ok.mpr ⟨_, hfirst, bind_eq_ok.mpr ⟨_, hmore, rfl⟩⟩⟩
      · -- a pair takes two steps, and is long enough for both
        have hlt' := advances_scanEscape .skip hfirst
        have hlt'' := advances_scanEscape .skip hsecond
        simp only [List.length_cons] at hlt'
        obtain ⟨n, rfl⟩ : ∃ m, n = m + 1 := ⟨n - 1, by omega⟩
        obtain ⟨more', hmore⟩ := ih (n := n) (by omega) hbody
        have hrest : scanStringBody .skip (n + 1) ('\\' :: second) = .ok (c'' :: more', rest) :=
          bind_eq_ok.mpr ⟨_, hsecond, bind_eq_ok.mpr ⟨_, hmore, rfl⟩⟩
        exact ⟨c' :: c'' :: more', bind_eq_ok.mpr ⟨_, hfirst, bind_eq_ok.mpr ⟨_, hrest, rfl⟩⟩⟩
    · next c tail hquote hslash =>
      split_ifs at h with hcontrol
      · cases h
      · obtain ⟨⟨more, last⟩, hbody, h⟩ := bind_eq_ok.mp h
        cases h
        simp only [List.length_cons] at hn
        obtain ⟨more', hmore⟩ := ih (n := n) (by omega) hbody
        refine ⟨c :: more', ?_⟩
        unfold scanStringBody
        split
        · next heq => cases heq
        · next heq => exact absurd (List.cons.inj heq).1 hquote
        · next heq => exact absurd (List.cons.inj heq).1 hslash
        · next heq =>
          obtain ⟨rfl, rfl⟩ := List.cons.inj heq
          rw [if_neg hcontrol]
          exact bind_eq_ok.mpr ⟨_, hmore, rfl⟩

theorem scanString_skip {fuel fuel' n : Nat} (hn : n ≤ fuel') :
    Skips n (scanString .skip fuel') (scanString .keep fuel) := by
  intro text s rest hlt h
  obtain ⟨⟨chars, mid⟩, hbody, h⟩ := bind_eq_ok.mp h
  cases h
  obtain ⟨chars', hskip⟩ := scanStringBody_skip (hlt.trans_le hn) hbody
  exact ⟨String.ofList chars', bind_eq_ok.mpr ⟨_, hskip, rfl⟩⟩

theorem scanKey_skip {fuel fuel' n : Nat} (hn : n ≤ fuel') :
    Skips n (scanKey .skip fuel') (scanKey .keep fuel) := by
  intro text key rest hlt h
  unfold scanKey at h
  split at h
  · exact scanString_skip hn (Nat.lt_of_succ_lt hlt) h
  · cases h

/-! ### Numbers -/

theorem scanWhole_eq_ok {atEnd atEnd' : Cause} {text : Text} {r : List Nat × Text}
    (h : scanWhole atEnd text = .ok r) : scanWhole atEnd' text = .ok r := by
  unfold scanWhole at h ⊢
  split at h
  · cases h
  · exact h
  · exact h

theorem scanFraction_eq_ok {atEnd atEnd' : Cause} {text : Text} {r : Option (List Nat) × Text}
    (h : scanFraction atEnd text = .ok r) : scanFraction atEnd' text = .ok r := by
  unfold scanFraction at h ⊢
  split at h
  · split at h
    · cases h
    · cases h
    · exact h
  · exact h

theorem scanExponentDigits_eq_ok {atEnd atEnd' : Cause} {negative : Bool} {text : Text}
    {r : Option (Bool × List Nat) × Text} (h : scanExponentDigits atEnd negative text = .ok r) :
    scanExponentDigits atEnd' negative text = .ok r := by
  unfold scanExponentDigits at h ⊢
  split at h
  · cases h
  · cases h
  · exact h

theorem scanExponent_eq_ok {atEnd atEnd' : Cause} {text : Text}
    {r : Option (Bool × List Nat) × Text} (h : scanExponent atEnd text = .ok r) :
    scanExponent atEnd' text = .ok r := by
  unfold scanExponent at h ⊢
  split at h
  · exact h
  · split_ifs at h ⊢
    · split at h
      · exact scanExponentDigits_eq_ok h
      · exact scanExponentDigits_eq_ok h
      · exact scanExponentDigits_eq_ok h
    · exact h

/-- The cause given at the end of the text has no say in whether there is a numeral. -/
theorem scanNumeral_eq_ok {atEnd atEnd' : Cause} {text : Text} {r : Numeral × Text}
    (h : scanNumeral atEnd text = .ok r) : scanNumeral atEnd' text = .ok r := by
  obtain ⟨whole, hwhole, h⟩ := bind_eq_ok.mp h
  obtain ⟨fraction, hfraction, h⟩ := bind_eq_ok.mp h
  obtain ⟨exponent, hexponent, h⟩ := bind_eq_ok.mp h
  exact bind_eq_ok.mpr ⟨whole, scanWhole_eq_ok hwhole, bind_eq_ok.mpr
    ⟨fraction, scanFraction_eq_ok hfraction, bind_eq_ok.mpr
      ⟨exponent, scanExponent_eq_ok hexponent, h⟩⟩⟩

/-! ### Values -/

theorem skipScalar_skips {fuel fuel' n : Nat} (hn : n ≤ fuel') :
    Skips n (skipScalar fuel') (scanScalar fuel) := by
  intro text v rest hlt h
  unfold scanScalar at h
  unfold skipScalar
  split at h
  · cases h
  · obtain ⟨⟨u, mid⟩, hword, h⟩ := bind_eq_ok.mp h
    cases h
    exact ⟨u, hword⟩
  · obtain ⟨⟨u, mid⟩, hword, h⟩ := bind_eq_ok.mp h
    cases h
    exact ⟨u, hword⟩
  · obtain ⟨⟨u, mid⟩, hword, h⟩ := bind_eq_ok.mp h
    cases h
    exact ⟨u, hword⟩
  · obtain ⟨⟨s, mid⟩, hstring, h⟩ := bind_eq_ok.mp h
    cases h
    obtain ⟨s', hskip⟩ := scanString_skip hn (Nat.lt_of_succ_lt hlt) hstring
    exact ⟨(), bind_eq_ok.mpr ⟨_, hskip, rfl⟩⟩
  · split_ifs at h ⊢
    · obtain ⟨⟨number, mid⟩, hnumber, h⟩ := bind_eq_ok.mp h
      cases h
      obtain ⟨⟨numeral, last⟩, hnumeral, h⟩ := bind_eq_ok.mp hnumber
      simp only at h
      split at h
      · cases h
        exact ⟨(), bind_eq_ok.mpr ⟨_, scanNumeral_eq_ok hnumeral, rfl⟩⟩
      · cases h
    · cases h

theorem itemsAt_skip {n : Nat} {skip : Text → Outcome (β × Text)} {scan : Text → Outcome (α × Text)}
    (hs : Skips n skip scan) (ha : Advances scan) {first : Bool} {text rest : Text}
    {items : List α} (hn : text.length < n) (h : ItemsAt scan first text items rest) :
    ∃ items', ItemsAt skip first text items' rest := by
  induction h with
  | done hclose => exact ⟨[], .done hclose⟩
  | next hnext hitem _ ih =>
    have hle := hnext.length_le
    have hlt := ha hitem
    obtain ⟨b, hskip⟩ := hs (by omega) hitem
    obtain ⟨items', hitems'⟩ := ih (by omega)
    exact ⟨b :: items', .next hnext hskip hitems'⟩

theorem membersAt_skip {fuel fuel' n : Nat} {skip : Text → Outcome (β × Text)}
    {scan : Text → Outcome (α × Text)} (hn : n ≤ fuel') (hs : Skips n skip scan)
    (ha : Advances scan) {first : Bool} {text rest : Text} {members : List (String × α)}
    (hlt : text.length < n)
    (h : MembersAt (scanKey .keep fuel) scan first text members rest) :
    ∃ members', MembersAt (scanKey .skip fuel') skip first text members' rest := by
  induction h with
  | done hclose => exact ⟨[], .done hclose⟩
  | next hnext hkey hcolon hitem _ ih =>
    have hle := hnext.length_le
    have hafterKey := advances_scanKey .keep fuel hkey
    have hafterColon := advances_scanColon hcolon
    have hlt := ha hitem
    obtain ⟨key', hkey'⟩ := scanKey_skip hn (by omega) hkey
    obtain ⟨b, hskip⟩ := hs (by omega) hitem
    obtain ⟨members', hmembers'⟩ := ih (by omega)
    exact ⟨(key', b) :: members', .next hnext hkey' hcolon hskip hmembers'⟩

theorem advances_skipScalar (fuel : Nat) : Advances (skipScalar fuel) := by
  intro text u rest h
  unfold skipScalar at h
  split at h
  · cases h
  · exact Nat.lt_succ_of_le (length_scanWord h)
  · exact Nat.lt_succ_of_le (length_scanWord h)
  · exact Nat.lt_succ_of_le (length_scanWord h)
  · obtain ⟨⟨s, mid⟩, hstring, h⟩ := bind_eq_ok.mp h
    cases h
    exact Nat.lt_succ_of_lt (advances_scanString .skip fuel hstring)
  · split_ifs at h
    · obtain ⟨⟨n, mid⟩, hnumeral, h⟩ := bind_eq_ok.mp h
      cases h
      exact advances_scanNumeral _ hnumeral
    · cases h

theorem skipValue_scalar {fuel depth : Nat} {text : Text} (h : AtScalar (skipSpace text)) :
    skipValue fuel (depth + 1) text = skipScalar fuel (skipSpace text) := by
  rw [skipValue]
  split
  · next rest heq => exact absurd heq (h rest).1
  · next rest heq => exact absurd heq (h rest).2
  · rfl

theorem advances_skipValue (fuel depth : Nat) : Advances (skipValue fuel depth) := by
  induction depth with
  | zero =>
    intro text u rest h
    cases h
  | succ depth ih =>
    intro text u rest h
    rcases opening_cases (skipSpace text) with ⟨tail, hopen⟩ | ⟨tail, hopen⟩ | hopen
    · simp only [skipValue, hopen] at h
      obtain ⟨⟨items, last⟩, hitems, h⟩ := bind_eq_ok.mp h
      cases h
      exact (advances_scanArray ih fuel hitems).trans (length_lt_of_skipSpace hopen)
    · simp only [skipValue, hopen] at h
      obtain ⟨⟨members, last⟩, hmembers, h⟩ := bind_eq_ok.mp h
      cases h
      exact (advances_scanObject ih fuel hmembers).trans (length_lt_of_skipSpace hopen)
    · rw [skipValue_scalar hopen] at h
      exact (advances_skipScalar fuel h).trans_le (length_skipSpace_le text)

/-- **A value that can be read can be skipped,** if as many containers may be open as the
    text has characters. -/
theorem skipValue_skips {fuel depth n : Nat} (hn : n ≤ fuel) :
    Skips n (skipValue fuel n) (scanWritten fuel depth) := by
  induction depth generalizing n with
  | zero =>
    intro text w rest hlt h
    obtain ⟨n, rfl⟩ := Nat.exists_eq_succ_of_ne_zero (Nat.ne_zero_of_lt hlt)
    rcases opening_cases (skipSpace text) with ⟨tail, hopen⟩ | ⟨tail, hopen⟩ | hopen
    · rw [scanWritten, hopen] at h
      cases h
    · rw [scanWritten, hopen] at h
      cases h
    · have hle := length_skipSpace_le text
      rw [scanWritten_scalar hopen] at h
      rw [skipValue_scalar hopen]
      exact skipScalar_skips hn (by omega) h
  | succ depth ih =>
    intro text w rest hlt h
    obtain ⟨n, rfl⟩ := Nat.exists_eq_succ_of_ne_zero (Nat.ne_zero_of_lt hlt)
    -- the bracket that opens a container pays for the container
    have hinside := ih (Nat.le_of_succ_le hn)
    rcases opening_cases (skipSpace text) with ⟨tail, hopen⟩ | ⟨tail, hopen⟩ | hopen
    · have htail := length_lt_of_skipSpace hopen
      simp only [scanWritten, hopen] at h
      simp only [skipValue, hopen]
      obtain ⟨⟨items, last⟩, hitems, h⟩ := bind_eq_ok.mp h
      cases h
      obtain ⟨items', hitems'⟩ := itemsAt_skip hinside (advances_scanWritten fuel depth) (by omega)
        (itemsAt_of_scanArray hitems)
      have hskip : scanArray .skip (skipValue fuel n) fuel tail = .ok (items', last) :=
        scanArray_of_itemsAt (advances_skipValue fuel n) (by omega) hitems'
      exact ⟨(), bind_eq_ok.mpr ⟨_, hskip, rfl⟩⟩
    · have htail := length_lt_of_skipSpace hopen
      simp only [scanWritten, hopen] at h
      simp only [skipValue, hopen]
      obtain ⟨⟨members, last⟩, hmembers, h⟩ := bind_eq_ok.mp h
      cases h
      obtain ⟨members', hmembers'⟩ := membersAt_skip (Nat.le_of_succ_le hn) hinside
        (advances_scanWritten fuel depth) (by omega)
        (membersAt_of_scanObject (advances_scanWritten fuel depth) (by omega) hmembers)
      have hskip := scanObject_of_membersAt (advances_skipValue fuel n) (by omega) hmembers'
      exact ⟨(), bind_eq_ok.mpr ⟨_, hskip, rfl⟩⟩
    · have hle := length_skipSpace_le text
      rw [scanWritten_scalar hopen] at h
      rw [skipValue_scalar hopen]
      exact skipScalar_skips hn (by omega) h

end DesignMarkup.Json
