/-
  DesignMarkup/Proofs/Text/Ascii.lean
  ===================================
  **Characters of ASCII.**  Where the letters and digits lie among the characters, that a
  number is known from its digits, and what a character of ASCII has for bytes: a single one,
  which no other character has in its encoding (`mem_of_mem_bytes`).
-/
import DesignMarkup.Proofs.Text.Ascending

namespace DesignMarkup.Text

/-! ### Letters and digits -/

variable {c : Char}

theorem range_of_isUpper (h : c.isUpper = true) : 0x41 ≤ c.toNat ∧ c.toNat ≤ 0x5A :=
  of_decide_eq_true h

theorem range_of_isLower (h : c.isLower = true) : 0x61 ≤ c.toNat ∧ c.toNat ≤ 0x7A :=
  (Bool.and_eq_true_iff.mp h).imp of_decide_eq_true of_decide_eq_true

theorem range_of_isDigit (h : c.isDigit = true) : 0x30 ≤ c.toNat ∧ c.toNat ≤ 0x39 :=
  (Bool.and_eq_true_iff.mp h).imp of_decide_eq_true of_decide_eq_true

theorem range_of_isAlphanum (h : c.isAlphanum = true) :
    0x41 ≤ c.toNat ∧ c.toNat ≤ 0x5A ∨ 0x61 ≤ c.toNat ∧ c.toNat ≤ 0x7A ∨
      0x30 ≤ c.toNat ∧ c.toNat ≤ 0x39 := by
  rcases Bool.or_eq_true_iff.mp h with halpha | hdigit
  · rcases Bool.or_eq_true_iff.mp halpha with hupper | hlower
    · exact Or.inl (range_of_isUpper hupper)
    · exact Or.inr (Or.inl (range_of_isLower hlower))
  · exact Or.inr (Or.inr (range_of_isDigit hdigit))

theorem toLower_of_not_upper (h : ¬(0x41 ≤ c.toNat ∧ c.toNat ≤ 0x5A)) : c.toLower = c :=
  dif_neg h

theorem toString_injective : Function.Injective (toString : Nat → String) := by
  intro n m h
  have hdigits : Nat.toDigits 10 n = Nat.toDigits 10 m := String.ofList_injective h
  calc
    n = Nat.ofDigitChars 10 (Nat.toDigits 10 n) 0 := Nat.ofDigitChars_ten_toDigits.symm
    _ = Nat.ofDigitChars 10 (Nat.toDigits 10 m) 0 := by rw [hdigits]
    _ = m := Nat.ofDigitChars_ten_toDigits

/-! ### Bytes -/

theorem toNat_ofNat_ascii {n : Nat} (h : n < 128) : (Char.ofNat n).toNat = n := by
  rw [Char.ofNat, dif_pos (Or.inl (lt_trans h (by decide)))]
  rfl

theorem encodeChar_ascii {c : Char} (h : c.toNat < 128) :
    String.utf8EncodeChar c = [UInt8.ofNat c.toNat] := by
  rw [String.utf8EncodeChar]
  exact if_pos (Nat.le_of_lt_succ h)

/-- Beyond ASCII the encoding of a character has no byte of ASCII. -/
theorem le_of_mem_encodeChar {c : Char} {byte : UInt8} (hc : 128 ≤ c.toNat)
    (h : byte ∈ String.utf8EncodeChar c) : 128 ≤ byte.toNat := by
  change 128 ≤ c.val.toNat at hc
  simp only [String.utf8EncodeChar] at h
  split_ifs at h
  all_goals
    simp only [List.mem_cons, List.not_mem_nil, or_false] at h
    rcases h with rfl | rfl | rfl | rfl
    all_goals
      rw [UInt8.toNat_ofNat']
      omega

/-- A byte of ASCII occurs in a text only as its character. -/
theorem mem_of_mem_bytes {byte : UInt8} {text : String} (h : byte ∈ bytes text)
    (hbyte : byte.toNat < 128) : Char.ofNat byte.toNat ∈ text.toList := by
  rw [bytes_eq] at h
  obtain ⟨c, hc, hmem⟩ := List.mem_flatMap.mp h
  have hlow : c.toNat < 128 := by
    by_contra hhigh
    exact absurd (le_of_mem_encodeChar (not_lt.mp hhigh) hmem) (not_le.mpr hbyte)
  rw [encodeChar_ascii hlow, List.mem_singleton] at hmem
  rw [hmem, UInt8.toNat_ofNat_of_lt' (lt_trans hlow (by decide)), Char.ofNat_toNat]
  exact hc

end DesignMarkup.Text
