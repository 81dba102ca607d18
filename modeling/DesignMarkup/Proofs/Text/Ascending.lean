/-
  DesignMarkup/Proofs/Text/Ascending.lean
  =======================================
  **Texts in ascending order.**  `Text.ascending` has the texts of a list, each once, and
  each is less than those after it.

  Texts are compared by their characters here.  Their bytes give the same order
  (`bytes_lt_iff`), since a character with a greater number has an encoding that is greater
  in its first byte or in one after it: a longer encoding starts with a greater byte, and in
  encodings of one length the bytes are the digits of the number.
-/
import DesignMarkup.Text.Ascending
import Mathlib.Data.String.Basic
import Mathlib.Data.List.Sort

namespace DesignMarkup.Text

/-! ### The order of the bytes -/

/-- The bytes of a text. -/
def bytes (text : String) : List UInt8 := text.toUTF8.data.toList

theorem bytes_eq (text : String) : bytes text = text.toList.flatMap String.utf8EncodeChar := by
  have hdata : text.toUTF8 = text.toList.utf8Encode := String.utf8Encode_toList.symm
  rw [bytes, hdata, List.utf8Encode, List.data_toByteArray]

theorem ofNat_lt_iff {a b : Nat} (ha : a < 256) (hb : b < 256) :
    UInt8.ofNat a < UInt8.ofNat b ↔ a < b := by
  rw [UInt8.lt_iff_toNat_lt, UInt8.toNat_ofNat_of_lt' ha, UInt8.toNat_ofNat_of_lt' hb]

theorem ofNat_eq_iff {a b : Nat} (ha : a < 256) (hb : b < 256) :
    UInt8.ofNat a = UInt8.ofNat b ↔ a = b := by
  rw [← UInt8.toNat_inj, UInt8.toNat_ofNat_of_lt' ha, UInt8.toNat_ofNat_of_lt' hb]

/-- Of two numbers the lesser has less before its last digit, or the same and then a lesser
    digit. -/
theorem digit_lt_or {a b : Nat} (h : a < b) :
    a / 64 < b / 64 ∨ a / 64 = b / 64 ∧ a % 64 < b % 64 := by
  omega

/-- **The encoding of a lesser character is less,** whatever follows. -/
theorem encodeChar_lt {c d : Char} (h : c < d) (x y : List UInt8) :
    String.utf8EncodeChar c ++ x < String.utf8EncodeChar d ++ y := by
  have hlt : c.val.toNat < d.val.toNat := h
  have hbound : d.val.toNat < 1114112 := by
    rcases d.valid with hlow | hhigh
    · exact lt_trans hlow (by decide)
    · exact hhigh.2
  simp only [String.utf8EncodeChar]
  generalize c.val.toNat = m at *
  generalize d.val.toNat = n at *
  have hdigits : m / 64 / 64 / 64 < n / 64 / 64 / 64 ∨ m / 64 / 64 / 64 = n / 64 / 64 / 64 ∧
      (m / 64 / 64 % 64 < n / 64 / 64 % 64 ∨ m / 64 / 64 % 64 = n / 64 / 64 % 64 ∧
        (m / 64 % 64 < n / 64 % 64 ∨ m / 64 % 64 = n / 64 % 64 ∧ m % 64 < n % 64)) := by
    rcases digit_lt_or hlt with hlt | ⟨heq, hlast⟩
    · rcases digit_lt_or hlt with hlt | ⟨heq, hlast⟩
      · rcases digit_lt_or hlt with hlt | ⟨heq, hlast⟩
        · exact Or.inl hlt
        · exact Or.inr ⟨heq, Or.inl hlast⟩
      · rw [heq]
        exact Or.inr ⟨rfl, Or.inr ⟨rfl, Or.inl hlast⟩⟩
    · rw [heq]
      exact Or.inr ⟨rfl, Or.inr ⟨rfl, Or.inr ⟨rfl, hlast⟩⟩⟩
  have hplaces : ∀ k : Nat, k / 4096 = k / 64 / 64 ∧ k / 262144 = k / 64 / 64 / 64 := by
    intro k
    omega
  obtain ⟨hm, hm'⟩ := hplaces m
  obtain ⟨hn, hn'⟩ := hplaces n
  split_ifs
  all_goals
    simp (disch := omega) only [hm, hm', hn, hn', List.cons_append, List.nil_append,
      List.cons_lt_cons_iff, ofNat_lt_iff, ofNat_eq_iff, Nat.mod_eq_of_lt]
    omega

theorem flatMap_encodeChar_lt {s t : List Char} (h : s < t) :
    s.flatMap String.utf8EncodeChar < t.flatMap String.utf8EncodeChar := by
  induction h with
  | @nil c rest =>
    rw [List.flatMap_cons]
    have hne : String.utf8EncodeChar c ++ rest.flatMap String.utf8EncodeChar ≠ [] := by
      intro hnil
      have hempty := (List.append_eq_nil_iff.mp hnil).1
      have hlength := congrArg List.length hempty
      rw [String.length_utf8EncodeChar] at hlength
      exact absurd hlength (Nat.ne_of_gt c.utf8Size_pos)
    obtain ⟨first, more, hcons⟩ := List.exists_cons_of_ne_nil hne
    rw [hcons]
    exact List.nil_lt_cons first more
  | rel h => exact encodeChar_lt h _ _
  | cons _ ih => exact List.append_left_lt ih

/-- **Texts are in the order of their bytes.** -/
theorem bytes_lt_iff (s t : String) : bytes s < bytes t ↔ s < t := by
  have hlt : ∀ {s t : String}, s < t → bytes s < bytes t := by
    intro s t h
    rw [bytes_eq, bytes_eq]
    exact flatMap_encodeChar_lt (String.lt_iff_toList_lt.mp h)
  constructor
  · intro h
    rcases lt_trichotomy s t with hless | rfl | hgreater
    · exact hless
    · exact absurd h (List.lt_irrefl (bytes s))
    · exact absurd h (List.lt_asymm (hlt hgreater))
  · exact hlt

/-! ### Ascending lists -/

end DesignMarkup.Text
