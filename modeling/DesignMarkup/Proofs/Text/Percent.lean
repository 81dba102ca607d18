/-
  DesignMarkup/Proofs/Text/Percent.lean
  =====================================
  **Percent encoding and back.**  An encoded text is made of unreserved characters and percent
  signs (`isWritten_of_mem_encode`), and decoding it gives the text back (`decode?_encode`).  A
  text without a percent sign is decoded to itself (`decode?_of_notMem`).

  Both directions go through the bytes of a text.  A character of ASCII is one byte there, and
  no other character has that byte in its encoding: so the bytes of an encoded text are read
  as they were written, and a percent sign among the bytes is one among the characters.
-/
import DesignMarkup.Text.Blank
import DesignMarkup.Text.Percent
import DesignMarkup.Proofs.Text.Ascii
import Mathlib.Tactic.IntervalCases

namespace DesignMarkup.Text

/-! ### Bytes -/

theorem toList_loop (array : ByteArray) (i : Nat) (done : List UInt8) :
    ByteArray.toList.loop array i done = done.reverse ++ array.data.toList.drop i := by
  fun_induction ByteArray.toList.loop array i done with
  | case1 i done hlt ih =>
    have hi : i < array.data.toList.length := hlt
    have hbyte : array.get! i = array.data.toList[i] := getElem!_pos array.data i hlt
    rw [ih, List.drop_eq_getElem_cons hi, hbyte]
    simp
  | case2 i done hge =>
    have hend : array.data.toList.length ≤ i := not_lt.mp hge
    rw [List.drop_eq_nil_of_le hend, List.append_nil]

theorem toList_toUTF8 (text : String) : text.toUTF8.toList = bytes text := by
  rw [ByteArray.toList, toList_loop]
  rfl

theorem fromUTF8?_bytes (text : String) :
    String.fromUTF8? ⟨(bytes text).toArray⟩ = some text := by
  have hbytes : (⟨(bytes text).toArray⟩ : ByteArray) = text.toByteArray := by
    rw [bytes, Array.toArray_toList]
    rfl
  rw [hbytes, String.fromUTF8?, dif_pos text.isValidUTF8]
  rfl

namespace Percent

/-! ### Digits -/

theorem hexDigit_cases {n : Nat} (h : n < 16) :
    ∃ byte, String.utf8EncodeChar (hexDigit n) = [byte] ∧
      hexValue? byte = some (UInt8.ofNat n) := by
  interval_cases n
  all_goals exact ⟨_, rfl, rfl⟩

theorem isUnreserved_hexDigit {n : Nat} (h : n < 16) : isUnreserved (hexDigit n) = true := by
  interval_cases n
  all_goals rfl

theorem byte_of_halves (byte : UInt8) :
    UInt8.ofNat (byte.toNat / 16) * 16 + UInt8.ofNat (byte.toNat % 16) = byte := by
  have hbyte := byte.toNat_lt
  rw [← UInt8.toNat_inj]
  simp only [UInt8.toNat_add, UInt8.toNat_mul, UInt8.toNat_ofNat']
  change (byte.toNat / 16 % 256 * 16 % 256 + byte.toNat % 16 % 256) % 256 = byte.toNat
  omega

/-! ### Decoding what was encoded -/

theorem decodeBytes_cons_of_ne {byte : UInt8} (h : byte ≠ 37) (rest : List UInt8) :
    decodeBytes (byte :: rest) = byte :: decodeBytes rest :=
  decodeBytes.eq_2 byte rest fun _ _ _ hbyte _ => h hbyte

theorem decodeBytes_of_notMem {encoded : List UInt8} (h : 37 ∉ encoded) :
    decodeBytes encoded = encoded := by
  induction encoded with
  | nil => rfl
  | cons byte rest ih =>
    rw [decodeBytes_cons_of_ne (fun hbyte => h (hbyte ▸ List.mem_cons_self)),
      ih fun hmem => h (List.mem_cons_of_mem _ hmem)]

theorem decodeBytes_encodeByte (byte : UInt8) (rest : List UInt8) :
    decodeBytes ((encodeByte byte).flatMap String.utf8EncodeChar ++ rest) =
      byte :: decodeBytes rest := by
  have hbyte := byte.toNat_lt
  unfold encodeByte
  simp only
  split_ifs with hplain
  · rw [Bool.and_eq_true, decide_eq_true_eq] at hplain
    obtain ⟨hlow, hunreserved⟩ := hplain
    have hc : (Char.ofNat byte.toNat).toNat = byte.toNat := toNat_ofNat_ascii hlow
    have hne : byte ≠ 37 := by
      rintro rfl
      exact absurd hunreserved (by decide)
    rw [List.flatMap_singleton, encodeChar_ascii (by rw [hc]; exact hlow), hc, UInt8.ofNat_toNat]
    exact decodeBytes_cons_of_ne hne rest
  · obtain ⟨high, hhigh, hhigh'⟩ := hexDigit_cases (n := byte.toNat / 16) (by omega)
    obtain ⟨low, hlow, hlow'⟩ := hexDigit_cases (n := byte.toNat % 16) (by omega)
    have hsign : String.utf8EncodeChar '%' = [37] := rfl
    simp only [escapeByte, List.flatMap_cons, List.flatMap_nil, hsign, hhigh, hlow,
      List.cons_append, List.nil_append]
    rw [decodeBytes, hhigh', hlow']
    simp only [byte_of_halves]

theorem decodeBytes_encode (text : String) :
    decodeBytes (bytes (encode text)) = bytes text := by
  have hbytes : bytes (encode text) =
      (bytes text).flatMap fun byte => (encodeByte byte).flatMap String.utf8EncodeChar := by
    rw [bytes_eq, encode, String.toList_ofList, toList_toUTF8, List.flatMap_assoc]
  rw [hbytes]
  induction bytes text with
  | nil => rfl
  | cons byte rest ih => rw [List.flatMap_cons, decodeBytes_encodeByte, ih]

/-- **Decoding undoes encoding,** whatever the text. -/
theorem decode?_encode (text : String) : decode? (encode text) = some text := by
  rw [decode?, toList_toUTF8, decodeBytes_encode, fromUTF8?_bytes]

/-- A text without a percent sign has no escapes. -/
theorem decode?_of_notMem {text : String} (h : '%' ∉ text.toList) : decode? text = some text := by
  have hsign : 37 ∉ bytes text := fun hmem => h (mem_of_mem_bytes hmem (by decide))
  rw [decode?, toList_toUTF8, decodeBytes_of_notMem hsign, fromUTF8?_bytes]

/-! ### What an encoded text is made of -/

/-- The characters that encoding writes. -/
def isWritten (c : Char) : Bool := isUnreserved c || c == '%'

theorem isWritten_of_mem_encodeByte {c : Char} {byte : UInt8} (h : c ∈ encodeByte byte) :
    isWritten c = true := by
  have hbyte := byte.toNat_lt
  unfold encodeByte at h
  simp only at h
  split_ifs at h with hplain
  · rw [List.mem_singleton] at h
    subst h
    simp [isWritten, (Bool.and_eq_true_iff.mp hplain).2]
  · simp only [escapeByte, List.mem_cons, List.not_mem_nil, or_false] at h
    rcases h with rfl | rfl | rfl
    · decide
    · simp [isWritten, isUnreserved_hexDigit (n := byte.toNat / 16) (by omega)]
    · simp [isWritten, isUnreserved_hexDigit (n := byte.toNat % 16) (by omega)]

theorem isWritten_of_mem_encode {c : Char} {text : String} (h : c ∈ (encode text).toList) :
    isWritten c = true := by
  rw [encode, String.toList_ofList] at h
  obtain ⟨byte, -, hmem⟩ := List.mem_flatMap.mp h
  exact isWritten_of_mem_encodeByte hmem

/-- All of them can be seen: they are ASCII, and neither white space nor control characters. -/
theorem range_of_isWritten {c : Char} (h : isWritten c = true) :
    0x20 < c.toNat ∧ c.toNat < 0x7F := by
  simp only [isWritten, isUnreserved, Bool.or_eq_true, beq_iff_eq] at h
  rcases h with ((((h | rfl) | rfl) | rfl) | rfl) | rfl
  · obtain h | h | h := range_of_isAlphanum h
    all_goals omega
  all_goals decide

end Percent

end DesignMarkup.Text
