import Mathlib.Tactic.Common
import GujaratiScript.Source.Decode

/-!
# Texts as bytes

* `decodeFrom_utf8EncodeChar` : the bytes of a character are read as this character;
* `decode_toUTF8` : the bytes of a text are read as this text.
-/

namespace GujaratiScript

/-! ## Single bytes -/

/-- A small number is kept in a byte. -/
theorem toNat_ofNat {n : Nat} (small : n < 256) : (UInt8.ofNat n).toNat = n := by
  simpa using Nat.mod_eq_of_lt small

/-- The byte of a character that is encoded in one. -/
theorem leadByte?_one {n : Nat} (small : n < 0x80) : leadByte? (UInt8.ofNat n) = some (0, n, 0) := by
  rw [leadByte?, toNat_ofNat (by omega), if_pos small]

/-- The first of two bytes has five bits of the character. -/
theorem leadByte?_two {n : Nat} (small : n < 0x20) :
    leadByte? (UInt8.ofNat (n + 0xC0)) = some (1, n, 0x80) := by
  rw [leadByte?, toNat_ofNat (by omega), if_neg (by omega), if_neg (by omega), if_pos (by omega),
    Nat.add_sub_cancel]

/-- The first of three bytes has four bits of the character. -/
theorem leadByte?_three {n : Nat} (small : n < 0x10) :
    leadByte? (UInt8.ofNat (n + 0xE0)) = some (2, n, 0x800) := by
  rw [leadByte?, toNat_ofNat (by omega), if_neg (by omega), if_neg (by omega), if_neg (by omega),
    if_pos (by omega), Nat.add_sub_cancel]

/-- The first of four bytes has three bits of the character. -/
theorem leadByte?_four {n : Nat} (small : n < 8) :
    leadByte? (UInt8.ofNat (n + 0xF0)) = some (3, n, 0x10000) := by
  rw [leadByte?, toNat_ofNat (by omega), if_neg (by omega), if_neg (by omega), if_neg (by omega),
    if_neg (by omega), if_pos (by omega), Nat.add_sub_cancel]

/-- Each further byte has six bits more. -/
theorem followingBytes_cons {m : Nat} (small : m < 64) (count bits : Nat) (bytes : List UInt8) :
    followingBytes (count + 1) bits (UInt8.ofNat (m + 128) :: bytes) =
      followingBytes count (bits * 64 + m) bytes := by
  rw [followingBytes, toNat_ofNat (by omega), if_pos (by omega), Nat.add_sub_cancel]

/-! ## Characters -/

/-- The number of a character is read back unless it is less than its encoding asks. -/
theorem character?_toNat (c : Char) {least : Nat} (enough : least ≤ c.toNat) :
    character? c.toNat least = some c := by
  rw [character?, dif_pos ⟨enough, c.valid⟩]
  rfl

/-- The bytes of one character are read, and then those behind it. -/
theorem decodeFrom_cons (read : List Char) {b : UInt8} {bytes rest : List UInt8}
    {count bits least : Nat} {c : Char} (lead : leadByte? b = some (count, bits, least))
    (following : followingBytes count bits bytes = .ok (c.toNat, rest)) (enough : least ≤ c.toNat) :
    decodeFrom read (b :: bytes) = decodeFrom (c :: read) rest := by
  rw [decodeFrom, lead]
  simp only
  split
  · rename_i refused
    rw [following] at refused
    cases refused
  · rename_i n rest' eq
    rw [following] at eq
    cases eq
    rw [character?_toNat c enough]

/-- The bytes of one character are decoded to it. -/
theorem decodeFrom_utf8EncodeChar (read : List Char) (c : Char) (bytes : List UInt8) :
    decodeFrom read (String.utf8EncodeChar c ++ bytes) = decodeFrom (c :: read) bytes := by
  have same : c.val.toNat = c.toNat := rfl
  have valid : c.toNat < 0x110000 := by
    have valid := c.valid
    simp only [UInt32.isValidChar, Nat.isValidChar] at valid
    omega
  -- one case for each number of bytes
  rw [String.utf8EncodeChar, same]
  split
  · rename_i one
    exact decodeFrom_cons read (leadByte?_one (by omega)) rfl (by omega)
  split
  · rename_i two
    simp only [List.cons_append, List.nil_append]
    refine decodeFrom_cons read (leadByte?_two (by omega)) ?_ (by omega)
    rw [followingBytes_cons (by omega), followingBytes]
    congr 2
    omega
  split
  · rename_i three
    simp only [List.cons_append, List.nil_append]
    refine decodeFrom_cons read (leadByte?_three (by omega)) ?_ (by omega)
    rw [followingBytes_cons (by omega), followingBytes_cons (by omega), followingBytes]
    congr 2
    omega
  · simp only [List.cons_append, List.nil_append]
    refine decodeFrom_cons read (leadByte?_four (by omega)) ?_ (by omega)
    rw [followingBytes_cons (by omega), followingBytes_cons (by omega),
      followingBytes_cons (by omega), followingBytes]
    congr 2
    omega

/-! ## Texts -/

/-- So are those of many, by induction on the characters. -/
theorem decodeFrom_flatMap (read cs : List Char) :
    decodeFrom read (cs.flatMap String.utf8EncodeChar) = .ok (read.reverse ++ cs) := by
  induction cs generalizing read with
  | nil => simp [decodeFrom]
  | cons c cs ih => simp [decodeFrom_utf8EncodeChar, ih]

/-- The bytes of an array are listed from a place on. -/
theorem toList_loop (bytes : ByteArray) (i : Nat) (read : List UInt8) :
    ByteArray.toList.loop bytes i read = read.reverse ++ bytes.data.toList.drop i := by
  fun_induction ByteArray.toList.loop bytes i read with
  | case1 i read inside ih =>
    have next : bytes.data.toList.drop i = bytes.data[i] :: bytes.data.toList.drop (i + 1) :=
      List.drop_eq_getElem_cons (by simpa using inside)
    rw [ih, next]
    simp [ByteArray.get!, inside]
  | case2 i read outside =>
    rw [List.drop_eq_nil_of_le (by simpa using outside), List.append_nil]

/-- The bytes of a text are those of its characters in order. -/
theorem toList_toUTF8 (text : String) :
    text.toUTF8.toList = text.toList.flatMap String.utf8EncodeChar := by
  rw [ByteArray.toList, toList_loop, String.toUTF8_eq_toByteArray, ← String.utf8Encode_toList,
    List.utf8Encode]
  simp

/-- The bytes of a text are read as this text. -/
theorem decode_toUTF8 (text : String) : decode text.toUTF8.toList = .ok text := by
  rw [decode, toList_toUTF8, decodeFrom_flatMap]
  simp

end GujaratiScript
