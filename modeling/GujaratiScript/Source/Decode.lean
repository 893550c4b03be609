/-!
# Reading bytes as UTF-8

A source file is read one character at a time, and the first bytes that are no character stop it.

* `decode` : the text that the bytes stand for, or why they stand for none.
-/

namespace GujaratiScript

/-- Why bytes are no text. -/
inductive DecodeFault where
  /-- A byte, or the number that several bytes stand for, has no place in UTF-8. -/
  | invalid
  /-- The bytes end inside a character. -/
  | cutOff
  deriving DecidableEq, Repr, Inhabited

/-- What the first byte of a character says: how many bytes follow, the bits it holds itself, and
the least number that needs so many bytes. -/
def leadByte? (b : UInt8) : Option (Nat × Nat × Nat) :=
  let n := b.toNat
  if n < 0x80 then some (0, n, 0)
  else if n < 0xC0 then none
  else if n < 0xE0 then some (1, n - 0xC0, 0x80)
  else if n < 0xF0 then some (2, n - 0xE0, 0x800)
  else if n < 0xF8 then some (3, n - 0xF0, 0x10000)
  else none

/-- Reads `count` more bytes of a character whose bits so far are `bits`. -/
def followingBytes : (count bits : Nat) → List UInt8 → Except DecodeFault (Nat × List UInt8)
  | 0, bits, bytes => .ok (bits, bytes)
  | _ + 1, _, [] => .error .cutOff
  | n + 1, bits, b :: bytes =>
    if 0x80 ≤ b.toNat ∧ b.toNat < 0xC0 then
      followingBytes n (bits * 64 + (b.toNat - 0x80)) bytes
    else .error .invalid

/-- Reading more bytes takes none back. -/
theorem length_followingBytes {count bits n : Nat} {bytes rest : List UInt8}
    (h : followingBytes count bits bytes = .ok (n, rest)) : rest.length ≤ bytes.length := by
  fun_induction followingBytes count bits bytes with
  | case1 bits bytes =>
    simp only [Except.ok.injEq, Prod.mk.injEq] at h
    simp [h.2]
  | case2 => simp at h
  | case3 n bits b bytes _ ih =>
    have := ih h
    simp only [List.length_cons]
    omega
  | case4 => simp at h

/-- The character with the code point `n`, which must need no fewer bytes than `least` does. -/
def character? (n least : Nat) : Option Char :=
  if _h : least ≤ n ∧ n.isValidChar then some (Char.ofNatAux n _h.2) else none

/-- The characters of the bytes, after those already read (last first). -/
def decodeFrom (read : List Char) (bytes : List UInt8) : Except DecodeFault (List Char) :=
  match bytes with
  | [] => .ok read.reverse
  | b :: rest =>
    match leadByte? b with
    | none => .error .invalid
    | some (count, bits, least) =>
      match _h : followingBytes count bits rest with
      | .error fault => .error fault
      | .ok (n, rest') =>
        match character? n least with
        | none => .error .invalid
        | some c => decodeFrom (c :: read) rest'
termination_by bytes.length
decreasing_by
  have := length_followingBytes _h
  simp only [List.length_cons]
  omega

/-- The text that bytes stand for. -/
def decode (bytes : List UInt8) : Except DecodeFault String :=
  match decodeFrom [] bytes with
  | .ok cs => .ok (String.ofList cs)
  | .error fault => .error fault

end GujaratiScript
