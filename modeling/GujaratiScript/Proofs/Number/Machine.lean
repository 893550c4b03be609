import Mathlib
import GujaratiScript.Proofs.Number.Extended

/-!
# Comparisons of machine numbers

The machine compares floating-point numbers by sign, exponent and mantissa. That is the order of
their exact values because the numbers are kept in a canonical form, where a greater exponent means
a greater number.

* `Exact.Canonical` : a mantissa of fifty-three bits that are all used if the exponent allows it;
* `Exact.canonical_ofFloat` : every floating-point number is in this form;
* `Exact.ofUnpacked`, `Exact.ofFloat_eq` : the bits of a number, and its unpacked form;
* `Exact.compare_toModel` : the machine orders numbers by their exact values;
* `Exact.le_iff`, `Exact.lt_iff`, `Exact.beq_eq`, `Exact.isNaN_iff` : so do its operators.
-/

namespace GujaratiScript

open Float.Model UnpackedFloat

namespace Exact

variable {m n : Nat} {e f : Int}

/-! ## Canonical forms -/

/-- The mantissa fits into fifty-three bits, and fills them unless the exponent is the least. -/
def Canonical : Exact → Prop
  | finite m e => m.natAbs < 2 ^ 53 ∧ -1074 ≤ e ∧ (2 ^ 52 ≤ m.natAbs ∨ e = -1074)
  | _ => True

/-- The form does not depend on the sign. -/
theorem canonical_neg {m : Int} : (finite (-m) e).Canonical ↔ (finite m e).Canonical := by
  simp [Canonical]

/-- The eleven bits of the exponent. -/
theorem toNat_exponent (bits : UInt64) :
    ((bits >>> 52) &&& 0x7FF).toNat = bits.toNat / 2 ^ 52 % 2 ^ 11 := by
  simp only [UInt64.toNat_and, UInt64.toNat_shiftRight, Nat.shiftRight_eq_div_pow]
  exact Nat.and_two_pow_sub_one_eq_mod _ 11

/-- The fifty-two bits of the mantissa. -/
theorem toNat_fraction (bits : UInt64) :
    (bits &&& 0xFFFFFFFFFFFFF).toNat = bits.toNat % 2 ^ 52 := by
  rw [UInt64.toNat_and]
  exact Nat.and_two_pow_sub_one_eq_mod _ 52

/-- The bit of the sign. -/
theorem toNat_sign (bits : UInt64) : (bits >>> 63).toNat = bits.toNat / 2 ^ 63 := by
  simp [Nat.shiftRight_eq_div_pow]

/-- Whatever the bits are, the number is in canonical form. -/
theorem canonical_ofBits (bits : UInt64) : (ofBits bits).Canonical := by
  have fraction : bits.toNat % 2 ^ 52 < 2 ^ 52 := Nat.mod_lt _ (by decide)
  have signed : ∀ (c : Bool) (m : Nat), (if c = true then -(m : Int) else m).natAbs = m := by
    intro c m
    cases c <;> simp
  rw [ofBits, toNat_exponent, toNat_fraction]
  dsimp only
  split
  · split <;> trivial
  split
  · refine ⟨?_, by decide, .inr rfl⟩
    rw [signed]
    omega
  · have full : twoTo 52 = 2 ^ 52 := rfl
    refine ⟨?_, by omega, .inl ?_⟩ <;> rw [signed] <;> omega

/-- Every floating-point number is in canonical form. -/
theorem canonical_ofFloat (x : Float) : (ofFloat x).Canonical := canonical_ofBits _

/-! ## The order of canonical numbers -/

/-- A mantissa of zero is zero under every exponent. -/
theorem ratio_zero : ratio 0 e = 0 := by
  simp [ratio]

/-- The value of the negated mantissa is negated. -/
theorem ratio_neg (m : Int) : ratio (-m) e = -ratio m e := by
  simp [ratio]

/-- A positive mantissa is a positive value. -/
theorem ratio_pos (hm : 0 < m) : 0 < ratio m e := by
  have pos : (0 : ℚ) < m := by exact_mod_cast hm
  simp only [ratio, Int.cast_natCast]
  positivity

/-- Of two canonical numbers above zero, the one with the greater exponent is greater: its mantissa
has all bits, and one more bit outweighs the other mantissa. -/
theorem ratio_lt_of_lt (hm : (finite m e).Canonical) (hn : (finite n f).Canonical) (lt : e < f) :
    ratio m e < ratio n f := by
  obtain ⟨small, least, -⟩ := hm
  obtain ⟨-, -, full⟩ := hn
  have small' : (m : ℚ) < 2 ^ 53 := by exact_mod_cast small
  have full' : (2 : ℚ) ^ 52 ≤ n := by
    have : 2 ^ 52 ≤ n := full.resolve_right (by omega)
    exact_mod_cast this
  calc ratio m e
    _ = (m : ℚ) * 2 ^ e := rfl
    _ < 2 ^ 53 * 2 ^ e := mul_lt_mul_of_pos_right small' (by positivity)
    _ = 2 ^ 52 * 2 ^ (e + 1) := by
      rw [zpow_add₀ (by norm_num)]
      ring
    _ ≤ n * 2 ^ f := by
      have : (2 : ℚ) ^ (e + 1) ≤ 2 ^ f := zpow_le_zpow_right₀ (by norm_num) (by omega)
      gcongr

/-- Canonical numbers above zero are ordered by their exponents, and then by their mantissas. -/
theorem cmp_ratio (hm : (finite m e).Canonical) (hn : (finite n f).Canonical) :
    cmp (ratio m e) (ratio n f) = (compare e f).then (compare m n) := by
  rcases lt_trichotomy e f with lt | rfl | gt
  · rw [(cmp_eq_lt_iff _ _).2 (ratio_lt_of_lt hm hn lt), compare_lt_iff_lt.2 lt]
    rfl
  · have pos : (0 : ℚ) < 2 ^ e := by positivity
    rw [compare_eq_iff_eq.2 rfl, ratio, ratio, cmp_mul_pos_right pos, ← cmp_eq_compare]
    exact Nat.strictMono_cast.cmp_map_eq m n
  · rw [(cmp_eq_gt_iff _ _).2 (ratio_lt_of_lt hn hm gt), compare_gt_iff_gt.2 gt]
    rfl

/-! ## Unpacked numbers -/

/-- Whether a sign is that of the negative numbers. -/
def isMinus : Sign → Bool
  | .negative => true
  | .positive => false

/-- A sign applied to a magnitude. -/
theorem apply_eq (s : Sign) (m : Nat) : s.apply m = if isMinus s = true then -(m : Int) else m := by
  cases s <;> rfl

/-- The value of an unpacked number. -/
def ofUnpacked : UnpackedFloat → Exact
  | .notANumber => nan
  | .infinity s => infinite (isMinus s)
  | .zero _ => finite 0 (-1074)
  | .finite s m e _ => finite (s.apply m) e

/-- The mantissa, as the machine unpacks it. -/
theorem toNat_unpackMantissa (b : BitVec 64) :
    (@unpackMantissa .binary64 b).toNat = b.toNat % 2 ^ 52 := by
  simp [unpackMantissa]

/-- The exponent, as the machine unpacks it. -/
theorem toNat_unpackExponent (b : BitVec 64) :
    (@unpackExponent .binary64 b).toNat = b.toNat / 2 ^ 52 % 2 ^ 11 := by
  simp [unpackExponent, Nat.shiftRight_eq_div_pow]

/-- The sign, as the machine unpacks it. -/
theorem toNat_unpackSign (b : BitVec 64) :
    (@unpackSign .binary64 b).toNat = b.toNat / 2 ^ 63 := by
  have small : b.toNat < 2 ^ 64 := b.isLt
  have bit : b.toNat / 2 ^ 63 % 2 = b.toNat / 2 ^ 63 := by omega
  simpa [unpackSign, Nat.shiftRight_eq_div_pow] using bit

/-- The unpacked sign is that of negative numbers if the first bit is set. -/
theorem isMinus_unpackSign (bits : UInt64) :
    isMinus (.ofBitVec (@unpackSign .binary64 bits.toBitVec)) = (bits >>> 63 == 1) := by
  have same : (@unpackSign .binary64 bits.toBitVec).toNat = (bits >>> 63).toNat := by
    rw [toNat_unpackSign, toNat_sign]
    rfl
  have small : (@unpackSign .binary64 bits.toBitVec).toNat < 2 := BitVec.isLt _
  by_cases zero : @unpackSign .binary64 bits.toBitVec = 0#1
  · have none : bits >>> 63 = 0 := by
      rw [← UInt64.toNat_inj, ← same, zero]
      rfl
    rw [Sign.ofBitVec, if_pos zero, none]
    rfl
  · have one : bits >>> 63 = 1 := by
      have ne : (@unpackSign .binary64 bits.toBitVec).toNat ≠ 0 := fun eq =>
        zero (BitVec.eq_of_toNat_eq eq)
      rw [← UInt64.toNat_inj, ← same]
      show _ = 1
      omega
    rw [Sign.ofBitVec, if_neg zero, one]
    rfl

/-- The bits of a number and its unpacked form stand for the same value. -/
theorem ofBits_eq (bits : UInt64) :
    ofBits bits = ofUnpacked (UnpackedFloat.unpack .binary64 bits.toBitVec) := by
  have exponent := toNat_unpackExponent bits.toBitVec
  have fraction := toNat_unpackMantissa bits.toBitVec
  have full : @unpackExponent .binary64 bits.toBitVec = -1#_ ↔
      bits.toNat / 2 ^ 52 % 2 ^ 11 = 0x7FF := by
    rw [← BitVec.toNat_inj, exponent]
    rfl
  have least : @unpackExponent .binary64 bits.toBitVec = 0#_ ↔
      bits.toNat / 2 ^ 52 % 2 ^ 11 = 0 := by
    rw [← BitVec.toNat_inj, exponent]
    rfl
  have empty : @unpackMantissa .binary64 bits.toBitVec = 0#_ ↔
      bits.toNat % 2 ^ 52 = 0 := by
    rw [← BitVec.toNat_inj, fraction]
    rfl
  have bias : (Format.exponentBias .binary64 : Int) = 1023 := rfl
  -- a normal number does not store its leading bit
  have hidden : (1#1 ++ @unpackMantissa .binary64 bits.toBitVec).toNat =
      twoTo 52 + bits.toNat % 2 ^ 52 := by
    rw [BitVec.toNat_append, ← Nat.shiftLeft_add_eq_or_of_lt (BitVec.isLt _), fraction]
    rfl
  rw [ofBits, toNat_exponent, toNat_fraction, UnpackedFloat.unpack]
  simp only [full, least, empty, ← isMinus_unpackSign, ← apply_eq]
  by_cases special : bits.toNat / 2 ^ 52 % 2 ^ 11 = 0x7FF
  · rw [if_pos special, if_pos special]
    by_cases zero : bits.toNat % 2 ^ 52 = 0
    · rw [if_pos zero, if_pos zero, ofUnpacked]
    · rw [if_neg zero, if_neg zero, ofUnpacked]
  rw [if_neg special, if_neg special]
  by_cases low : bits.toNat / 2 ^ 52 % 2 ^ 11 = 0
  · rw [if_pos low, if_pos low]
    by_cases zero : bits.toNat % 2 ^ 52 = 0
    · rw [dif_pos zero, zero, ofUnpacked, apply_eq]
      simp
    · rw [dif_neg zero, ofUnpacked, fraction, exponent, bias]
      simp only [UInt64.toNat_toBitVec, low]
      rfl
  · rw [if_neg low, if_neg low, ofUnpacked, hidden, exponent, bias]
    rfl

/-- The exact value of a number is that of its unpacked form. -/
theorem ofFloat_eq (x : Float) : ofFloat x = ofUnpacked x.toModel.unpack := ofBits_eq _

/-! ## The order of unpacked numbers -/

/-- Beside zero the sign decides. -/
theorem cmp_zero_ratio (s : Sign) (hn : 0 < n) :
    cmp 0 (ratio (s.apply n) f) = if isMinus s = true then .gt else .lt := by
  have pos := ratio_pos (e := f) hn
  cases s with
  | positive => exact (cmp_eq_lt_iff _ _).2 pos
  | negative =>
    refine (cmp_eq_gt_iff _ _).2 ?_
    rw [Sign.apply, ratio_neg]
    exact neg_lt_zero.2 pos

/-- Finite numbers are ordered by their values: of canonical forms the exponent decides first. -/
theorem compare_finite {s t : Sign} (hm : 0 < m) (hn : 0 < n)
    (cm : (finite (s.apply m) e).Canonical) (cn : (finite (t.apply n) f).Canonical) :
    (UnpackedFloat.finite s m e hm).compare (.finite t n f hn) =
      some (cmp (ratio (s.apply m) e) (ratio (t.apply n) f)) := by
  have pos := ratio_pos (e := e) hm
  have pos' := ratio_pos (e := f) hn
  cases s with
  | positive =>
    cases t with
    | positive => exact congrArg some (cmp_ratio cm cn).symm
    | negative =>
      refine congrArg some ((cmp_eq_gt_iff _ _).2 ?_).symm
      simp only [Sign.apply, ratio_neg]
      linarith
  | negative =>
    cases t with
    | positive =>
      refine congrArg some ((cmp_eq_lt_iff _ _).2 ?_).symm
      simp only [Sign.apply, ratio_neg]
      linarith
    | negative =>
      -- below zero everything is the other way round
      have mirrored := cmp_ratio (canonical_neg.1 cm) (canonical_neg.1 cn)
      refine congrArg some ?_
      simp only [Sign.apply, ratio_neg]
      rw [← mirrored, cmp_swap]
      have anti : StrictAnti fun x : ℚ => -x := fun _ _ => neg_lt_neg
      exact (anti.cmp_map_eq _ _).symm

/-- Unpacked numbers in canonical form are compared by their values. -/
theorem compare_unpacked {a b : UnpackedFloat} (ha : (ofUnpacked a).Canonical)
    (hb : (ofUnpacked b).Canonical) : a.compare b = compare? (ofUnpacked a) (ofUnpacked b) := by
  -- a zero has no exponent of its own, so it is compared by its sign alone
  cases a with
  | notANumber => cases b <;> rfl
  | infinity s =>
    cases b with
    | infinity t => cases s <;> cases t <;> rfl
    | _ => cases s <;> rfl
  | zero s =>
    cases b with
    | notANumber => rfl
    | infinity t => cases t <;> rfl
    | zero t => rfl
    | finite t n f hn =>
      show _ = some (compareFinite 0 (-1074) (t.apply n) f)
      rw [compareFinite_eq, ratio_zero, cmp_zero_ratio t hn]
      cases t <;> rfl
  | finite s m e hm =>
    cases b with
    | notANumber => cases s <;> rfl
    | infinity t => cases s <;> cases t <;> rfl
    | zero t =>
      show _ = some (compareFinite (s.apply m) e 0 (-1074))
      rw [compareFinite_eq, ratio_zero, ← cmp_swap, cmp_zero_ratio s hm]
      cases s <;> rfl
    | finite t n f hn =>
      show _ = some (compareFinite (s.apply m) e (t.apply n) f)
      rw [compareFinite_eq, compare_finite hm hn ha hb]

/-! ## Operators -/

/-- The machine orders floating-point numbers by their exact values. -/
theorem compare_toModel (x y : Float) :
    x.toModel.compare y.toModel = compare? (ofFloat x) (ofFloat y) := by
  have hx := canonical_ofFloat x
  have hy := canonical_ofFloat y
  rw [ofFloat_eq] at hx hy
  rw [ofFloat_eq, ofFloat_eq]
  exact compare_unpacked hx hy

/-- The machine's "at most" is that of the exact values. -/
theorem le_iff (x y : Float) :
    x ≤ y ↔ (compare? (ofFloat x) (ofFloat y)).any Ordering.isLE = true := by
  have unfolded : x ≤ y ↔ decide (x.toModel ≤ y.toModel) = true := Iff.rfl
  rw [← compare_toModel, unfolded, decide_eq_true_iff]
  rfl

/-- The machine's "less" is that of the exact values. -/
theorem lt_iff (x y : Float) : x < y ↔ compare? (ofFloat x) (ofFloat y) = some .lt := by
  have unfolded : x < y ↔ decide (x.toModel < y.toModel) = true := Iff.rfl
  rw [← compare_toModel, unfolded, decide_eq_true_iff]
  exact beq_iff_eq

/-- The machine's equality is that of the exact values. -/
theorem beq_eq (x y : Float) : (x == y) = (compare? (ofFloat x) (ofFloat y) == some .eq) := by
  rw [← compare_toModel]
  rfl

/-- The machine knows what is not a number. -/
theorem isNaN_iff (x : Float) : x.isNaN = true ↔ ofFloat x = nan := by
  have unfolded : x.isNaN = x.toModel.unpack.isNaN := rfl
  rw [unfolded, ofFloat_eq]
  cases x.toModel.unpack <;> simp [UnpackedFloat.isNaN, ofUnpacked]

end Exact

end GujaratiScript
