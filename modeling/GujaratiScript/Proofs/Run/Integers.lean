import Mathlib.Data.Int.ModEq
import Mathlib.Tactic.Linarith
import GujaratiScript.Run.Operation

/-!
# Arithmetic on integers

* `Integer.sum?_eq`, `Integer.difference?_eq`, `Integer.product?_eq`, `Integer.opposite?_eq` : the
  machine overflows exactly if the exact result is no integer of sixty-four bits;
* `Integer.IsRemainder` : the remainder with the sign of the divisor;
* `Integer.isRemainder_remainder`, `Integer.not_saddOverflow` : the machine finds it, and adding the
  divisor to its own remainder does not overflow;
* `integers_are_exact` : what the operators do with integers.
-/

namespace GujaratiScript

namespace Integer

variable {a b : Int64}

/-! ## Sums, differences, products -/

/-- The integer `n` in a machine word, if it fits into one. -/
def ofInt? (n : Int) : Option Int64 :=
  if minInteger ≤ n ∧ n ≤ maxInteger then some (Int64.ofInt n) else none

/-- A word that overflows exactly if the integer `n` does not fit, and else is that integer. -/
theorem ite_eq_ofInt? {overflows : Bool} {r : Int64} {n : Int}
    (flag : overflows = true ↔ ¬ (minInteger ≤ n ∧ n ≤ maxInteger))
    (value : ¬ overflows = true → r.toInt = n) :
    (if overflows then none else some r) = ofInt? n := by
  rw [ofInt?]
  by_cases flagged : overflows = true
  · rw [if_pos flagged, if_neg (flag.1 flagged)]
  · rw [if_neg flagged, if_pos (not_not.1 fun range => flagged (flag.2 range)), ← value flagged,
      Int64.ofInt_toInt]

/-- The checked sum is the exact one, if that fits. -/
theorem sum?_eq (a b : Int64) : sum? a b = ofInt? (a.toInt + b.toInt) := by
  refine ite_eq_ofInt? ?_ BitVec.toInt_add_of_not_saddOverflow
  simp only [BitVec.saddOverflow, Int64.toInt_toBitVec, Bool.or_eq_true, decide_eq_true_eq,
    minInteger, maxInteger]
  omega

/-- The checked difference is the exact one, if that fits. -/
theorem difference?_eq (a b : Int64) : difference? a b = ofInt? (a.toInt - b.toInt) := by
  refine ite_eq_ofInt? ?_ BitVec.toInt_sub_of_not_ssubOverflow
  simp only [BitVec.ssubOverflow, Int64.toInt_toBitVec, Bool.or_eq_true, decide_eq_true_eq,
    minInteger, maxInteger]
  omega

/-- The checked product is the exact one, if that fits. -/
theorem product?_eq (a b : Int64) : product? a b = ofInt? (a.toInt * b.toInt) := by
  refine ite_eq_ofInt? ?_ BitVec.toInt_mul_of_not_smulOverflow
  simp only [BitVec.smulOverflow, Int64.toInt_toBitVec, Bool.or_eq_true, decide_eq_true_eq,
    minInteger, maxInteger]
  omega

/-- The checked opposite is the exact one, if that fits. -/
theorem opposite?_eq (a : Int64) : opposite? a = ofInt? (-a.toInt) := by
  refine ite_eq_ofInt? ?_ BitVec.toInt_neg_of_not_negOverflow
  have least := a.le_toInt
  have greatest := a.toInt_lt
  simp only [BitVec.negOverflow, Int64.toInt_toBitVec, beq_iff_eq, minInteger, maxInteger]
  omega

/-! ## Remainders -/

/-- `r` leaves the same remainder as `a`, and lies between zero and `b`, which is excluded. -/
structure IsRemainder (a b r : Int) : Prop where
  congruent : r ≡ a [ZMOD b]
  of_pos : 0 < b → 0 ≤ r ∧ r < b
  of_neg : b < 0 → b < r ∧ r ≤ 0

/-- There is only one. -/
theorem IsRemainder.unique {a b r s : Int} (ne : b ≠ 0) (hr : IsRemainder a b r)
    (hs : IsRemainder a b s) : r = s := by
  have dvd : b ∣ s - r := (hr.congruent.trans hs.congruent.symm).dvd
  have near : (s - r).natAbs < b.natAbs := by
    rcases lt_or_gt_of_ne ne with neg | pos
    · have := hr.of_neg neg
      have := hs.of_neg neg
      omega
    · have := hr.of_pos pos
      have := hs.of_pos pos
      omega
  have zero := Int.eq_zero_of_dvd_of_natAbs_lt_natAbs dvd near
  omega

/-- The remainder of the machine is smaller than the divisor. -/
theorem natAbs_tmod_lt (a : Int) {b : Int} (ne : b ≠ 0) : (a.tmod b).natAbs < b.natAbs := by
  rw [Int.natAbs_tmod]
  exact Nat.mod_lt _ (Int.natAbs_pos.2 ne)

/-- The truncated remainder differs from the dividend by a multiple of the divisor. -/
theorem tmod_modEq (a b : Int) : a.tmod b ≡ a [ZMOD b] := by
  rw [Int.modEq_iff_dvd]
  have parts := Int.mul_tdiv_add_tmod a b
  exact ⟨a.tdiv b, by omega⟩

theorem lt_zero_iff (a : Int64) : a < 0 ↔ a.toInt < 0 := Int64.lt_iff_toInt_lt

theorem ne_zero_iff (a : Int64) : a ≠ 0 ↔ a.toInt ≠ 0 := not_congr Int64.toInt_inj.symm

/-- The divisor is added only to a remainder of the other sign, so that their sum lies between. -/
theorem remainder_cases (ne : b ≠ 0) :
    (remainder a b = a % b ∧ ((a % b).toInt = 0 ∨ ((a % b).toInt < 0 ↔ b.toInt < 0))) ∨
    (remainder a b = a % b + b ∧ (a % b).toBitVec.saddOverflow b.toBitVec = false ∧
      ((a % b).toInt < 0 ∧ 0 < b.toInt ∨ 0 < (a % b).toInt ∧ b.toInt < 0)) := by
  have ne' := (ne_zero_iff b).1 ne
  have zero : (0 : Int64).toInt = 0 := rfl
  simp only [remainder, ne_eq, decide_eq_decide, lt_zero_iff, ← Int64.toInt_inj]
  split
  · rename_i differ
    have sides : (a % b).toInt < 0 ∧ 0 < b.toInt ∨ 0 < (a % b).toInt ∧ b.toInt < 0 := by
      omega
    refine .inr ⟨rfl, ?_, sides⟩
    have least := (a % b).le_toInt
    have least' := b.le_toInt
    have greatest := (a % b).toInt_lt
    have greatest' := b.toInt_lt
    simp only [BitVec.saddOverflow, Int64.toInt_toBitVec, Bool.or_eq_false_iff,
      decide_eq_false_iff_not]
    omega
  · rename_i same
    exact .inl ⟨rfl, by omega⟩

/-- A sum that does not overflow is exact. -/
theorem toInt_add_of_free (free : a.toBitVec.saddOverflow b.toBitVec = false) :
    (a + b).toInt = a.toInt + b.toInt :=
  BitVec.toInt_add_of_not_saddOverflow (by rw [free]; nofun)

/-- The machine finds the remainder with the sign of the divisor. -/
theorem isRemainder_remainder (ne : b ≠ 0) :
    IsRemainder a.toInt b.toInt (remainder a b).toInt := by
  have ne' := (ne_zero_iff b).1 ne
  have modEq := tmod_modEq a.toInt b.toInt
  have small := natAbs_tmod_lt a.toInt ne'
  rw [← Int64.toInt_mod] at modEq small
  rcases remainder_cases ne (a := a) with ⟨eq, sides⟩ | ⟨eq, free, sides⟩
  · rw [eq]
    exact ⟨modEq, fun pos => by omega, fun neg => by omega⟩
  · rw [eq, toInt_add_of_free free]
    refine ⟨?_, fun pos => by omega, fun neg => by omega⟩
    exact Int.ModEq.trans (by simp [Int.ModEq]) modEq

end Integer

open Value Integer

/-- The outcome is the integer `z` if that is one of the language, and an overflow otherwise. -/
def IsExact (z : Int) (outcome : Except RunCause Value) : Prop :=
  (minInteger ≤ z ∧ z ≤ maxInteger → ∃ n : Int64, n.toInt = z ∧ outcome = .ok (.int n)) ∧
  (¬ (minInteger ≤ z ∧ z ≤ maxInteger) → outcome = .error .integerOverflow)

/-- The operator gives the floored remainder, or refuses zero. -/
theorem modulo_eq (a b : Int64) :
    operate .modulo (int a) (int b) =
      if b = 0 then .error .moduloByZero else .ok (.int (remainder a b)) := rfl

theorem isExact_ofInt? (z : Int) : IsExact z (ofInteger? (ofInt? z)) := by
  constructor
  · intro range
    refine ⟨Int64.ofInt z, Int64.toInt_ofInt_of_le range.1 (Int.lt_add_one_of_le range.2), ?_⟩
    rw [ofInt?, if_pos range, ofInteger?]
  · intro outside
    rw [ofInt?, if_neg outside, ofInteger?]

/-- Sums, differences, products and opposites of integers are exact, or fail if the exact result is
no integer of the language. The remainder fails exactly if the divisor is zero; otherwise it is the
only one with the sign of the divisor, and neither of the two steps to it wraps around. -/
theorem integers_are_exact (a b : Int64) :
    IsExact (a.toInt + b.toInt) (operate .add (int a) (int b)) ∧
    IsExact (a.toInt - b.toInt) (operate .subtract (int a) (int b)) ∧
    IsExact (a.toInt * b.toInt) (operate .multiply (int a) (int b)) ∧
    IsExact (-a.toInt) (negate (int a)) ∧
    (operate .modulo (int a) (int b) = .error .moduloByZero ↔ b = 0) ∧
    (b ≠ 0 → ∃ r : Int64, operate .modulo (int a) (int b) = .ok (.int r) ∧
      IsRemainder a.toInt b.toInt r.toInt ∧
      (∀ z, IsRemainder a.toInt b.toInt z → z = r.toInt) ∧
      (a % b).toInt = a.toInt.tmod b.toInt ∧
      (r = a % b ∨ r = a % b + b ∧ r.toInt = (a % b).toInt + b.toInt)) := by
  refine ⟨?_, ?_, ?_, ?_, ?_, fun ne => ⟨remainder a b, ?_, ?_, ?_, ?_, ?_⟩⟩
  · show IsExact _ (ofInteger? (sum? a b))
    rw [sum?_eq]
    exact isExact_ofInt? _
  · show IsExact _ (ofInteger? (difference? a b))
    rw [difference?_eq]
    exact isExact_ofInt? _
  · show IsExact _ (ofInteger? (product? a b))
    rw [product?_eq]
    exact isExact_ofInt? _
  · show IsExact _ (ofInteger? (opposite? a))
    rw [opposite?_eq]
    exact isExact_ofInt? _
  · rw [modulo_eq]
    by_cases zero : b = 0 <;> simp [zero]
  · rw [modulo_eq, if_neg ne]
  · exact isRemainder_remainder ne
  · intro z hz
    exact hz.unique ((ne_zero_iff b).1 ne) (isRemainder_remainder ne)
  · exact Int64.toInt_mod a b
  · -- the one addition that may be left has operands of opposite signs
    rcases remainder_cases ne (a := a) with ⟨eq, -⟩ | ⟨eq, free, -⟩
    · exact .inl eq
    · refine .inr ⟨eq, ?_⟩
      rw [eq]
      exact toInt_add_of_free free

/-- The least integer: its opposite overflows, but its remainder by minus one is found. -/
theorem integers_are_exact_least :
    negate (int Int64.minValue) = .error .integerOverflow ∧
    (-1 : Int64) ≠ 0 ∧ operate .modulo (int Int64.minValue) (int (-1)) = .ok (.int 0) := by
  have ne : (-1 : Int64) ≠ 0 := by decide
  obtain ⟨-, -, -, opposite, -, modulo⟩ := integers_are_exact Int64.minValue (-1)
  obtain ⟨r, found, -, only, -⟩ := modulo ne
  have zero : 0 = r.toInt := only 0 ⟨by decide, nofun, by decide⟩
  obtain rfl : r = 0 := Int64.toInt_inj.1 zero.symm
  exact ⟨opposite.2 (by decide), ne, found⟩

end GujaratiScript
