import GujaratiScript.Proofs.Number.Machine
import GujaratiScript.Run.Operation

/-!
# The order of numbers

* `Exact.lt_of_integralPart_lt`, `Exact.lt_of_lt_integralPart` : an integer beside the integral part
  of a number lies on the same side of the number;
* `Value.extended?` : the extended rational that a value is, if it is a number;
* `orderFloats?_eq`, `orderMixed?_eq`, `Value.order?_eq` : numbers have the order of these, also if
  one of them is an integer and the other is not;
* `Value.order?_swap` : the order the other way round;
* `Value.beq_eq_order?` : numbers are equal if the order says so.
-/

namespace GujaratiScript

namespace Exact

variable {m e : Int}

/-! ## Integral parts -/

theorem ratio_ofInt (n : Int) : ratio n 0 = n := by
  simp [ratio]

/-- Only one of the two powers of two is not one. -/
theorem ratio_eq_div (m e : Int) :
    ratio m e = ((m * twoTo e.toNat : Int) : ℚ) / ((twoTo (-e).toNat : Int) : ℚ) := by
  have split : (2 : ℚ) ^ e = 2 ^ e.toNat / 2 ^ (-e).toNat := by
    rw [← zpow_natCast, ← zpow_natCast, ← zpow_sub₀ (by norm_num)]
    congr 1
    omega
  rw [ratio, split]
  push_cast [twoTo_eq_pow]
  ring

/-- The number is a quotient, and its integral part is the quotient of integers. -/
theorem exists_quotient (m e : Int) :
    ∃ a d : Int, 0 < d ∧ ratio m e = a / d ∧ integralPart m e = a.tdiv d :=
  ⟨m * twoTo e.toNat, twoTo (-e).toNat, by exact_mod_cast Nat.two_pow_pos _, ratio_eq_div m e, rfl⟩

/-- What is below the integral part is below the number. -/
theorem lt_of_lt_integralPart {n : Int} (lt : n < integralPart m e) : (n : ℚ) < ratio m e := by
  obtain ⟨a, d, pos, number, part⟩ := exists_quotient m e
  have pos' : (0 : ℚ) < d := by exact_mod_cast pos
  rw [part] at lt
  have parts := Int.mul_tdiv_add_tmod a d
  have rest := Int.lt_tmod_of_pos a pos
  have product : n * d < a := by nlinarith
  rw [number, lt_div_iff₀ pos']
  exact_mod_cast product

/-- What is above the integral part is above the number. -/
theorem lt_of_integralPart_lt {n : Int} (lt : integralPart m e < n) : ratio m e < n := by
  obtain ⟨a, d, pos, number, part⟩ := exists_quotient m e
  have pos' : (0 : ℚ) < d := by exact_mod_cast pos
  rw [part] at lt
  have parts := Int.mul_tdiv_add_tmod a d
  have rest := Int.tmod_lt_of_pos a pos
  have product : a < n * d := by nlinarith
  rw [number, div_lt_iff₀ pos']
  exact_mod_cast product

/-- Above zero the integral part is not above the number. -/
theorem le_of_le_integralPart {n : Int} (above : 0 < n) (le : n ≤ integralPart m e) :
    (n : ℚ) ≤ ratio m e := by
  obtain ⟨a, d, pos, number, part⟩ := exists_quotient m e
  have pos' : (0 : ℚ) < d := by exact_mod_cast pos
  rw [part] at le
  have parts := Int.mul_tdiv_add_tmod a d
  have nonneg : 0 ≤ a := by
    have rest := Int.lt_tmod_of_pos a pos
    nlinarith
  have rest := Int.tmod_nonneg d nonneg
  have product : n * d ≤ a := by nlinarith
  rw [number, le_div_iff₀ pos']
  exact_mod_cast product

/-- An integer has the order of the integral part to a number, and if it is that part, the part has
its own order to the number. -/
theorem cmp_integralPart (n m e : Int) :
    cmp (n : ℚ) (ratio m e) =
      (compare n (integralPart m e)).then (cmp (integralPart m e : ℚ) (ratio m e)) := by
  rcases lt_trichotomy n (integralPart m e) with lt | rfl | gt
  · rw [(cmp_eq_lt_iff _ _).2 (lt_of_lt_integralPart lt), compare_lt_iff_lt.2 lt]
    rfl
  · rw [compare_eq_iff_eq.2 rfl]
    rfl
  · rw [(cmp_eq_gt_iff _ _).2 (lt_of_integralPart_lt gt), compare_gt_iff_gt.2 gt]
    rfl

/-- Inside the range of machine words the integral part is not changed by storing it in one. -/
theorem toInt_toInt64 (low : -2 ^ 63 ≤ ratio m e) (high : ratio m e < 2 ^ 63) :
    (finite (integralPart m e) 0).toInt64.toInt = integralPart m e := by
  have whole : integralPart (integralPart m e) 0 = integralPart m e := by
    simp [integralPart]
  have low' : -2 ^ 63 ≤ integralPart m e := by
    by_contra below
    have := lt_of_integralPart_lt (not_le.1 below)
    push_cast at this
    linarith
  have high' : integralPart m e < 2 ^ 63 := by
    by_contra above
    have := le_of_le_integralPart (by norm_num) (not_lt.1 above)
    push_cast at this
    linarith
  rw [toInt64, whole]
  exact Int64.toInt_ofIntClamp low' (Int.le_sub_one_of_lt high')

end Exact

/-! ## Orders -/

open Exact

/-- Floating-point numbers have the order of their exact values. -/
theorem orderFloats?_eq (x y : Float) : orderFloats? x y = compare? (ofFloat x) (ofFloat y) := by
  rw [orderFloats?]
  simp only [le_iff, compare?_swap (ofFloat x) (ofFloat y), Bool.decide_eq_true]
  rcases compare? (ofFloat x) (ofFloat y) with _ | _ | _ | _ <;> rfl

theorem isLE_cmp {a b : ℚ} : (cmp a b).isLE = true ↔ a ≤ b := by
  rcases lt_trichotomy a b with lt | rfl | gt
  · simp [(cmp_eq_lt_iff _ _).2 lt, lt.le]
  · simp
  · simp [(cmp_eq_gt_iff _ _).2 gt, gt]

theorem ofFloat_integerBound : ofFloat integerBound = finite (2 ^ 52) 11 := by
  decide

theorem ofFloat_neg_integerBound : ofFloat (-integerBound) = finite (-2 ^ 52) 11 := by
  decide

theorem compare_eq_compare_toInt (a b : Int64) : compare a b = compare a.toInt b.toInt := by
  show compareOfLessAndEq a b = compareOfLessAndEq a.toInt b.toInt
  simp only [compareOfLessAndEq, Int64.lt_iff_toInt_lt, ← Int64.toInt_inj]

/-- An integer and a floating-point number have the order of their exact values. -/
theorem orderMixed?_eq (n : Int64) (x : Float) :
    orderMixed? n x = compare? (ofInt n.toInt) (ofFloat x) := by
  -- outside of the range of integers the number is on one side of all of them
  have bound : ratio (2 ^ 52) 11 = 2 ^ 63 := by norm_num [ratio]
  have bound' : ratio (-2 ^ 52) 11 = -2 ^ 63 := by norm_num [ratio]
  have least := n.le_toInt
  have greatest := n.toInt_lt
  rw [orderMixed?]
  simp only [isNaN_iff, le_iff, lt_iff, ofFloat_integerBound, ofFloat_neg_integerBound]
  cases ofFloat x with
  | nan => rfl
  | infinite negative => cases negative <;> rfl
  | finite m e =>
    simp only [ofInt, truncate, compare?_finite, bound, bound', Option.any_some, isLE_cmp,
      Option.some.injEq, cmp_eq_lt_iff, Option.getD_some, ratio_ofInt, reduceCtorEq, if_false]
    by_cases above : 2 ^ 63 ≤ ratio m e
    · have less : (n.toInt : ℚ) < ratio m e := by
        have : (n.toInt : ℚ) < 2 ^ 63 := by exact_mod_cast greatest
        linarith
      rw [if_pos above, (cmp_eq_lt_iff _ _).2 less]
    by_cases below : ratio m e < -2 ^ 63
    · have greater : ratio m e < n.toInt := by
        have : (-2 ^ 63 : ℚ) ≤ n.toInt := by exact_mod_cast least
        linarith
      rw [if_neg above, if_pos below, (cmp_eq_gt_iff _ _).2 greater]
    rw [if_neg above, if_neg below, compare_eq_compare_toInt,
      toInt_toInt64 (not_lt.1 below) (not_le.1 above), ← cmp_integralPart]

namespace Value

variable {u v w : Value} {a b : ExtendedRat}

/-! ## Values -/

/-- The extended rational that a value is, if it is a number. -/
def extended? (v : Value) : Option ExtendedRat := v.amount?.bind Exact.extended?

/-- Whether the value is the floating-point number that is none. -/
def isNan : Value → Bool
  | float x => x.isNaN
  | _ => false

theorem extended?_eq_none_iff (numeric : v.isNumeric = true) :
    v.extended? = none ↔ v.isNan = true := by
  cases v with
  | int n => simp [extended?, amount?, isNan, ofInt, Exact.extended?]
  | float x =>
    rw [isNan, isNaN_iff]
    show (ofFloat x).extended? = none ↔ _
    cases ofFloat x <;> simp [Exact.extended?]
  | _ => cases numeric

theorem exists_extended? (numeric : v.isNumeric = true) (real : v.isNan = false) :
    ∃ a, v.extended? = some a := by
  rw [← Option.ne_none_iff_exists']
  intro none
  rw [(extended?_eq_none_iff numeric).1 none] at real
  cases real

theorem isNumeric_of_extended? (h : v.extended? = some a) : v.isNumeric = true := by
  cases v with
  | int | float => rfl
  | _ => cases h

/-- Numbers have the order of the extended rationals that they are. -/
theorem order?_eq (v w : Value) : v.order? w = Option.map₂ cmp v.extended? w.extended? := by
  cases v with
  | int m =>
    cases w with
    | int n =>
      show some (compare m n) = Option.map₂ cmp (ofInt m.toInt).extended? (ofInt n.toInt).extended?
      rw [compare_eq_compare_toInt, ← compare?_eq, ofInt, ofInt, compare?_finite, ratio_ofInt,
        ratio_ofInt, ← cmp_eq_compare]
      exact congrArg some (Int.cast_strictMono.cmp_map_eq _ _).symm
    | float y =>
      show orderMixed? m y = Option.map₂ cmp (ofInt m.toInt).extended? (ofFloat y).extended?
      rw [orderMixed?_eq, compare?_eq]
    | _ => rfl
  | float x =>
    cases w with
    | int n =>
      show (orderMixed? n x).map Ordering.swap =
        Option.map₂ cmp (ofFloat x).extended? (ofInt n.toInt).extended?
      rw [orderMixed?_eq, ← compare?_swap, compare?_eq]
    | float y =>
      show orderFloats? x y = Option.map₂ cmp (ofFloat x).extended? (ofFloat y).extended?
      rw [orderFloats?_eq, compare?_eq]
    | _ => cases h : (float x).extended? <;> rfl
  | _ => rfl

/-- The other way round, values have the opposite order. -/
theorem order?_swap (v w : Value) : w.order? v = (v.order? w).map Ordering.swap := by
  rw [order?_eq, order?_eq]
  rcases v.extended? with _ | a <;> rcases w.extended? with _ | b <;> try rfl
  exact congrArg some (cmp_swap a b).symm

/-- Numbers are equal if the order says so. -/
theorem beq_eq_order? (hv : v.isNumeric = true) (hw : w.isNumeric = true) :
    (v == w) = (v.order? w == some .eq) := by
  cases v with
  | int m =>
    cases w with
    | int n =>
      show (m == n) = (some (compare m n) == some .eq)
      rw [compare_eq_compare_toInt, Bool.eq_iff_iff]
      simp [Int64.toInt_inj]
    | float y => rfl
    | _ => cases hw
  | float x =>
    cases w with
    | int n =>
      show (orderMixed? n x == some .eq) = ((orderMixed? n x).map Ordering.swap == some .eq)
      rcases orderMixed? n x with _ | _ | _ | _ <;> rfl
    | float y =>
      show (x == y) = (orderFloats? x y == some .eq)
      rw [Exact.beq_eq, orderFloats?_eq]
    | _ => cases hw
  | _ => cases hv

end Value

end GujaratiScript
