import GujaratiScript.Proofs.Value.Comparison

/-!
# Equal values

Values that are equal cannot be told apart, although they may be of two kinds or be zeros of two
signs.

* `Exact.eq_of_ratio_eq`, `Exact.eq_of_extended?_eq` : canonical values are determined by the
  extended rational that they are;
* `Value.exactText_of_ratio` : a number that is an integer is written as that integer;
* `Value.text_eq`, `Value.isTruthy_eq` : the text and the truth of a number depend on nothing else;
* `equal_values_are_alike` : equal values have the same text, truth, equality and order.
-/

namespace GujaratiScript

namespace Exact

variable {m n e f : Int}

/-! ## Canonical values -/

theorem ratio_eq_zero_iff : ratio m e = 0 ↔ m = 0 := by
  have ne : (2 : ℚ) ^ e ≠ 0 := zpow_ne_zero e (by norm_num)
  rw [ratio, mul_eq_zero, or_iff_left ne, Int.cast_eq_zero]

theorem ratio_pos_iff : 0 < ratio m e ↔ 0 < m := by
  have pos : (0 : ℚ) < 2 ^ e := by positivity
  rw [ratio, mul_pos_iff_of_pos_right pos, Int.cast_pos]

theorem ratio_lt_zero_iff : ratio m e < 0 ↔ m < 0 := by
  rw [← neg_pos, ← ratio_neg, ratio_pos_iff, neg_pos]

/-- Canonical values above zero that are the same number are the same value. -/
theorem eq_of_ratio_eq_of_pos (hm : (finite m e).Canonical) (hn : (finite n f).Canonical)
    (pos : 0 < m) (pos' : 0 < n) (same : ratio m e = ratio n f) : m = n ∧ e = f := by
  obtain ⟨k, rfl⟩ := Int.eq_ofNat_of_zero_le pos.le
  obtain ⟨l, rfl⟩ := Int.eq_ofNat_of_zero_le pos'.le
  have order := cmp_ratio hm hn
  rw [same, cmp_self_eq_eq, eq_comm, Ordering.then_eq_eq] at order
  exact ⟨congrArg _ (compare_eq_iff_eq.1 order.2), compare_eq_iff_eq.1 order.1⟩

/-- Canonical values that are the same number are the same value. -/
theorem eq_of_ratio_eq (hm : (finite m e).Canonical) (hn : (finite n f).Canonical)
    (same : ratio m e = ratio n f) : m = n ∧ e = f := by
  rcases lt_trichotomy m 0 with neg | rfl | pos
  · have neg' : n < 0 := ratio_lt_zero_iff.1 (same ▸ ratio_lt_zero_iff.2 neg)
    have mirrored : ratio (-m) e = ratio (-n) f := by rw [ratio_neg, ratio_neg, same]
    obtain ⟨eq, eq'⟩ := eq_of_ratio_eq_of_pos (canonical_neg.2 hm) (canonical_neg.2 hn)
      (neg_pos.2 neg) (neg_pos.2 neg') mirrored
    exact ⟨neg_injective eq, eq'⟩
  · have zero : n = 0 := ratio_eq_zero_iff.1 (same ▸ ratio_zero)
    subst zero
    -- zero has the least exponent, for its mantissa does not have all bits
    exact ⟨rfl, (hm.2.2.resolve_left (by decide)).trans (hn.2.2.resolve_left (by decide)).symm⟩
  · have pos' : 0 < n := ratio_pos_iff.1 (same ▸ ratio_pos_iff.2 pos)
    exact eq_of_ratio_eq_of_pos hm hn pos pos' same

/-- Only a mantissa with an exponent is a rational number. -/
theorem eq_finite_of_extended? {a : Exact} {q : ℚ}
    (h : a.extended? = some ((q : WithTop ℚ) : ExtendedRat)) :
    ∃ m e, a = finite m e ∧ ratio m e = q := by
  cases a with
  | nan => cases h
  | infinite s => cases s <;> cases h
  | finite m e => exact ⟨m, e, rfl, some_coe_inj.1 h⟩

/-- Canonical values are determined by the extended rational that they are. -/
theorem eq_of_extended?_eq {a b : Exact} (ha : a.Canonical) (hb : b.Canonical)
    (same : a.extended? = b.extended?) : a = b := by
  cases a with
  | nan =>
    cases b with
    | nan => rfl
    | _ => cases same
  | infinite s =>
    cases b with
    | nan => cases same
    | infinite t => cases s <;> cases t <;> first | rfl | cases same
    | finite n f => cases s <;> cases same
  | finite m e =>
    obtain ⟨n, f, rfl, number⟩ := eq_finite_of_extended? same.symm
    obtain ⟨rfl, rfl⟩ := eq_of_ratio_eq hb ha number
    rfl

end Exact

namespace Value

open Exact

variable {v w : Value} {m e z : Int} {x : ExtendedRat}

/-! ## Texts -/

theorem toString_int (z : Int) : toString z = (if z < 0 then "-" else "") ++ toString z.natAbs := by
  cases z with
  | ofNat n =>
    rw [if_neg (by simp)]
    simp
    rfl
  | negSucc n =>
    rw [if_pos (Int.negSucc_lt_zero n)]
    rfl

/-- A number that is an integer is written as that integer. -/
theorem exactText_of_ratio (same : ratio m e = z) : exactText (finite m e) = toString z := by
  have sign : m < 0 ↔ z < 0 := by
    rw [← ratio_lt_zero_iff (e := e), same, Int.cast_lt_zero]
  have product : m * twoTo e.toNat = z * twoTo (-e).toNat := by
    have pos : ((twoTo (-e).toNat : Int) : ℚ) ≠ 0 := by
      rw [twoTo_eq_pow]
      positivity
    rw [ratio_eq_div, div_eq_iff pos] at same
    exact_mod_cast same
  have product' : m.natAbs * 2 ^ e.toNat = z.natAbs * 2 ^ (-e).toNat := by
    have := congrArg Int.natAbs product
    simpa [Int.natAbs_mul, Int.natAbs_pow] using this
  have pos : 0 < 2 ^ (-e).toNat := Nat.two_pow_pos _
  -- one of the two powers is one, according to the sign of the exponent
  have whole : m.natAbs % 2 ^ (-e).toNat = 0 ∧
      m.natAbs / 2 ^ (-e).toNat * 2 ^ e.toNat = z.natAbs := by
    rcases Int.le_total 0 e with le | le
    · have one : (-e).toNat = 0 := by omega
      rw [one, pow_zero, mul_one] at product'
      rw [one, pow_zero, Nat.mod_one, Nat.div_one]
      exact ⟨rfl, product'⟩
    · have one : e.toNat = 0 := by omega
      rw [one, pow_zero, mul_one] at product'
      rw [product', one, pow_zero, mul_one]
      exact ⟨Nat.mul_mod_left _ _, Nat.mul_div_cancel _ pos⟩
  rw [exactText, toString_int]
  simp only [sign, twoTo_eq_pow, whole, if_pos]

theorem extended?_int (n : Int64) :
    (int n).extended? = some (((n.toInt : ℚ) : WithTop ℚ) : ExtendedRat) := by
  show (ofInt n.toInt).extended? = _
  rw [ofInt, Exact.extended?, ratio_ofInt]

/-- So is every value that is an integer, of whichever kind. -/
theorem text_of_integer (h : v.extended? = some (((z : ℚ) : WithTop ℚ) : ExtendedRat)) :
    v.text = toString z := by
  cases v with
  | int n =>
    have same : (n.toInt : ℚ) = z := some_coe_inj.1 ((extended?_int n).symm.trans h)
    rw [text, Int.cast_injective same]
  | float y =>
    obtain ⟨m, e, eq, number⟩ := eq_finite_of_extended? (a := ofFloat y) h
    rw [text, eq]
    exact exactText_of_ratio number
  | _ => cases h

/-- Numbers that are the same extended rational have the same text. -/
theorem text_eq (hv : v.extended? = some x) (hw : w.extended? = some x) : v.text = w.text := by
  cases v with
  | int n =>
    obtain rfl := Option.some.inj ((extended?_int n).symm.trans hv)
    rw [text_of_integer hv, text_of_integer hw]
  | float y =>
    cases w with
    | int n =>
      obtain rfl := Option.some.inj ((extended?_int n).symm.trans hw)
      rw [text_of_integer hv, text_of_integer hw]
    | float z =>
      have same : (ofFloat y).extended? = (ofFloat z).extended? := Eq.trans hv hw.symm
      rw [text, text, eq_of_extended?_eq (canonical_ofFloat y) (canonical_ofFloat z) same]
    | _ => cases hw
  | _ => cases hv

/-- A number is truthy if it is not zero. -/
theorem isTruthy_eq (h : v.extended? = some x) : v.isTruthy = decide (x ≠ 0) := by
  -- a finite value is zero among the extended ones iff it is zero
  have coe : ∀ q : ℚ, ((q : WithTop ℚ) : ExtendedRat) = 0 ↔ q = 0 := by
    intro q
    exact_mod_cast Iff.rfl
  cases v with
  | int n =>
    obtain rfl := Option.some.inj ((extended?_int n).symm.trans h)
    have zero : n = 0 ↔ n.toInt = 0 := Int64.toInt_inj.symm
    rw [isTruthy, Bool.eq_iff_iff]
    simp [coe, zero]
  | float y =>
    have h' : (ofFloat y).extended? = some x := h
    rw [isTruthy]
    cases eq : ofFloat y with
    | nan =>
      rw [eq] at h'
      cases h'
    | infinite s =>
      rw [eq] at h'
      obtain rfl := Option.some.inj h'
      cases s with
      | true => rfl
      | false => exact (decide_eq_true (nofun : (⊤ : ExtendedRat) ≠ 0)).symm
    | finite m e =>
      rw [eq] at h'
      obtain rfl := Option.some.inj h'
      simp [isZero, coe, ratio_eq_zero_iff]
  | _ => cases h

/-! ## Contents -/

theorem extended?_of_content? {c : Content} (h : v.content? = some c) :
    v.extended? = c.number? := by
  cases v with
  | int | float =>
    rw [content?_of_isNumeric rfl] at h
    obtain ⟨x, eq, rfl⟩ := Option.map_eq_some_iff.1 h
    exact eq
  | _ =>
    cases h
    rfl

/-- A content that is no number belongs to one value only. -/
theorem eq_of_content? {c : Content} (hv : v.content? = some c) (hw : w.content? = some c)
    (other : c.number? = none) : v = w := by
  have kind := isNumeric_of_content? hv
  have kind' := isNumeric_of_content? hw
  rw [other] at kind kind'
  cases v with
  | int | float => cases kind
  | _ =>
    cases hv
    cases w with
    | int | float => cases kind'
    | _ => cases hw <;> rfl

end Value

open Value

/-- Values that are equal have the same text and the same truth, are equal to the same values, and
have the same order to every value. -/
theorem equal_values_are_alike (v w : Value) (equal : (v == w) = true) :
    v.text = w.text ∧ v.isTruthy = w.isTruthy ∧
    ∀ u : Value, (v == u) = (w == u) ∧ (u == v) = (u == w) ∧
      v.order? u = w.order? u ∧ u.order? v = u.order? w := by
  obtain ⟨c, hv, hw⟩ := beq_iff.1 equal
  have number : v.extended? = w.extended? :=
    (extended?_of_content? hv).trans (extended?_of_content? hw).symm
  have shown : v.text = w.text ∧ v.isTruthy = w.isTruthy := by
    cases known : c.number? with
    | some x =>
      have hv' := (extended?_of_content? hv).trans known
      have hw' := (extended?_of_content? hw).trans known
      exact ⟨text_eq hv' hw', (isTruthy_eq hv').trans (isTruthy_eq hw').symm⟩
    | none =>
      rw [eq_of_content? hv hw known]
      exact ⟨rfl, rfl⟩
  refine ⟨shown.1, shown.2, fun u => ?_⟩
  have same : (v == u) = (w == u) := by
    rw [Bool.eq_iff_iff, beq_iff, beq_iff, hv, hw]
  refine ⟨same, ?_, ?_, ?_⟩
  · rw [beq_comm, same, beq_comm]
  · rw [order?_eq, order?_eq, number]
  · rw [order?_eq, order?_eq, number]

/-- A number of two kinds, and zeros of two signs. -/
theorem equal_values_are_alike_zeros :
    (int 9007199254740992 == .float 9007199254740992.0) = true ∧
    ((int 9007199254740992).text = (float 9007199254740992.0).text ∧
      (int 9007199254740992).isTruthy = (float 9007199254740992.0).isTruthy ∧
      ∀ u : Value, (int 9007199254740992 == u) = (float 9007199254740992.0 == u) ∧
        (u == int 9007199254740992) = (u == float 9007199254740992.0) ∧
        (int 9007199254740992).order? u = (float 9007199254740992.0).order? u ∧
        u.order? (int 9007199254740992) = u.order? (float 9007199254740992.0)) ∧
    (float 0.0 == .float (-0.0)) = true ∧ (float 0.0).text = (float (-0.0)).text := by
  have kinds : (int 9007199254740992 == .float 9007199254740992.0) = true := by decide
  have zeros : (float 0.0 == .float (-0.0)) = true := by decide
  exact ⟨kinds, equal_values_are_alike _ _ kinds, zeros, (equal_values_are_alike _ _ zeros).1⟩

end GujaratiScript
