import Mathlib.Algebra.Order.Field.Power
import Mathlib.Data.Rat.Cast.Order
import Mathlib.Order.WithBot
import Mathlib.Tactic.Linarith
import Mathlib.Tactic.Positivity
import GujaratiScript.Number.Exact

/-!
# Numbers as extended rationals

* `ExtendedRat` : the rational numbers between two infinities;
* `Exact.ratio` : a mantissa times a power of two;
* `Exact.extended?` : the extended rational that a value is;
* `Exact.compare?_eq` : values are compared as extended rationals;
* `Exact.compare?_swap` : the order of values the other way round.
-/

namespace GujaratiScript

/-- The rational numbers between two infinities. -/
abbrev ExtendedRat := WithBot (WithTop ℚ)

@[simp] theorem twoTo_eq_pow (n : Nat) : twoTo n = 2 ^ n := rfl

namespace Exact

/-- Rational numbers stay apart between the infinities. -/
theorem some_coe_inj {q r : ℚ} :
    some ((q : WithTop ℚ) : ExtendedRat) = some ((r : WithTop ℚ) : ExtendedRat) ↔ q = r := by
  rw [Option.some_inj, WithBot.coe_inj, WithTop.coe_inj]

/-- The number `m * 2 ^ e`. -/
def ratio (m e : Int) : ℚ := m * 2 ^ e

/-- The extended rational that a value is, if it is a number at all. -/
def extended? : Exact → Option ExtendedRat
  | nan => none
  | infinite negative => some (if negative then ⊥ else ⊤)
  | finite m e => some ((ratio m e : ℚ) : WithTop ℚ)

/-! ## Mantissas at another exponent -/

/-- At a smaller exponent the mantissa is greater. -/
theorem ratio_eq_of_le (m : Int) {e k : Int} (le : k ≤ e) :
    ratio m e = ((m * twoTo (e - k).toNat : Int) : ℚ) * 2 ^ k := by
  have split : e = ((e - k).toNat : Int) + k := by omega
  rw [ratio]
  conv_lhs => rw [split, zpow_add₀ (by norm_num), zpow_natCast, ← mul_assoc]
  push_cast [twoTo_eq_pow]
  rfl

/-- Mantissas at the smaller of two exponents are ordered as the numbers are. -/
theorem compareFinite_eq (m e n f : Int) : compareFinite m e n f = cmp (ratio m e) (ratio n f) := by
  have pos : (0 : ℚ) < 2 ^ min e f := by positivity
  rw [compareFinite, ← cmp_eq_compare, ratio_eq_of_le m (Int.min_le_left e f),
    ratio_eq_of_le n (Int.min_le_right e f), cmp_mul_pos_right pos]
  exact (Int.cast_strictMono.cmp_map_eq _ _).symm

/-! ## Infinities -/

theorem cmp_coe (a b : ℚ) :
    cmp ((a : WithTop ℚ) : ExtendedRat) ((b : WithTop ℚ) : ExtendedRat) = cmp a b :=
  (WithBot.coe_strictMono.comp WithTop.coe_strictMono).cmp_map_eq a b

/-- Values are compared as extended rationals, and what is no number with nothing. -/
theorem compare?_eq (a b : Exact) : compare? a b = Option.map₂ cmp a.extended? b.extended? := by
  cases a with
  | nan => rfl
  | infinite s =>
    cases b with
    | nan => cases s <;> rfl
    | infinite t => cases s <;> cases t <;> rfl
    | finite n f => cases s <;> rfl
  | finite m e =>
    cases b with
    | nan => rfl
    | infinite t => cases t <;> rfl
    | finite n f =>
      show some (compareFinite m e n f) = some (cmp _ _)
      rw [cmp_coe, compareFinite_eq]

theorem compare?_finite (m e n f : Int) :
    compare? (finite m e) (finite n f) = some (cmp (ratio m e) (ratio n f)) :=
  congrArg some (compareFinite_eq m e n f)

/-- The other way round, values have the opposite order. -/
theorem compare?_swap (a b : Exact) : compare? b a = (compare? a b).map Ordering.swap := by
  rw [compare?_eq, compare?_eq]
  rcases a.extended? with _ | a <;> rcases b.extended? with _ | b <;> try rfl
  exact congrArg some (cmp_swap a b).symm

end Exact

end GujaratiScript
