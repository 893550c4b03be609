/-!
# The exact value of a number

A binary floating-point number stands for an integer times a power of two, for an infinity or for
no number at all. Comparing two numbers means comparing these values, without rounding.

* `Exact.ofFloat`, `Exact.ofInt` : the value a number stands for;
* `Exact.compare?` : the order of two values, `none` if one of them is no number;
* `Exact.truncate`, `Exact.toInt64` : the integral part, as a value and in a machine word.
-/

namespace GujaratiScript

/-- The power of two with an exponent. -/
def twoTo (n : Nat) : Nat := Nat.pow 2 n

/-- What a number stands for. -/
inductive Exact where
  /-- No number. -/
  | nan
  | infinite (negative : Bool)
  /-- `mantissa * 2 ^ exponent`. -/
  | finite (mantissa exponent : Int)
  deriving DecidableEq, Repr, Inhabited

namespace Exact

/-- The value of an integer. -/
def ofInt (n : Int) : Exact := .finite n 0

/-- The value of the number with the given bits: a sign, eleven bits of exponent and fifty-two bits
of fraction. -/
def ofBits (bits : UInt64) : Exact :=
  let negative := bits >>> 63 == 1
  let exponent := ((bits >>> 52) &&& 0x7FF).toNat
  let fraction := (bits &&& 0xFFFFFFFFFFFFF).toNat
  let signed (m : Nat) : Int := if negative then -(m : Int) else m
  if exponent = 0x7FF then (if fraction = 0 then .infinite negative else .nan)
  else if exponent = 0 then .finite (signed fraction) (-1074)
  else .finite (signed (twoTo 52 + fraction)) ((exponent : Int) - 1075)

/-- The value of a floating-point number. -/
def ofFloat (x : Float) : Exact := ofBits x.toBits

/-- The order of two finite values, from their mantissas at the smaller of the two exponents. -/
def compareFinite (m : Int) (e : Int) (n : Int) (f : Int) : Ordering :=
  compare (m * twoTo (e - min e f).toNat) (n * twoTo (f - min e f).toNat)

/-- The order of two values. -/
def compare? : Exact → Exact → Option Ordering
  | nan, _ => none
  | _, nan => none
  | infinite s, infinite t =>
    some (if s = t then .eq else if s then .lt else .gt)
  | infinite s, finite _ _ => some (if s then .lt else .gt)
  | finite _ _, infinite t => some (if t then .gt else .lt)
  | finite m e, finite n f => some (compareFinite m e n f)

/-- The integral part of `mantissa * 2 ^ exponent`, rounded toward zero. -/
def integralPart (m e : Int) : Int := (m * twoTo e.toNat).tdiv (twoTo (-e).toNat)

/-- The value without its fraction. -/
def truncate : Exact → Exact
  | finite m e => finite (integralPart m e) 0
  | x => x

/-- The integral part in a machine word. What lies outside of its range becomes the nearest end of
it, and what is no number becomes zero. -/
def toInt64 : Exact → Int64
  | nan => 0
  | infinite negative => if negative then Int64.minValue else Int64.maxValue
  | finite m e => Int64.ofIntClamp (integralPart m e)

/-- Whether the value is zero. -/
def isZero : Exact → Bool
  | finite m _ => m = 0
  | _ => false

/-- Values are unordered exactly if one of them is no number. -/
theorem compare?_eq_none_iff (a b : Exact) : compare? a b = none ↔ a = nan ∨ b = nan := by
  cases a <;> cases b <;> simp [compare?]

end Exact

end GujaratiScript
