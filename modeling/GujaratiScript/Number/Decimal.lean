import GujaratiScript.Number.Exact

/-!
# Decimal text of binary numbers

The digits of a binary number are the fewest that identify it among its neighbours, and of those
the nearest. All arithmetic is exact.

* `Binary` : a positive value `m * 2 ^ q` with the gap to its neighbours;
* `Binary.readsBack` : whether a decimal lies nearer to the value than to any neighbour;
* `Binary.shortest` : the digits;
* `DecimalStyle` : how digits are laid out, and `DecimalStyle.layout`.
-/

namespace GujaratiScript

/-! ## Which digits -/

/-- The power of ten with an exponent. -/
def tenTo (n : Nat) : Nat := Nat.pow 10 n

/-- A positive value `m * 2 ^ q`; below a power of two the neighbour is half as far away. -/
structure Binary where
  m : Nat
  q : Int
  narrowBelow : Bool
  deriving DecidableEq, Repr

/-- The decimal `digits * 10 ^ exponent`. -/
structure Decimal where
  digits : Nat
  exponent : Int
  deriving DecidableEq, Repr, Inhabited

namespace Binary

/-- The value with mantissa `m` and exponent `q`, both of a number of fifty-three bits. -/
def ofMantissa (m : Nat) (q : Int) : Binary := ⟨m, q, m = twoTo 52 ∧ -1074 < q⟩

/-- The order of `a * 10 ^ i` and `n * 2 ^ j`. -/
def compareScaled (a : Nat) (i : Int) (n : Nat) (j : Int) : Ordering :=
  compare (a * tenTo i.toNat * twoTo (-j).toNat) (n * twoTo j.toNat * tenTo (-i).toNat)

/-- The decimal lies among the reals that round to the value: between the midpoints to both
neighbours, which belong to the value exactly if its mantissa is even. -/
def readsBack (x : Binary) (d : Decimal) : Bool :=
  let low := if x.narrowBelow then 4 * x.m - 1 else 4 * x.m - 2
  let above := compareScaled d.digits d.exponent low (x.q - 2)
  let below := compareScaled d.digits d.exponent (4 * x.m + 2) (x.q - 2)
  let ends := x.m % 2 = 0
  (above = .gt || (ends && above = .eq)) && (below = .lt || (ends && below = .eq))

/-- The least `k` with `m * 2 ^ q < 10 ^ k`, searched from the binary logarithm. -/
def scale (x : Binary) : Int :=
  let guess := Int.fdiv (((x.m.log2 : Int) + x.q) * 30103) 100000
  ([guess - 1, guess, guess + 1].find? fun k => compareScaled 1 k x.m x.q = .gt).getD (guess + 2)

/-- The decimal with `n` digits that identifies the value: one of its two neighbours among the
multiples of `10 ^ (k - n)`, the nearer if both do, the upper if they are equally near. -/
def atLength? (x : Binary) (k : Int) (n : Nat) : Option Decimal :=
  let unit := k - n
  let num := x.m * twoTo x.q.toNat * tenTo (-unit).toNat
  let den := twoTo (-x.q).toNat * tenTo unit.toNat
  let low : Decimal := ⟨num / den, unit⟩
  let high : Decimal := ⟨num / den + 1, unit⟩
  match x.readsBack low, x.readsBack high with
  | true, true => if 2 * num < (2 * (num / den) + 1) * den then some low else some high
  | true, false => some low
  | false, true => some high
  | false, false => none

/-- The value itself as a decimal. -/
def exactly (x : Binary) : Decimal :=
  ⟨x.m * twoTo x.q.toNat * Nat.pow 5 (-x.q).toNat, -((-x.q).toNat : Int)⟩

/-- Moves trailing zeros of the digits into the exponent, at most `n` of them. -/
def strip : Nat → Decimal → Decimal
  | 0, d => d
  | n + 1, d =>
    if d.digits % 10 = 0 ∧ d.digits ≠ 0 then strip n ⟨d.digits / 10, d.exponent + 1⟩ else d

/-- The fewest digits that identify the value, the nearest of those. Seventeen are always enough. -/
def shortest (x : Binary) : Decimal :=
  let k := x.scale
  strip 17 (((List.range' 1 17).findSome? (x.atLength? k)).getD x.exactly)

end Binary

/-! ## How digits are laid out -/

/-- The layout of decimal numbers. -/
structure DecimalStyle where
  /-- The least exponent of the leading digit that is written positionally. -/
  plainFrom : Int
  /-- The least exponent above it that is not. -/
  plainBelow : Int
  /-- The least number of digits of a written exponent. -/
  exponentWidth : Nat

namespace DecimalStyle

/-- A number of at least `width` digits. -/
def padded (width n : Nat) : String :=
  let s := toString n
  "".pushn '0' (width - s.length) ++ s

/-- Digits with the point where it belongs, and zeros up to it. -/
def positional (d : Decimal) : String :=
  let s := toString d.digits
  let places := (-d.exponent).toNat
  if 0 ≤ d.exponent then s.pushn '0' d.exponent.toNat
  else if places < s.length then
    let whole := s.length - places
    String.ofList (s.toList.take whole) ++ "." ++ String.ofList (s.toList.drop whole)
  else ("0.".pushn '0' (places - s.length)) ++ s

/-- One digit, the point, the other digits, and the exponent of the leading digit. -/
def scientific (width : Nat) (d : Decimal) (leading : Int) : String :=
  let s := (toString d.digits).toList
  let fraction := if s.length ≤ 1 then "" else "." ++ String.ofList s.tail
  let sign := if leading < 0 then "-" else "+"
  String.ofList (s.take 1) ++ fraction ++ "e" ++ sign ++ padded width leading.natAbs

/-- The text of a positive decimal. -/
def layout (style : DecimalStyle) (d : Decimal) : String :=
  let leading : Int := d.exponent + (toString d.digits).length - 1
  if style.plainFrom ≤ leading ∧ leading < style.plainBelow then positional d
  else scientific style.exponentWidth d leading

end DecimalStyle

end GujaratiScript
