import GujaratiScript.Number.Decimal

/-!
# Values

What expressions evaluate to: integers of sixty-four bits, floating-point numbers, texts, truth
values, and nothing.

* `orderFloats?`, `orderMixed?` : the order of two numbers, one of them an integer or none;
* `Value.order?` : the order of numbers, across both kinds;
* `Value.eq` : numbers are equal across both kinds, anything else only to its own kind;
* `Value.text` : what printing shows.
-/

namespace GujaratiScript

/-- A value of the language. -/
inductive Value where
  | int (n : Int64)
  | float (x : Float)
  | str (s : String)
  | bool (b : Bool)
  | null
  deriving Repr, Inhabited

/-- The kinds of values. -/
inductive Kind where
  | int
  | float
  | str
  | bool
  | null
  deriving DecidableEq, Repr, Inhabited

/-- The name of a kind. -/
def Kind.name : Kind → String
  | int => "int"
  | float => "float"
  | str => "str"
  | bool => "bool"
  | null => "null"

/-! ## The order of numbers -/

/-- The order of two floating-point numbers, if they have one. -/
def orderFloats? (x y : Float) : Option Ordering :=
  match decide (x ≤ y), decide (y ≤ x) with
  | true, true => some .eq
  | true, false => some .lt
  | false, true => some .gt
  | false, false => none

/-- The least number above all integers. -/
def integerBound : Float := 9223372036854775808.0

/-- The order of an integer and a floating-point number, if they have one. The integer is never
converted: outside of the range of integers the bounds decide, inside the integral parts, and the
fraction if these are equal. -/
def orderMixed? (n : Int64) (x : Float) : Option Ordering :=
  if x.isNaN then none
  else if integerBound ≤ x then some .lt
  else if x < -integerBound then some .gt
  else
    let whole := (Exact.ofFloat x).truncate
    some ((compare n whole.toInt64).then ((whole.compare? (.ofFloat x)).getD .eq))

namespace Value

/-- The kind of a value. -/
def kind : Value → Kind
  | int _ => .int
  | float _ => .float
  | str _ => .str
  | bool _ => .bool
  | null => .null

/-! ## Numbers -/

/-- What a number stands for. -/
def amount? : Value → Option Exact
  | int n => some (.ofInt n.toInt)
  | float x => some (.ofFloat x)
  | _ => none

/-- Whether the value is a number. -/
def isNumeric : Value → Bool
  | int _ | float _ => true
  | _ => false

/-- The number as a floating-point number; an integer is rounded to the nearest one. -/
def toFloat? : Value → Option Float
  | int n => some (Float.ofInt n.toInt)
  | float x => some x
  | _ => none

/-- The order of two numbers, if they have one. -/
def order? (v w : Value) : Option Ordering :=
  match v, w with
  | int a, int b => some (compare a b)
  | int a, float y => orderMixed? a y
  | float x, int b => (orderMixed? b x).map Ordering.swap
  | float x, float y => orderFloats? x y
  | _, _ => none

/-- Exactly the numbers stand for an amount. -/
theorem isSome_amount? (v : Value) : v.amount?.isSome = v.isNumeric := by
  cases v <;> rfl

/-! ## Equality and truth -/

/-- Numbers are equal across both kinds; any other value only to one of its own kind. -/
def eq (v w : Value) : Bool :=
  match v, w with
  | int a, int b => a == b
  | int a, float y => orderMixed? a y == some .eq
  | float x, int b => orderMixed? b x == some .eq
  | float x, float y => x == y
  | str s, str t => s == t
  | bool b, bool c => b == c
  | null, null => true
  | _, _ => false

instance : BEq Value := ⟨eq⟩

/-- Zero, the empty text, false and null are not truthy; everything else is. -/
def isTruthy : Value → Bool
  | null => false
  | bool b => b
  | int n => n != 0
  | float x => !(Exact.ofFloat x).isZero
  | str s => !s.isEmpty

/-! ## Text -/

/-- Fractions are positional as long as the exponent of the leading digit is at least minus four
and less than sixteen; otherwise the exponent is written with a sign and at least two digits. -/
def fractionStyle : DecimalStyle := ⟨-4, 16, 2⟩

/-- The text of a number: all digits of an integer, and as few of a fraction as identify it. -/
def exactText : Exact → String
  | .nan => "nan"
  | .infinite negative => if negative then "-inf" else "inf"
  | .finite m e =>
    let sign := if m < 0 then "-" else ""
    let unit := twoTo (-e).toNat
    if m.natAbs % unit = 0 then sign ++ toString (m.natAbs / unit * twoTo e.toNat)
    else sign ++ fractionStyle.layout (Binary.ofMantissa m.natAbs e).shortest

/-- What printing a value shows. -/
def text : Value → String
  | int n => toString n.toInt
  | float x => exactText (.ofFloat x)
  | str s => s
  | bool b => if b then "true" else "false"
  | null => "null"

end Value

end GujaratiScript
