import GujaratiScript.Run.Fault

/-!
# Operations on values

* `Integer.sum?`, `Integer.difference?`, `Integer.product?`, `Integer.opposite?` : the results of
  the machine, `none` if they overflow;
* `Integer.remainder` : the remainder with the sign of the divisor;
* `Value.negate` : the additive inverse;
* `Value.operate` : a binary operator on two values.

Integers are kept in machine words of sixty-four bits, whose operations wrap around. They are never
rounded and never wrap here: a result that is no integer of the language is a fault.
-/

namespace GujaratiScript

namespace Integer

/-- The sum, unless it overflows. -/
def sum? (a b : Int64) : Option Int64 :=
  if a.toBitVec.saddOverflow b.toBitVec then none else some (a + b)

/-- The difference, unless it overflows. -/
def difference? (a b : Int64) : Option Int64 :=
  if a.toBitVec.ssubOverflow b.toBitVec then none else some (a - b)

/-- The product, unless it overflows. -/
def product? (a b : Int64) : Option Int64 :=
  if a.toBitVec.smulOverflow b.toBitVec then none else some (a * b)

/-- The additive inverse, unless it overflows. -/
def opposite? (a : Int64) : Option Int64 :=
  if a.toBitVec.negOverflow then none else some (-a)

/-- The remainder with the sign of the divisor. That of the machine has the sign of the dividend; if
that is another sign, the divisor is added. -/
def remainder (a b : Int64) : Int64 :=
  let r := a % b
  if r ≠ 0 ∧ decide (r < 0) ≠ decide (b < 0) then r + b else r

end Integer

namespace Value

/-- The result of an operation on integers, which may have overflowed. -/
def ofInteger? : Option Int64 → Except RunCause Value
  | some n => .ok (.int n)
  | none => .error .integerOverflow

/-- The additive inverse of a number. -/
def negate : Value → Except RunCause Value
  | int n => ofInteger? (Integer.opposite? n)
  | float x => .ok (.float (-x))
  | _ => .error .nonNumericNegation

/-- Sum, difference or product: exact on two integers, rounded if one operand is a
floating-point number. `fault` arises if one operand is no number. -/
def arithmetic (checked : Int64 → Int64 → Option Int64) (rounded : Float → Float → Float)
    (fault : RunCause) (v w : Value) : Except RunCause Value :=
  match v, w with
  | int a, int b => ofInteger? (checked a b)
  | _, _ =>
    match v.toFloat?, w.toFloat? with
    | some x, some y => .ok (.float (rounded x y))
    | _, _ => .error fault

/-- The quotient, always a floating-point number. -/
def quotient (v w : Value) : Except RunCause Value :=
  match v.toFloat?, w.toFloat? with
  | some x, some y =>
    if (Exact.ofFloat y).isZero then .error .divisionByZero else .ok (.float (x / y))
  | _, _ => .error (.nonNumericOperands .divide)

/-- The remainder of two integers, with the sign of the divisor. -/
def remainder (v w : Value) : Except RunCause Value :=
  match v, w with
  | int a, int b =>
    if b = 0 then .error .moduloByZero else .ok (.int (Integer.remainder a b))
  | _, _ => .error .nonIntegerModulo

/-- A comparison of two numbers; whatever cannot be ordered compares as false. -/
def comparison (o : Operator) (holds : Ordering → Bool) (v w : Value) : Except RunCause Value :=
  if v.isNumeric && w.isNumeric then
    .ok (.bool (match v.order? w with
      | some r => holds r
      | none => false))
  else .error (.nonNumericOperands o)

/-- A binary operator on two values. -/
def operate (o : Operator) (v w : Value) : Except RunCause Value :=
  match o with
  | .add =>
    match v, w with
    | str s, str t => .ok (.str (s ++ t))
    | _, _ => arithmetic Integer.sum? (· + ·) (.invalidAddition v.kind w.kind) v w
  | .subtract => arithmetic Integer.difference? (· - ·) (.nonNumericOperands o) v w
  | .multiply => arithmetic Integer.product? (· * ·) (.nonNumericOperands o) v w
  | .divide => quotient v w
  | .modulo => remainder v w
  | .equal => .ok (.bool (v == w))
  | .notEqual => .ok (.bool (!(v == w)))
  | .less => comparison o (· == .lt) v w
  | .lessEqual => comparison o (· != .gt) v w
  | .greater => comparison o (· == .gt) v w
  | .greaterEqual => comparison o (· != .lt) v w

end Value

end GujaratiScript
