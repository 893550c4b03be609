import GujaratiScript.Run.Operation

/-!
# Why operations fail

An operation on values fails for a reason that lies in these values: neither names nor loop control
nor input nor output have a part in it.
-/

namespace GujaratiScript

/-- The causes that lie in the operands of an operation. -/
def RunCause.IsOperational : RunCause → Prop
  | invalidAddition _ _ | nonNumericOperands _ | nonNumericNegation | nonIntegerModulo => True
  | divisionByZero | moduloByZero | integerOverflow => True
  | _ => False

namespace Value

variable {v w : Value} {cause : RunCause}

/-- An overflow lies in the operands. -/
theorem isOperational_of_ofInteger? {n : Option Int64} (h : ofInteger? n = .error cause) :
    cause.IsOperational := by
  cases n with
  | some n => cases h
  | none =>
    cases h
    trivial

/-- What cannot be negated lies in the operand. -/
theorem isOperational_of_negate (h : v.negate = .error cause) : cause.IsOperational := by
  cases v with
  | int n => exact isOperational_of_ofInteger? h
  | float x => cases h
  | _ =>
    cases h
    trivial

/-- Arithmetic fails by an overflow, or by the fault that it is given for what is no number. -/
theorem isOperational_of_arithmetic {checked : Int64 → Int64 → Option Int64}
    {rounded : Float → Float → Float} {fault : RunCause}
    (h : arithmetic checked rounded fault v w = .error cause)
    (hf : fault.IsOperational) : cause.IsOperational := by
  unfold arithmetic at h
  split at h
  · exact isOperational_of_ofInteger? h
  · split at h <;> cases h
    exact hf

/-- What cannot be compared lies in the operands. -/
theorem isOperational_of_comparison {o : Operator} {holds : Ordering → Bool}
    (h : comparison o holds v w = .error cause) : cause.IsOperational := by
  unfold comparison at h
  split at h <;> cases h
  trivial

theorem isOperational_of_quotient (h : quotient v w = .error cause) : cause.IsOperational := by
  unfold quotient at h
  split at h
  · split at h <;> cases h
    trivial
  · cases h
    trivial

theorem isOperational_of_remainder (h : remainder v w = .error cause) : cause.IsOperational := by
  unfold remainder at h
  split at h
  · split at h <;> cases h
    trivial
  · cases h
    trivial

/-- Every operator fails for a reason in its operands. -/
theorem isOperational_of_operate {o : Operator} (h : operate o v w = .error cause) :
    cause.IsOperational := by
  cases o with
  | add =>
    simp only [operate] at h
    split at h
    · cases h
    · exact isOperational_of_arithmetic h trivial
  | subtract | multiply => exact isOperational_of_arithmetic h trivial
  | divide => exact isOperational_of_quotient h
  | modulo => exact isOperational_of_remainder h
  | equal | notEqual => cases h
  | less | lessEqual | greater | greaterEqual => exact isOperational_of_comparison h

end Value

end GujaratiScript
