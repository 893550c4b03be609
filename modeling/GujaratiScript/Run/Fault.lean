import GujaratiScript.Token.Lexer
import GujaratiScript.Value.Basic

/-!
# Faults of a run

* `SystemFault` : how the outside world refuses to be read or written;
* `RunCause` : why a program cannot go on, with the sentence that says so and what would help.
-/

namespace GujaratiScript

/-- How a file or a channel refuses to be read or written. -/
inductive SystemFault where
  | notFound
  | permissionDenied
  | brokenPipe
  | invalidData
  | unexpectedEof
  | alreadyExists
  | interrupted
  | timedOut
  | writeZero
  | isADirectory
  | notADirectory
  /-- A name or a path is too long. -/
  | invalidFilename
  | invalidInput
  | wouldBlock
  | outOfMemory
  | unsupported
  | other
  deriving DecidableEq, Repr, Inhabited

/-- The fault in a few words. -/
def SystemFault.text : SystemFault → String
  | notFound => "entity not found"
  | permissionDenied => "permission denied"
  | brokenPipe => "broken pipe"
  | invalidData => "invalid data"
  | unexpectedEof => "unexpected end of file"
  | alreadyExists => "entity already exists"
  | interrupted => "operation interrupted"
  | timedOut => "timed out"
  | writeZero => "write zero"
  | isADirectory => "is a directory"
  | notADirectory => "not a directory"
  | invalidFilename => "invalid filename"
  | invalidInput => "invalid input parameter"
  | wouldBlock => "operation would block"
  | outOfMemory => "out of memory"
  | unsupported => "unsupported"
  | other => "other error"

/-- Why a program cannot go on. -/
inductive RunCause where
  | undefinedVariable (name : String)
  | alreadyDeclared (name : String)
  | invalidAddition (left right : Kind)
  | nonNumericOperands (operator : Operator)
  | nonNumericNegation
  | nonIntegerModulo
  | divisionByZero
  | moduloByZero
  | integerOverflow
  | inputExhausted
  | controlOutsideLoop (keyword : Keyword)
  | output (fault : SystemFault)
  deriving DecidableEq, Repr, Inhabited

namespace RunCause

/-- What went wrong, in a sentence. -/
def message : RunCause → String
  | undefinedVariable name => "Undefined variable '" ++ name ++ "'"
  | alreadyDeclared name => "Variable '" ++ name ++ "' already declared in this scope"
  | invalidAddition left right =>
    "TypeError: cannot `+` " ++ left.name ++ " and " ++ right.name
  | nonNumericOperands o => "Operator '" ++ o.spelling ++ "' requires numeric operands"
  | nonNumericNegation => "Unary minus requires numeric operand"
  | nonIntegerModulo => "Modulo operator requires integer operands"
  | divisionByZero => "Division by zero"
  | moduloByZero => "Modulo by zero"
  | integerOverflow => "Integer overflow"
  | inputExhausted => "No more input available"
  | controlOutsideLoop k => "'" ++ k.spelling ++ "' used outside of a loop"
  | output fault => "Failed to write output: " ++ fault.text

/-- What would help. -/
def hints : RunCause → List String
  | undefinedVariable name => ["Declare it first with `aa " ++ name ++ " che ...`"]
  | alreadyDeclared name => ["Use `" ++ name ++ " che ...` to change its value"]
  | integerOverflow =>
    ["Integers range from " ++ toString minInteger ++ " to " ++ toString maxInteger]
  | _ => []

end RunCause

/-- A fault of a run and the place of the program where it arose. -/
structure RunFault where
  cause : RunCause
  span : Span
  deriving DecidableEq, Repr, Inhabited

end GujaratiScript
