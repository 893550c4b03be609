import GujaratiScript.Token.Basic

/-!
# Faults of a token sequence

Why a sequence of tokens is no program, with the sentence that says so and what would help.
-/

namespace GujaratiScript

/-- The deepest nesting of blocks, parentheses, negations and operator chains that is read. -/
def maxNesting : Nat := 256

/-- Why a program cannot be read at some token. -/
inductive ParseCause where
  | expectedStart
  | expectedEnd
  /-- A name is missing; `reserved` is the keyword found in its place. -/
  | expectedName (reserved : Option Token)
  /-- A token is missing; `after` says what it has to follow. -/
  | expectedToken (expected : Token) (after : String)
  | controlOutsideLoop (keyword : Token)
  | unexpectedToken (found : String)
  | unexpectedEnd
  | nestingTooDeep (limit : Nat)
  deriving DecidableEq, Repr, Inhabited

namespace ParseCause

/-- What went wrong, in a sentence. -/
def message : ParseCause → String
  | expectedStart => "Program must start with 'kem bhai'"
  | expectedEnd => "Program must end with 'aavjo bhai'"
  | expectedName _ => "Expected variable name after 'aa'"
  | expectedToken expected after => "Expected '" ++ expected.literal ++ "' after " ++ after
  | controlOutsideLoop keyword => "'" ++ keyword.literal ++ "' used outside of a loop"
  | unexpectedToken found => "Unexpected token '" ++ found ++ "'"
  | unexpectedEnd => "Unexpected end of input"
  | nestingTooDeep limit => "Nesting is deeper than " ++ toString limit ++ " levels"

/-- What would help. -/
def hints : ParseCause → List String
  | expectedStart => ["Every program is wrapped in `kem bhai` ... `aavjo bhai`"]
  | expectedName (some keyword) =>
    ["'" ++ keyword.literal ++ "' is a reserved word and can't name a variable"]
  | controlOutsideLoop _ =>
    ["`tame jao` and `aagal vado` only work inside `farvu \x7b ... \x7d`"]
  | nestingTooDeep _ => ["Split the expression or block into smaller pieces"]
  | _ => []

end ParseCause

/-- A fault of the token sequence and its place. -/
structure ParseFault where
  cause : ParseCause
  span : Span
  deriving DecidableEq, Repr, Inhabited

end GujaratiScript
