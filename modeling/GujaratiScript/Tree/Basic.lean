import GujaratiScript.Token.Basic

/-!
# Program trees

* `Expr` : literals, variables, the reading of a line, negation and binary operations;
* `Stmt` and `Block` : statements, and braced sequences of them;
* `Program` : the statements between the two fences.

Every node carries the span of the text it was read from. Parentheses leave no trace.
-/

namespace GujaratiScript

/-- A name with its place. -/
structure Ident where
  name : String
  span : Span
  deriving DecidableEq, Repr, Inhabited

/-- An expression. -/
inductive Expr where
  | int (value : Int64) (span : Span)
  | str (value : String) (span : Span)
  | bool (value : Bool) (span : Span)
  | var (ident : Ident)
  /-- The next line of input. -/
  | input (span : Span)
  | negate (operand : Expr) (span : Span)
  | binary (operator : Operator) (left right : Expr) (operatorSpan span : Span)
  deriving DecidableEq, Repr, Inhabited

/-- The span of an expression. -/
def Expr.span : Expr → Span
  | int _ s | str _ s | bool _ s | input s | negate _ s => s
  | var ident => ident.span
  | binary _ _ _ _ s => s

mutual

/-- A statement. -/
inductive Stmt where
  | print (value : Expr) (span : Span)
  | declare (ident : Ident) (value : Expr) (span : Span)
  | assign (ident : Ident) (value : Expr) (span : Span)
  | branch (condition : Expr) (yes : Block) (no : Option Block) (span : Span)
  /-- A body that runs once, and again as long as the condition holds after it. -/
  | loop (body : Block) (condition : Expr) (span : Span)
  /-- Leaves the innermost loop. -/
  | leave (span : Span)
  /-- Goes to the condition of the innermost loop. -/
  | again (span : Span)
  | block (block : Block)

/-- Statements between braces. -/
structure Block where
  body : List Stmt
  span : Span

end

deriving instance Repr, BEq, Inhabited for Stmt, Block

/-- The span of a statement. -/
def Stmt.span : Stmt → Span
  | print _ s | declare _ _ s | assign _ _ s | branch _ _ _ s | loop _ _ s | leave s | again s => s
  | block b => b.span

/-- A whole program. -/
structure Program where
  body : List Stmt
  span : Span
  deriving Repr, BEq, Inhabited

end GujaratiScript
