import GujaratiScript.Tree.Basic

/-!
# The canonical layout of a program

Fences and statements stand on lines of their own, and each level of blocks is indented by two
spaces. Parentheses are written only where the tree would otherwise be read differently.

* `Text.escaped` : a text as it is written in a program;
* `Expr.layout` : an expression on one line;
* `Program.layout` : a whole program.
-/

namespace GujaratiScript

/-! ## Texts -/

/-- How a character is written between the quotes of a program. -/
def Text.escapedChar (c : Char) : String :=
  if c = '\\' then "\\\\"
  else if c = '\x22' then "\\\""
  else if c = '\n' then "\\n"
  else if c = '\t' then "\\t"
  else c.toString

/-- A text as it is written in a program, with its quotes. -/
def Text.escaped (s : String) : String :=
  "\"" ++ String.join (s.toList.map Text.escapedChar) ++ "\""

/-! ## Expressions -/

/-- Text between parentheses if `wrap` holds. -/
def wrapped (wrap : Bool) (s : String) : String :=
  if wrap then "(" ++ s ++ ")" else s

@[simp] theorem wrapped_false (s : String) : wrapped false s = s := rfl

@[simp] theorem wrapped_true (s : String) : wrapped true s = "(" ++ s ++ ")" := rfl

namespace Expr

/-- The tier of the operator at the root, if the expression is a binary operation. -/
def tier? : Expr → Option Tier
  | binary o _ _ _ _ => some o.tier
  | _ => none

/-- A left operand needs parentheses if its operator binds less tightly. -/
def wrapsLeft (o : Operator) (left : Expr) : Bool :=
  match left.tier? with
  | some t => t < o.tier
  | none => false

/-- A right operand needs parentheses also if its operator binds as tightly, since operators of
one tier associate to the left. -/
def wrapsRight (o : Operator) (right : Expr) : Bool :=
  match right.tier? with
  | some t => t ≤ o.tier
  | none => false

/-- An expression on one line. -/
def layout : Expr → String
  | int n _ => toString n.toInt
  | str s _ => Text.escaped s
  | bool b _ => (if b then Keyword.bhaiChhe else Keyword.bhaiNathi).spelling
  | var ident => ident.name
  | input _ => Keyword.bapuTameBolo.spelling
  | negate e _ => "-" ++ wrapped e.tier?.isSome e.layout
  | binary o l r _ _ =>
    wrapped (wrapsLeft o l) l.layout ++ " " ++ o.spelling ++ " " ++
      wrapped (wrapsRight o r) r.layout

end Expr

/-! ## Statements -/

/-- A line at a level of indentation. -/
def indented (depth : Nat) (s : String) : String :=
  "".pushn ' ' (2 * depth) ++ s ++ "\n"

mutual

/-- The lines of a statement. -/
def Stmt.layout (depth : Nat) : Stmt → String
  | .print e _ => indented depth ("bhai bol " ++ e.layout)
  | .declare ident e _ => indented depth ("aa " ++ ident.name ++ " che " ++ e.layout)
  | .assign ident e _ => indented depth (ident.name ++ " che " ++ e.layout)
  | .branch c yes none _ =>
    indented depth ("jo " ++ c.layout ++ " \x7b") ++ yes.layout (depth + 1) ++
      indented depth "\x7d"
  | .branch c yes (some no) _ =>
    indented depth ("jo " ++ c.layout ++ " \x7b") ++ yes.layout (depth + 1) ++
      indented depth "\x7d nahi to \x7b" ++ no.layout (depth + 1) ++ indented depth "\x7d"
  | .loop body c _ =>
    indented depth "farvu \x7b" ++ body.layout (depth + 1) ++
      indented depth ("\x7d jya sudhi " ++ c.layout)
  | .leave _ => indented depth "tame jao"
  | .again _ => indented depth "aagal vado"
  | .block b => indented depth "\x7b" ++ b.layout (depth + 1) ++ indented depth "\x7d"
termination_by structural s => s

/-- The lines of the statements of a block. -/
def Block.layout (depth : Nat) : Block → String
  | ⟨body, _⟩ => layoutAll depth body
termination_by structural b => b

/-- The lines of statements. -/
def layoutAll (depth : Nat) : List Stmt → String
  | [] => ""
  | s :: rest => s.layout depth ++ layoutAll depth rest
termination_by structural l => l

end

/-- The lines of a program. -/
def Program.layout (p : Program) : String :=
  indented 0 "kem bhai" ++ layoutAll 0 p.body ++ indented 0 "aavjo bhai"

end GujaratiScript
