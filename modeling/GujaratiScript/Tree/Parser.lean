import GujaratiScript.Tree.Cursor

/-!
# Reading trees

The grammar, one reader for each of its nodes, over any state that is read from.

* expressions climb through four tiers of left-associative operators; negation binds tighter;
* a block, a parenthesis, a negation and every link of an operator chain need one level of nesting
  more, which the expression or the block around them gives back; the readers recurse on a bound of
  the levels that are left;
* a statement that cannot be read is reported and skipped, so that one reading meets all faults;
* `Parser` is the same readers over one token sequence with its loop depth and nesting, each of them
  told how many levels are left and whether it is in a loop.
-/

namespace GujaratiScript

open Reading

variable {σ : Type} [Site σ]

/-! ## Expressions -/

omit [Site σ] in
/-- The fault of a token that no rule allows. -/
def unexpected {α : Type} (x : Lexeme) : ReadingFrom σ α :=
  match x.token with
  | .eof => fail .unexpectedEnd x.span
  | _ => fail (.unexpectedToken x.text) x.span

/-- Reads a literal. -/
def literal : ReadingFrom σ Expr := do
  let x ← take
  match x.token with
  | .int value => pure (.int value x.span)
  | .str value => pure (.str value x.span)
  | .word .bhaiChhe => pure (.bool true x.span)
  | .word .bhaiNathi => pure (.bool false x.span)
  | _ => unexpected x

/-- Reads a negation whose operand is read by `operand`. -/
def negation (operand : ReadingFrom σ Expr) : ReadingFrom σ Expr := do
  let x ← take
  match x.token with
  | .op .subtract => do
    let right ← operand
    pure (.negate right (x.span.upTo right.span))
  | _ => fail (.unexpectedToken x.text) x.span

/-- Reads an operator and, by `operand`, what stands to its right; `left` stands to its left. -/
def operation (operand : Tier → ReadingFrom σ Expr) (left : Expr) : ReadingFrom σ Expr := do
  let x ← take
  match x.token with
  | .op o => do
    let right ← operand o.tier
    pure (.binary o left right x.span (left.span.upTo right.span))
  | _ => fail (.unexpectedToken x.text) x.span

/-- Reads an operand; `inner` reads an expression inside it. -/
def operand (inner : Tier → ReadingFrom σ Expr) : ReadingFrom σ Expr := do
  let x ← peek
  match x.token with
  | .ident name => do
    step
    pure (.var ⟨name, x.span⟩)
  | .op .subtract => negation (inner .negation)
  | .int _ | .str _ | .word .bhaiChhe | .word .bhaiNathi => literal
  | .word .bapuTameBolo => do
    step
    pure (.input x.span)
  | .leftParen => do
    step
    let e ← inner .lowest
    let _ ← expect .rightParen "expression"
    pure e
  | _ => unexpected x

mutual

/-- Reads an expression whose operators bind tighter than `tier`.

The recursion is on a bound of the levels that are left. `nest` fails where there is none, so that
the case where the bound is used up does not arise. -/
def expression (levels : Nat) (tier : Tier) : ReadingFrom σ Expr :=
  restoring do
    let x ← peek
    nest levels x.span
    match levels with
    | 0 => unexpected x
    | n + 1 => do
      let left ← operand (expression n)
      chain n tier left

/-- Goes on with operators that bind tighter than `tier`. Each link takes one level more and keeps
it: the levels are set back where the expression ends. -/
def chain (levels : Nat) (tier : Tier) (left : Expr) : ReadingFrom σ Expr := do
  let x ← peek
  if tier < x.token.tier then
    nest levels x.span
    match levels with
    | 0 => unexpected x
    | n + 1 => do
      let e ← operation (expression n) left
      chain n tier e
  else pure left

end

/-! ## Statements -/

/-- Reads a printing. -/
def printing (levels : Nat) : ReadingFrom σ Stmt := do
  let x ← take
  let value ← expression levels .lowest
  pure (.print value (x.span.upTo value.span))

/-- Reads a declaration. -/
def declaration (levels : Nat) : ReadingFrom σ Stmt := do
  let x ← take
  let ident ← expectName
  let _ ← expect (.word .che) "variable name"
  let value ← expression levels .lowest
  pure (.declare ident value (x.span.upTo value.span))

/-- Reads an assignment. -/
def assignment (levels : Nat) : ReadingFrom σ Stmt := do
  let ident ← expectName
  let _ ← expect (.word .che) "variable name"
  let value ← expression levels .lowest
  pure (.assign ident value (ident.span.upTo value.span))

/-- Reads a conditional; `block` reads a block after what its argument names. -/
def conditional (levels : Nat) (block : String → ReadingFrom σ Block) : ReadingFrom σ Stmt := do
  let x ← take
  let condition ← expression levels .lowest
  let yes ← block "if condition"
  if ← at? (.word .nahiTo) then
    step
    let no ← block "'nahi to'"
    pure (.branch condition yes (some no) (x.span.upTo no.span))
  else pure (.branch condition yes none (x.span.upTo yes.span))

/-- Reads a loop; `block` reads its body. -/
def repetition (levels : Nat) (block : String → ReadingFrom σ Block) : ReadingFrom σ Stmt := do
  let x ← take
  let body ← looping (block "'farvu'")
  let _ ← expect (.word .jyaSudhi) "while body"
  let condition ← expression levels .lowest
  pure (.loop body condition (x.span.upTo condition.span))

/-- Reads the loop control `x`, which is the statement `s` inside a loop. -/
def control (inLoop : Bool) (x : Lexeme) (s : Stmt) : ReadingFrom σ Stmt := do
  if ← insideLoop inLoop then
    step
    pure s
  else fail (.controlOutsideLoop x.token) x.span

/-- Reads a statement; `block` reads a block, inside a loop or not. -/
def statement (levels : Nat) (inLoop : Bool) (block : Bool → String → ReadingFrom σ Block) :
    ReadingFrom σ Stmt := do
  let x ← peek
  match x.token with
  | .word .bhaiBol => printing levels
  | .word .aa => declaration levels
  | .word .jo => conditional levels (block inLoop)
  | .word .farvu => repetition levels (block true)
  | .word .tameJao => control inLoop x (.leave x.span)
  | .word .aagalVado => control inLoop x (.again x.span)
  | .leftBrace => do
    let b ← block inLoop "statement start"
    pure (.block b)
  | .ident _ => assignment levels
  | _ => unexpected x

/-- Reads a statement by `reader`; a fault is reported, and the tokens are skipped to a place where
the next statement may begin. -/
def attempt (reader : ReadingFrom σ Stmt) (s : σ) : Option Stmt × σ :=
  match reader (Site.trial s) with
  | (.ok x, t) => (some x, t)
  | (.error fault, t) => (none, Site.resume s fault t)

/-- Reads statements by `reader` up to a token of which `ends` holds, and keeps those that could be
read.

Every statement takes at least one token; a reader that took none would end the sequence. -/
def statements (ends : Token → Bool) (reader : ReadingFrom σ Stmt) (read : List Stmt) (s : σ) :
    List Stmt × σ :=
  if ends (Site.current s).token then (read.reverse, s)
  else
    let (x, t) := attempt reader s
    let read := x.toList ++ read
    if Site.left t < Site.left s then statements ends reader read t
    else (read.reverse, t)
termination_by Site.left s

/-- Reads statements by `reader` up to a token of which `ends` holds. -/
def sequence (ends : Token → Bool) (reader : ReadingFrom σ Stmt) : ReadingFrom σ (List Stmt) :=
  fun s =>
    let (body, t) := statements ends reader [] s
    (.ok body, t)

/-- Whether a token ends the statements of a block. -/
def Token.endsBlock (t : Token) : Bool := t == .rightBrace || t == .word .aavjoBhai || t == .eof

/-- Whether a token ends the statements of a program. -/
def Token.endsProgram (t : Token) : Bool := t == .word .aavjoBhai || t == .eof

/-- Reads a block after what `after` names. -/
def block (levels : Nat) (inLoop : Bool) (after : String) : ReadingFrom σ Block :=
  restoring do
    let x ← peek
    nest levels x.span
    match levels with
    | 0 => unexpected x
    | n + 1 => do
      let first ← expect .leftBrace after
      let body ← sequence Token.endsBlock (statement n inLoop (block n))
      let last ← expect .rightBrace "block"
      pure ⟨body, first.span.upTo last.span⟩

/-- Reads a whole program, from its first fence to its last. -/
def program (levels : Nat) (inLoop : Bool) : ReadingFrom σ Program := do
  let first ← peek
  if first.token == .word .kemBhai then
    step
    let body ← sequence Token.endsProgram (statement levels inLoop (block levels))
    let last ← peek
    if last.token == .word .aavjoBhai then
      step
      pure ⟨body, first.span.upTo last.span⟩
    else fail .expectedEnd last.span
  else fail .expectedStart first.span

/-! ## Parsers -/

/-- A token sequence that is being read: its beginning, the place reached, the loops entered and
the levels of nesting in use. -/
structure Parser where
  source : Cursor
  cursor : Cursor
  loopDepth : Nat
  nesting : Nat
  deriving Repr, Inhabited

namespace Parser

/-- A parser before the first of the lexemes `xs`. -/
def ofLexemes (xs : List Lexeme) : Parser :=
  let c := Cursor.ofLexemes xs
  ⟨c, c, 0, 0⟩

/-- The lexeme at the place reached. -/
def current (p : Parser) : Lexeme := p.cursor.current

/-- Whether the place reached is inside a loop. -/
def inLoop (p : Parser) : Bool := 0 < p.loopDepth

/-- The levels of nesting that are left. -/
def levels (p : Parser) : Nat := maxNesting - p.nesting

/-- Enters a loop. -/
def enterLoop (p : Parser) : Parser := ⟨p.source, p.cursor, p.loopDepth + 1, p.nesting⟩

/-- Leaves a loop, if in one. -/
def exitLoop (p : Parser) : Parser := ⟨p.source, p.cursor, p.loopDepth - 1, p.nesting⟩

/-- Goes one level deeper, or fails at `span` if none is left. -/
def nest (p : Parser) (span : Span) : Except ParseFault Unit × Parser :=
  if maxNesting ≤ p.nesting then (.error ⟨.nestingTooDeep maxNesting, span⟩, p)
  else (.ok (), ⟨p.source, p.cursor, p.loopDepth, p.nesting + 1⟩)

/-- Sets the levels of nesting in use. -/
def restoreNesting (p : Parser) (nesting : Nat) : Parser :=
  ⟨p.source, p.cursor, p.loopDepth, nesting⟩

/-- Reads on from the place reached. -/
def read {α : Type} (p : Parser) (reader : Reading α) : Except ParseFault α × Parser :=
  let (result, c) := reader p.cursor
  (result, ⟨p.source, c, p.loopDepth, p.nesting⟩)

/-- Reads a statement, or reports a fault and goes on behind it. -/
def tryStatement (p : Parser) : Option Stmt × Parser :=
  let (s, c) := attempt (statement p.levels p.inLoop (block p.levels)) p.cursor
  (s, ⟨p.source, c, p.loopDepth, p.nesting⟩)

/-- Reads the whole sequence from its beginning: a program, or else the first of the faults. -/
def readProgram (p : Parser) : Except ParseFault Program × Parser :=
  match program maxNesting false p.source with
  | (.ok t, c) =>
    match c.faults with
    | [] => (.ok t, ⟨p.source, c, 0, 0⟩)
    | first :: _ => (.error first, ⟨p.source, c, 0, 0⟩)
  | (.error fault, c) =>
    (.error ((c.faults ++ [fault]).head (by simp)), ⟨p.source, c.report fault, 0, 0⟩)

/-- Reads the whole sequence from its beginning: a program if there is no fault. -/
def parse (p : Parser) : Option Program × Parser :=
  let (result, p') := p.readProgram
  (result.toOption, p')

/-- The faults met, in the order they were met. -/
def faults (p : Parser) : List ParseFault := p.cursor.faults

end Parser

/-- The program that the lexemes `xs` are, or all faults that were met. -/
def Program.ofLexemes (xs : List Lexeme) : Except (List ParseFault) Program :=
  match (Parser.ofLexemes xs).readProgram with
  | (.ok t, _) => .ok t
  | (.error fault, p) => .error (if p.faults.isEmpty then [fault] else p.faults)

/-- A sequence whose reader gives a program is that program, if no fault was met on the way. -/
theorem ofLexemes_of_ok {xs : List Lexeme} {p : Program} {d : Cursor}
    (h : program maxNesting false (.ofLexemes xs) = (.ok p, d)) :
    Program.ofLexemes xs = if d.faults = [] then .ok p else .error d.faults := by
  unfold Program.ofLexemes Parser.ofLexemes Parser.readProgram
  dsimp only
  rw [h]
  rcases d with ⟨ahead, mark, _ | ⟨fault, faults⟩⟩ <;> rfl

/-- The fault of a reader that gives none is the last of all faults. -/
theorem ofLexemes_of_error {xs : List Lexeme} {fault : ParseFault} {d : Cursor}
    (h : program maxNesting false (.ofLexemes xs) = (.error fault, d)) :
    Program.ofLexemes xs = .error (d.faults ++ [fault]) := by
  unfold Program.ofLexemes Parser.ofLexemes Parser.readProgram
  dsimp only
  rw [h]
  rcases d with ⟨ahead, mark, _ | ⟨fault, faults⟩⟩ <;> rfl

end GujaratiScript
