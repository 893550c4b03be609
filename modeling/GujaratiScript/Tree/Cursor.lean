import GujaratiScript.Tree.Basic
import GujaratiScript.Tree.Fault

/-!
# Reading from a token sequence

* `Cursor` : the tokens still ahead, the end mark behind them and the faults met so far;
* `Site` : what any state that is read from has to offer, and a cursor as one;
* `ReadingFrom` : a reader of something, which takes a state and gives a result or a fault, with the
  state after what was taken in both cases; `Reading` is one that takes a cursor.

Line breaks mean nothing to the grammar and are dropped; nothing behind the first end mark is ever
read.
-/

namespace GujaratiScript

/-- The tokens ahead of a place, none of them an end mark; the end mark; the faults met so far. -/
structure Cursor where
  ahead : List Lexeme
  endMark : Lexeme
  faults : List ParseFault
  deriving Repr, Inhabited

namespace Cursor

/-- The end mark of a sequence that has none: empty, right after the last lexeme. -/
def impliedEnd : Option Lexeme → Lexeme
  | none => ⟨.eof, "", ⟨0, 0, 1, 1⟩⟩
  | some x => ⟨.eof, "", ⟨x.span.stop, x.span.stop, x.span.line, x.span.col⟩⟩

/-- A cursor before the first lexeme that is no line break. -/
def ofLexemes (xs : List Lexeme) : Cursor :=
  let xs := xs.filter fun x => x.token ≠ .newline
  let ahead := xs.takeWhile fun x => x.token ≠ .eof
  match xs.dropWhile fun x => x.token ≠ .eof with
  | [] => ⟨ahead, impliedEnd xs.getLast?, []⟩
  | stop :: _ => ⟨ahead, stop, []⟩

/-- The lexeme at the cursor; after the last one it is the end mark. -/
def current (c : Cursor) : Lexeme :=
  match c.ahead with
  | [] => c.endMark
  | x :: _ => x

/-- Whether the token at the cursor is `t`. -/
def at? (c : Cursor) (t : Token) : Bool :=
  c.current.token == t

/-- Whether nothing is left but the end mark. -/
def atEnd (c : Cursor) : Bool :=
  c.at? .eof

/-- The cursor after the current lexeme; the end mark is never passed. -/
def step (c : Cursor) : Cursor :=
  ⟨c.ahead.tail, c.endMark, c.faults⟩

/-- The cursor with one more fault met. -/
def report (c : Cursor) (fault : ParseFault) : Cursor :=
  ⟨c.ahead, c.endMark, c.faults ++ [fault]⟩

/-- Skips to the next token that opens a statement, closes a block or ends the program. -/
def skip (c : Cursor) : Cursor :=
  ⟨c.ahead.dropWhile fun x =>
    !(x.token.opensStatement || x.token == .rightBrace || x.token == .word .aavjoBhai),
    c.endMark, c.faults⟩

/-- Goes on after a fault of the statement that began at `start`: at least one token is taken, and
then all up to the next place where a statement may begin. -/
def recover (c start : Cursor) : Cursor :=
  if c.ahead.length = start.ahead.length then c.step.skip else c.skip

/-- Stepping takes one token, if one is left. -/
@[simp] theorem length_ahead_step (c : Cursor) : c.step.ahead.length = c.ahead.length - 1 :=
  List.length_tail

/-- Reporting a fault takes no token. -/
@[simp] theorem ahead_report (c : Cursor) (fault : ParseFault) :
    (c.report fault).ahead = c.ahead := rfl

end Cursor

/-! ## States that are read from -/

/-- A state of reading a token sequence, at some place of it. It may count the levels of nesting and
the loops itself, or leave it to the readers to be told about them; levels are apart from tokens. -/
class Site (σ : Type) where
  /-- The lexeme at the place reached. -/
  current : σ → Lexeme
  /-- The state behind that lexeme; an end mark is never passed. -/
  step : σ → σ
  /-- How many tokens are left. -/
  left : σ → Nat
  /-- Goes one level deeper, or fails at `span` if none is left; `levels` are said to be left. -/
  nest (levels : Nat) (span : Span) : σ → Except ParseFault Unit × σ
  /-- Sets the levels in use back to those in use at `start`. -/
  restore (start : σ) : σ → σ
  /-- Enters a loop. -/
  enterLoop : σ → σ
  /-- Leaves a loop. -/
  exitLoop : σ → σ
  /-- Whether the place reached is inside a loop, as it is said to be by `told`. -/
  insideLoop (told : Bool) : σ → Bool
  /-- The state in which a statement is tried. -/
  trial : σ → σ
  /-- Reports a fault of the statement that was tried at `start`, and goes on behind that. -/
  resume (start : σ) (fault : ParseFault) : σ → σ
  nest_eq_error {levels : Nat} {span : Span} {s : σ} {fault : ParseFault} :
    (nest levels span s).1 = .error fault → fault.span = span

/-- A cursor counts neither levels nor loops: it takes what it is told about them. -/
instance siteCursor : Site Cursor where
  current := Cursor.current
  step := Cursor.step
  left c := c.ahead.length
  nest
    | 0, span, c => (.error ⟨.nestingTooDeep maxNesting, span⟩, c)
    | _ + 1, _, c => (.ok (), c)
  restore _ c := c
  enterLoop c := c
  exitLoop c := c
  insideLoop told _ := told
  trial c := c
  resume start fault c := (c.report fault).recover start
  nest_eq_error {levels _ _ _} h := by
    cases levels <;> cases h
    rfl

/-! ## Readers -/

/-- Reads a value from a state, or meets a fault. -/
abbrev ReadingFrom (σ α : Type) := ExceptT ParseFault (StateM σ) α

/-- Reads a value from a cursor, or meets a fault. -/
abbrev Reading (α : Type) := ReadingFrom Cursor α

namespace Reading

variable {σ α : Type}

/-- Meets a fault. -/
def fail (cause : ParseCause) (span : Span) : ReadingFrom σ α := fun s => (.error ⟨cause, span⟩, s)

variable [Site σ]

/-- The lexeme at the place reached. -/
def peek : ReadingFrom σ Lexeme := fun s => (.ok (Site.current s), s)

/-- Whether the token at the place reached is `t`. -/
def at? (t : Token) : ReadingFrom σ Bool := fun s => (.ok ((Site.current s).token == t), s)

/-- Takes the lexeme at the place reached. -/
def take : ReadingFrom σ Lexeme := fun s => (.ok (Site.current s), Site.step s)

/-- Passes the lexeme at the place reached. -/
def step : ReadingFrom σ Unit := fun s => (.ok (), Site.step s)

/-- Goes one level deeper, or fails at `span` if none is left; `levels` are said to be left. -/
def nest (levels : Nat) (span : Span) : ReadingFrom σ Unit := Site.nest levels span

/-- Reads by `r` and then sets the nesting back, also after a fault. -/
def restoring (r : ReadingFrom σ α) : ReadingFrom σ α := fun s =>
  let (result, t) := r s
  (result, Site.restore s t)

/-- Whether the place reached is inside a loop, as it is said to be by `told`. -/
def insideLoop (told : Bool) : ReadingFrom σ Bool := fun s => (.ok (Site.insideLoop told s), s)

/-- Reads by `r` inside a loop, which is left also after a fault. -/
def looping (r : ReadingFrom σ α) : ReadingFrom σ α := fun s =>
  let (result, t) := r (Site.enterLoop s)
  (result, Site.exitLoop t)

/-- Takes the token `t`, which has to follow `after`. -/
def expect (t : Token) (after : String) : ReadingFrom σ Lexeme := do
  let x ← peek
  if x.token == t then take else fail (.expectedToken t after) x.span

/-- Takes a name. -/
def expectName : ReadingFrom σ Ident := do
  let x ← peek
  match x.token with
  | .ident name => do
    step
    pure ⟨name, x.span⟩
  | t => fail (.expectedName (if t.isReserved then some t else none)) x.span

end Reading

end GujaratiScript
