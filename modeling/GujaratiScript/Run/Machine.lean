import GujaratiScript.Run.Console
import GujaratiScript.Run.Operation
import GujaratiScript.Run.Scope
import GujaratiScript.Tree.Basic

/-!
# Running programs

* `Expr.eval` : the value of an expression; names are only looked up, lines are only read;
* `Stmt.run`, `Block.run` : the effect of statements on a `Machine`, and how they end (`Flow`);
* `Program.execute` : a whole program;
* `Program.interpret` : a whole program whose fault is reported as a last line of output.

A loop may never end, so running takes the number of rounds that each loop is allowed; a run that
would need more has no result. Everything else recurses on the tree.
-/

namespace GujaratiScript

/-! ## Expressions -/

/-- Evaluation reads lines from a feed and may meet a fault. -/
abbrev Eval (α : Type) := ExceptT RunFault (StateM Feed) α

namespace Eval

/-- Meets a fault. -/
def fail {α : Type} (cause : RunCause) (span : Span) : Eval α :=
  fun f => (.error ⟨cause, span⟩, f)

/-- The next line of input without its line breaks, wanted at `span`. -/
def readLine (span : Span) : Eval String := fun f =>
  match f.read with
  | (some line, f') => (.ok (withoutBreaks line), f')
  | (none, f') => (.error ⟨.inputExhausted, span⟩, f')

/-- The result of an operation, whose fault is placed at `span`. -/
def place {α : Type} (span : Span) (result : Except RunCause α) : Eval α := fun f =>
  match result with
  | .ok a => (.ok a, f)
  | .error cause => (.error ⟨cause, span⟩, f)

end Eval

/-- The value of an expression in the scopes `s`; operands are evaluated from left to right. -/
def Expr.eval (s : ScopeChain) : Expr → Eval Value
  | .int n _ => pure (.int n)
  | .str t _ => pure (.str t)
  | .bool b _ => pure (.bool b)
  | .var ident =>
    match s.get? ident.name with
    | some v => pure v
    | none => Eval.fail (.undefinedVariable ident.name) ident.span
  | .input span => do
    let line ← Eval.readLine span
    pure (.str line)
  | .negate e span => do
    let v ← e.eval s
    Eval.place span v.negate
  | .binary o l r operatorSpan _ => do
    let v ← l.eval s
    let w ← r.eval s
    Eval.place operatorSpan (Value.operate o v w)

/-! ## Statements -/

/-- The state of a run: the names, the input and the output. -/
structure Machine where
  scopes : ScopeChain
  feed : Feed
  log : Log
  deriving Inhabited

/-- How a statement ends: normally, or by leaving or repeating the innermost loop. -/
inductive Flow where
  | completed
  | leave (span : Span)
  | again (span : Span)
  deriving DecidableEq, Repr, Inhabited

/-- A run: nothing if a loop used up its rounds; otherwise a result or a fault, and the machine
after it. -/
abbrev Exec (α : Type) := ExceptT RunFault (StateT Machine Option) α

namespace Exec

/-- Meets a fault. -/
def fail {α : Type} (cause : RunCause) (span : Span) : Exec α :=
  fun m => some (.error ⟨cause, span⟩, m)

/-- The value of an expression. -/
def eval (e : Expr) : Exec Value := fun m =>
  let (result, feed) := e.eval m.scopes m.feed
  some (result, ⟨m.scopes, feed, m.log⟩)

/-- Offers a line for printing at `span`. -/
def print (line : String) (span : Span) : Exec Unit := fun m =>
  match m.log.write line with
  | (.ok (), log) => some (.ok (), ⟨m.scopes, m.feed, log⟩)
  | (.error fault, log) => some (.error ⟨.output fault, span⟩, ⟨m.scopes, m.feed, log⟩)

/-- Changes the names, or fails at the place of the name. -/
def update (ident : Ident) (change : ScopeChain → Except ScopeFault ScopeChain) : Exec Unit :=
  fun m =>
    match change m.scopes with
    | .ok scopes => some (.ok (), ⟨scopes, m.feed, m.log⟩)
    | .error .alreadyDeclared => some (.error ⟨.alreadyDeclared ident.name, ident.span⟩, m)
    | .error .undefined => some (.error ⟨.undefinedVariable ident.name, ident.span⟩, m)

/-- Runs inside a fresh frame, which is closed however the run ends. -/
def inFrame {α : Type} (run : Exec α) : Exec α := fun m =>
  match run ⟨m.scopes.push, m.feed, m.log⟩ with
  | none => none
  | some (result, m') => some (result, ⟨m'.scopes.pop, m'.feed, m'.log⟩)

/-- Runs `body`, and again as long as `condition` is truthy after it, at most `rounds` times. The
body may leave the loop at once or go to the condition. -/
def iterate (body : Exec Flow) (condition : Exec Value) : (rounds : Nat) → Exec Flow
  | 0 => fun _ => none
  | rounds + 1 => fun m =>
    match body m with
    | none => none
    | some (.error fault, m') => some (.error fault, m')
    | some (.ok (.leave _), m') => some (.ok .completed, m')
    | some (.ok _, m') =>
      match condition m' with
      | none => none
      | some (.error fault, m'') => some (.error fault, m'')
      | some (.ok v, m'') =>
        if v.isTruthy then iterate body condition rounds m'' else some (.ok .completed, m'')

end Exec

mutual

/-- Runs a statement; each loop is allowed `rounds` rounds. -/
def Stmt.run (rounds : Nat) : Stmt → Exec Flow
  | .print e span => do
    let v ← Exec.eval e
    Exec.print v.text span
    pure .completed
  | .declare ident e _ => do
    let v ← Exec.eval e
    Exec.update ident fun s => s.declare ident.name v
    pure .completed
  | .assign ident e _ => do
    let v ← Exec.eval e
    Exec.update ident fun s => s.assign ident.name v
    pure .completed
  | .branch c yes none _ => do
    let v ← Exec.eval c
    if v.isTruthy then yes.run rounds else pure .completed
  | .branch c yes (some no) _ => do
    let v ← Exec.eval c
    if v.isTruthy then yes.run rounds else no.run rounds
  | .loop body c _ => Exec.iterate (body.run rounds) (Exec.eval c) rounds
  | .leave span => pure (.leave span)
  | .again span => pure (.again span)
  | .block b => b.run rounds
termination_by structural s => s

/-- Runs a block in a frame of its own. -/
def Block.run (rounds : Nat) : Block → Exec Flow
  | ⟨body, _⟩ => Exec.inFrame (runAll rounds body)
termination_by structural b => b

/-- Runs statements in turn until one does not end normally. -/
def runAll (rounds : Nat) : List Stmt → Exec Flow
  | [] => pure .completed
  | s :: rest => do
    let flow ← s.run rounds
    match flow with
    | .completed => runAll rounds rest
    | _ => pure flow
termination_by structural l => l

end

/-! ## Programs -/

/-- Runs the statements of a program; leaving or repeating a loop outside of one is a fault. -/
def executeAll (rounds : Nat) : List Stmt → Exec Unit
  | [] => pure ()
  | s :: rest => do
    let flow ← s.run rounds
    match flow with
    | .completed => executeAll rounds rest
    | .leave span => Exec.fail (.controlOutsideLoop .tameJao) span
    | .again span => Exec.fail (.controlOutsideLoop .aagalVado) span

namespace Machine

/-- A machine before any run. -/
def start (feed : Feed) (log : Log) : Machine := ⟨.empty, feed, log⟩

/-- Offers a line that the program did not print. -/
def say (m : Machine) (line : String) : Machine := ⟨m.scopes, m.feed, (m.log.write line).2⟩

end Machine

/-- How a run reports its fault. -/
def RunFault.report (fault : RunFault) : String :=
  "Runtime Error: " ++ fault.cause.message

namespace Program

/-- Runs a program. -/
def execute (rounds : Nat) (p : Program) : Exec Unit := executeAll rounds p.body

/-- Runs a program and offers a report if it meets a fault; gives the exit code. -/
def interpret (rounds : Nat) (p : Program) (m : Machine) : Option (Nat × Machine) :=
  match p.execute rounds m with
  | none => none
  | some (.ok (), m') => some (0, m')
  | some (.error fault, m') => some (1, m'.say fault.report)

end Program

end GujaratiScript
