import GujaratiScript.Run.Fault

/-!
# The console of a program

* `Feed` : the lines that a program may still read, and how often it has tried;
* `Log` : the lines that a program has offered for printing, and how many of them are accepted.

Every attempt to read counts and takes at most one line (`pending_read`); every line offered is
kept, whether it is accepted or not (`offered_write`).
-/

namespace GujaratiScript

/-! ## Input -/

/-- The lines not yet read, and the number of attempts to read one. -/
structure Feed where
  pending : List String
  reads : Nat
  deriving Repr, Inhabited

namespace Feed

/-- A feed that nothing was read from. -/
def ofLines (lines : List String) : Feed := ⟨lines, 0⟩

/-- The next line, if there is one, and the feed after the attempt to read it. -/
def read (f : Feed) : Option String × Feed :=
  match f.pending with
  | [] => (none, ⟨[], f.reads + 1⟩)
  | line :: rest => (some line, ⟨rest, f.reads + 1⟩)

end Feed

/-- Reading gives the first pending line. -/
theorem read_eq_head? (f : Feed) : f.read.1 = f.pending.head? := by
  unfold Feed.read
  split <;> simp_all

/-- Reading takes the first pending line away. -/
@[simp] theorem pending_read (f : Feed) : f.read.2.pending = f.pending.tail := by
  unfold Feed.read
  split <;> simp_all

/-- Every attempt to read counts. -/
@[simp] theorem reads_read (f : Feed) : f.read.2.reads = f.reads + 1 := by
  unfold Feed.read
  split <;> rfl

/-- A line without the line breaks at its end. -/
def withoutBreaks (line : String) : String :=
  String.ofList (line.toList.reverse.dropWhile (· == '\n')).reverse

/-! ## Output -/

/-- The lines offered, how many of them are accepted at most (`none`: all of them), and how any
further one is refused. -/
structure Log where
  offered : Array String
  quota : Option Nat
  refusal : SystemFault
  deriving Repr, Inhabited

namespace Log

/-- A log that accepts every line. -/
def unlimited : Log := ⟨#[], none, .brokenPipe⟩

/-- A log that accepts `quota` lines and refuses every further one by `refusal`. -/
def limited (quota : Nat) (refusal : SystemFault) : Log := ⟨#[], some quota, refusal⟩

/-- Whether one more line is accepted. -/
def accepts (l : Log) : Bool :=
  match l.quota with
  | none => true
  | some n => l.offered.size < n

/-- Offers a line. -/
def write (l : Log) (line : String) : Except SystemFault Unit × Log :=
  (if l.accepts then .ok () else .error l.refusal, ⟨l.offered.push line, l.quota, l.refusal⟩)

/-- A line that is offered is kept as the last one. -/
@[simp] theorem offered_write (l : Log) (line : String) :
    (l.write line).2.offered = l.offered.push line := rfl

/-- Offering a line does not change how many are accepted. -/
@[simp] theorem quota_write (l : Log) (line : String) : (l.write line).2.quota = l.quota := rfl

/-- A line is refused exactly if as many lines as are accepted were offered before. -/
theorem write_eq_error_iff (l : Log) (line : String) :
    (l.write line).1 = .error l.refusal ↔ ∃ n, l.quota = some n ∧ n ≤ l.offered.size := by
  unfold Log.write accepts
  cases l.quota <;> simp

end Log

end GujaratiScript
