import GujaratiScript.Proofs.Run.Coupling
import GujaratiScript.Proofs.Run.Scopes

/-!
# Output that is refused

A line that is refused ends the run at the statement that prints it. Up to there a run with an
output that refuses lines is the run with an output that accepts all of them, and behind it nothing
is done but to close the frames that are open.

* `Stmt.printings`, `Block.printings`, `printingsAll` : the lines that a run offers, each with the
  place of its statement and with what is left of the machine if the run ends there;
* `Exec.Prints` : what a run does with an output of either kind, in terms of these lines; a rule for
  each basic run, one for runs in sequence, one for frames and one for loops;
* `Stmt.prints`, `Block.prints`, `prints_all` : it holds of the runs of all trees;
* `refusal_stops_the_run` : the main statement.
-/

namespace GujaratiScript

open Exec

/-! ## Printings -/

/-- A line that is offered in a run: the place of the statement that prints it, and the scopes and
the input at that moment, where the frames that the run has opened are closed again. -/
structure Printing where
  span : Span
  line : String
  scopes : ScopeChain
  feed : Feed

/-- A line that is offered inside of one more frame. -/
def Printing.closed (p : Printing) : Printing := ⟨p.span, p.line, p.scopes.pop, p.feed⟩

/-- The lines that are offered. -/
def printedLines (ps : List Printing) : Array String := (ps.map Printing.line).toArray

/-- The lines that a run from each machine offers, in order. -/
abbrev Printings := Machine → List Printing

namespace Printings

variable {α : Type}

/-- Nothing is offered. -/
def silent : Printings := fun _ => []

/-- What is offered behind the run `x`, if that gives a result. -/
def after (x : Exec α) (next : α → Printings) : Printings := fun m =>
  match x m with
  | some (.ok a, m') => next a m'
  | _ => []

/-- What is offered inside of a frame. -/
def inFrame (ps : Printings) : Printings := fun m => (ps m.opened).map Printing.closed

/-- What a loop offers, if its body offers `ps` in each of its rounds. -/
def iterate (body : Exec Flow) (ps : Printings) (condition : Exec Value) : Nat → Printings
  | 0 => silent
  | rounds + 1 => fun m => ps m ++
    after body (fun flow =>
      match flow with
      | .leave _ => silent
      | _ => after condition fun v =>
        if v.isTruthy then iterate body ps condition rounds else silent) m

end Printings

open Printings

mutual

/-- The lines that a statement offers. -/
def Stmt.printings (rounds : Nat) : Stmt → Printings
  | .print e span => after (Exec.eval e) fun v m => [⟨span, v.text, m.scopes, m.feed⟩]
  | .declare _ _ _ | .assign _ _ _ => silent
  | .branch c yes none _ =>
    after (Exec.eval c) fun v => if v.isTruthy then yes.printings rounds else silent
  | .branch c yes (some no) _ =>
    after (Exec.eval c) fun v => if v.isTruthy then yes.printings rounds else no.printings rounds
  | .loop body c _ =>
    Printings.iterate (body.run rounds) (body.printings rounds) (Exec.eval c) rounds
  | .leave _ | .again _ => silent
  | .block b => b.printings rounds
termination_by structural s => s

/-- The lines that a block offers. -/
def Block.printings (rounds : Nat) : Block → Printings
  | ⟨body, _⟩ => Printings.inFrame (printingsAll rounds body)
termination_by structural b => b

/-- The lines that statements in sequence offer. -/
def printingsAll (rounds : Nat) : List Stmt → Printings
  | [] => silent
  | s :: rest => fun m => s.printings rounds m ++
    after (s.run rounds) (fun flow =>
      match flow with
      | .completed => printingsAll rounds rest
      | _ => silent) m
termination_by structural l => l

end

/-- The lines that a program offers. -/
def Program.printings (rounds : Nat) (p : Program) : Printings := printingsAll rounds p.body

/-! ## Runs that print -/

/-- An output that still accepts a line takes it. -/
theorem Log.write_of_accepts {l : Log} (h : l.accepts = true) (line : String) :
    l.write line = (.ok (), ⟨l.offered.push line, l.quota, l.refusal⟩) := by
  rw [write, if_pos h]

/-- An output that refuses the line has it offered all the same. -/
theorem Log.write_of_refuses {l : Log} (h : l.accepts = false) (line : String) :
    l.write line = (.error l.refusal, ⟨l.offered.push line, l.quota, l.refusal⟩) := by
  rw [write, if_neg (by simp [h])]

/-- The machine with an output that accepts `n` lines in all and refuses any other by `refusal`. -/
def Machine.limited (n : Nat) (refusal : SystemFault) (m : Machine) : Machine :=
  ⟨m.scopes, m.feed, ⟨m.log.offered, some n, refusal⟩⟩

/-- The lines of two runs one after the other. -/
theorem printedLines_append (ps qs : List Printing) :
    printedLines (ps ++ qs) = printedLines ps ++ printedLines qs := by
  rw [printedLines, List.map_append, ← List.append_toArray]
  rfl

/-- The frame around a line has no part in its text. -/
theorem printedLines_map_closed (ps : List Printing) :
    printedLines (ps.map Printing.closed) = printedLines ps := by
  rw [printedLines, List.map_map]
  rfl

/-- There is one line for each printing. -/
theorem size_printedLines (ps : List Printing) : (printedLines ps).size = ps.length := by
  rw [printedLines, List.size_toArray, List.length_map]

namespace Exec

variable {α β : Type} {x : Exec α} {ps qs : Printings}

/-- If the run `x` ends from `m` with an output that accepts all lines, it has offered those of `l`.
With an output that refuses some of them it is cut off at the first of these, and otherwise it is
the same. -/
def PrintsFrom (m : Machine) (x : Exec α) (l : List Printing) : Prop :=
  ∀ r m', m.log.quota = none → x m = some (r, m') →
    m'.log = ⟨m.log.offered ++ printedLines l, none, m.log.refusal⟩ ∧
    ∀ n refusal, m.log.offered.size ≤ n →
      x (m.limited n refusal) =
        match l[n - m.log.offered.size]? with
        | none => some (r, m'.limited n refusal)
        | some p => some (.error ⟨.output refusal, p.span⟩,
          ⟨p.scopes, p.feed,
            ⟨m.log.offered ++ printedLines (l.take (n - m.log.offered.size + 1)), some n, refusal⟩⟩)

/-- The lines that the run `x` offers are `ps`, from every machine. -/
def Prints (x : Exec α) (ps : Printings) : Prop := ∀ m, PrintsFrom m x (ps m)

/-- A run that does not look at the output prints nothing. -/
theorem prints_of_forall (h : ∀ s f, ∃ r s' f', ∀ l, x ⟨s, f, l⟩ = some (r, ⟨s', f', l⟩)) :
    x.Prints silent := by
  rintro ⟨s, f, l⟩ r m' free ends
  obtain ⟨r', s', f', eq⟩ := h s f
  rw [eq] at ends
  cases ends
  refine ⟨?_, fun n refusal _ => eq _⟩
  show l = ⟨l.offered ++ #[], none, l.refusal⟩
  rw [Array.append_empty, ← free]

/-- A run that does nothing offers nothing. -/
theorem prints_pure (a : α) : (pure a : Exec α).Prints silent :=
  prints_of_forall fun _ _ => ⟨_, _, _, fun _ => rfl⟩

/-- A run that fails offers nothing. -/
theorem prints_fail (cause : RunCause) (span : Span) : (fail cause span : Exec α).Prints silent :=
  prints_of_forall fun _ _ => ⟨_, _, _, fun _ => rfl⟩

/-- An expression offers nothing. -/
theorem prints_eval (e : Expr) : (Exec.eval e).Prints silent :=
  prints_of_forall fun s f => ⟨(e.eval s f).1, s, (e.eval s f).2, fun _ => rfl⟩

/-- A change of a name offers nothing. -/
theorem prints_update (ident : Ident) (change : ScopeChain → Except ScopeFault ScopeChain) :
    (Exec.update ident change).Prints silent := by
  refine prints_of_forall fun s f => ?_
  unfold update
  dsimp only
  rcases change s with fault | t
  · cases fault <;> exact ⟨_, _, _, fun _ => rfl⟩
  · exact ⟨_, _, _, fun _ => rfl⟩

/-- A line is offered, also if it is refused. -/
theorem prints_print (line : String) (span : Span) :
    (Exec.print line span).Prints fun m => [⟨span, line, m.scopes, m.feed⟩] := by
  intro m r m' free ends
  unfold print at ends ⊢
  have accepts : m.log.accepts = true := by
    rw [Log.accepts, free]
  rw [Log.write_of_accepts accepts] at ends
  cases ends
  refine ⟨by rw [free]; rfl, fun n refusal le => ?_⟩
  by_cases room : m.log.offered.size < n
  · have accepts : (m.limited n refusal).log.accepts = true := decide_eq_true room
    have past : 1 ≤ n - m.log.offered.size := by omega
    rw [Log.write_of_accepts accepts, List.getElem?_eq_none past]
    rfl
  · obtain rfl : n = m.log.offered.size := Nat.le_antisymm (Nat.not_lt.1 room) le
    have refuses : (m.limited m.log.offered.size refusal).log.accepts = false :=
      decide_eq_false room
    rw [Log.write_of_refuses refuses, Nat.sub_self]
    rfl

/-- Two runs in sequence print what the first does, and then what the second does. -/
theorem Prints.bind {f : α → Exec β} {next : α → Printings} (hx : x.Prints ps)
    (hf : ∀ a, (f a).Prints (next a)) :
    (x >>= f).Prints fun m => ps m ++ after x next m := by
  intro m
  show PrintsFrom m (x >>= f) (ps m ++ after x next m)
  intro r m' free ends
  rw [bind_apply] at ends
  rcases run : x m with _ | ⟨fault | a, m₁⟩
  · rw [run] at ends
    cases ends
  · rw [run] at ends
    cases ends
    -- the first run has failed, so nothing comes behind it
    have nothing : after x next m = [] := by
      rw [after, run]
    obtain ⟨log, limited⟩ := hx m _ _ free run
    rw [nothing, List.append_nil]
    refine ⟨log, fun n refusal le => ?_⟩
    rw [bind_apply, limited n refusal le]
    cases (ps m)[n - m.log.offered.size]? <;> rfl
  · rw [run] at ends
    dsimp only at ends
    -- both runs go on; line `n` is counted from the end of those of the first
    have later : after x next m = next a m₁ := by
      rw [after, run]
    obtain ⟨log, limited⟩ := hx m _ _ free run
    have free₁ : m₁.log.quota = none := by rw [log]
    have size : m₁.log.offered.size = m.log.offered.size + (ps m).length := by
      rw [log, Array.size_append, size_printedLines]
    obtain ⟨log', limited'⟩ := hf a m₁ r m' free₁ ends
    rw [later]
    constructor
    · rw [log', log, printedLines_append, Array.append_assoc]
    · intro n refusal le
      rw [bind_apply, limited n refusal le]
      by_cases cut : n - m.log.offered.size < (ps m).length
      · -- a line of the first run is refused
        rw [List.getElem?_append_left cut, List.getElem?_eq_getElem cut,
          List.take_append_of_le_length cut]
      · have le' : m₁.log.offered.size ≤ n := by omega
        have rest : n - m.log.offered.size - (ps m).length = n - m₁.log.offered.size := by omega
        have pre : n - m.log.offered.size + 1 = (ps m).length + (n - m₁.log.offered.size + 1) := by
          omega
        rw [List.getElem?_append_right (Nat.not_lt.1 cut), rest, pre, List.take_length_add_append,
          List.getElem?_eq_none (Nat.not_lt.1 cut), printedLines_append, ← Array.append_assoc]
        dsimp only
        rw [limited' n refusal le', log]

/-- Before nothing, nothing is added. -/
theorem after_silent (x : Exec α) : after x (fun _ => silent) = silent := by
  funext m
  unfold after
  split <;> rfl

/-- If the first of two runs prints nothing, all lines are those of the second. -/
theorem Prints.bind_of_silent {f : α → Exec β} {next : α → Printings} (hx : x.Prints silent)
    (hf : ∀ a, (f a).Prints (next a)) : (x >>= f).Prints (after x next) := hx.bind hf

/-- If the second prints nothing, they are those of the first. -/
theorem Prints.bind_silent {f : α → Exec β} (hx : x.Prints ps) (hf : ∀ a, (f a).Prints silent) :
    (x >>= f).Prints ps := by
  intro m
  have both := hx.bind hf m
  rw [after_silent] at both
  exact (List.append_nil (ps m)) ▸ both

/-- In a fresh frame: what is cut off there closes the frame as well. -/
theorem PrintsFrom.inFrame {m : Machine} {l : List Printing} (h : PrintsFrom m.opened x l) :
    PrintsFrom m (Exec.inFrame x) (l.map Printing.closed) := by
  intro r m' free ends
  unfold Exec.inFrame at ends ⊢
  rcases run : x ⟨m.scopes.push, m.feed, m.log⟩ with _ | ⟨r', m₁⟩
  · rw [run] at ends
    cases ends
  · rw [run] at ends
    cases ends
    obtain ⟨log, limited⟩ := h _ _ free run
    rw [printedLines_map_closed]
    refine ⟨log, fun n refusal le => ?_⟩
    have cut := limited n refusal le
    rw [← List.map_take, printedLines_map_closed, List.getElem?_map]
    dsimp only [Machine.limited, Machine.opened] at cut ⊢
    rw [cut]
    cases l[n - m.log.offered.size]? <;> rfl

/-- So from every machine. -/
theorem Prints.inFrame (h : x.Prints ps) : (Exec.inFrame x).Prints (Printings.inFrame ps) :=
  fun m => (h m.opened).inFrame

/-- A loop, if its condition prints nothing. -/
theorem Prints.iterate {body : Exec Flow} {condition : Exec Value} (hb : body.Prints ps)
    (hc : condition.Prints silent) (rounds : Nat) :
    (Exec.iterate body condition rounds).Prints (Printings.iterate body ps condition rounds) := by
  induction rounds with
  | zero =>
    intro m r m' _ ends
    cases ends
  | succ rounds ih =>
    rw [iterate_succ]
    refine hb.bind fun flow => ?_
    have again : (recheck condition (Exec.iterate body condition rounds)).Prints
        (after condition fun v =>
          if v.isTruthy then Printings.iterate body ps condition rounds else silent) := by
      refine hc.bind_of_silent fun v => ?_
      split
      · exact ih
      · exact prints_pure _
    cases flow with
    | completed | again span => exact again
    | leave span => exact prints_pure _

end Exec

/-! ## Statements -/

mutual

/-- A statement offers its lines. -/
theorem Stmt.prints (rounds : Nat) (s : Stmt) : (s.run rounds).Prints (s.printings rounds) := by
  match s with
  | .print e span =>
    refine (prints_eval e).bind_of_silent fun v => ?_
    exact (prints_print v.text span).bind_silent fun _ => prints_pure _
  | .declare ident e _ =>
    refine (prints_eval e).bind_silent fun v => ?_
    exact (prints_update ident _).bind_silent fun _ => prints_pure _
  | .assign ident e _ =>
    refine (prints_eval e).bind_silent fun v => ?_
    exact (prints_update ident _).bind_silent fun _ => prints_pure _
  | .branch c yes none _ =>
    refine (prints_eval c).bind_of_silent fun v => ?_
    split
    · exact yes.prints rounds
    · exact prints_pure _
  | .branch c yes (some no) _ =>
    refine (prints_eval c).bind_of_silent fun v => ?_
    split
    · exact yes.prints rounds
    · exact no.prints rounds
  | .loop body c _ => exact (body.prints rounds).iterate (prints_eval c) rounds
  | .leave _ | .again _ => exact prints_pure _
  | .block b => exact b.prints rounds

/-- What a block offers is what its run prints. -/
theorem Block.prints (rounds : Nat) (b : Block) : (b.run rounds).Prints (b.printings rounds) := by
  match b with
  | ⟨body, _⟩ => exact (prints_all rounds body).inFrame

/-- So for statements in sequence, by induction on them. -/
theorem prints_all (rounds : Nat) (body : List Stmt) :
    (runAll rounds body).Prints (printingsAll rounds body) := by
  match body with
  | [] => exact prints_pure _
  | s :: rest =>
    refine (s.prints rounds).bind fun flow => ?_
    cases flow with
    | completed => exact prints_all rounds rest
    | leave span | again span => exact prints_pure _

end

/-- So for a whole program. -/
theorem Program.prints (rounds : Nat) (p : Program) :
    (p.execute rounds).Prints (p.printings rounds) := by
  unfold Program.execute Program.printings
  rw [executeAll_eq]
  refine (prints_all rounds p.body).bind_silent fun flow => ?_
  cases flow with
  | completed => exact prints_pure _
  | leave span | again span => exact prints_fail _ _

/-! ## Programs -/

/-- A program that ends when every line is accepted ends in the same way, after the same lines, if
at least as many lines are accepted as it offers. If fewer are, it ends at the first line that is
refused: it has offered this line and those before it, the fault has the place of the statement that
offers this line, and names and input are those of that moment, with all frames closed that were
opened since the beginning. Behind it only the report of the fault is offered. -/
theorem refusal_stops_the_run (p : Program) (rounds : Nat) (s : ScopeChain) (feed : Feed)
    (r : Except RunFault Unit) (m : Machine)
    (ends : p.execute rounds ⟨s, feed, .unlimited⟩ = some (r, m)) :
    m.log.offered.toList = (p.printings rounds ⟨s, feed, .unlimited⟩).map Printing.line ∧
    ∀ (n : Nat) (refusal : SystemFault),
      (m.log.offered.size ≤ n → p.execute rounds ⟨s, feed, .limited n refusal⟩ =
        some (r, ⟨m.scopes, m.feed, ⟨m.log.offered, some n, refusal⟩⟩)) ∧
      (n < m.log.offered.size → ∃ print m',
        (p.printings rounds ⟨s, feed, .unlimited⟩)[n]? = some print ∧
        p.execute rounds ⟨s, feed, .limited n refusal⟩ =
          some (.error ⟨.output refusal, print.span⟩, m') ∧
        m'.log.offered.toList = m.log.offered.toList.take (n + 1) ∧
        m'.scopes = print.scopes ∧ m'.feed = print.feed ∧
        m'.scopes.links = s.links ∧ m'.scopes.current = s.current ∧
        ∃ m'', p.interpret rounds ⟨s, feed, .limited n refusal⟩ = some (1, m'') ∧
          m''.log.offered =
            m'.log.offered.push ("Runtime Error: Failed to write output: " ++ refusal.text) ∧
          m''.scopes = m'.scopes ∧ m''.feed = m'.feed) := by
  obtain ⟨log, limited⟩ := p.prints rounds ⟨s, feed, .unlimited⟩ r m rfl ends
  generalize p.printings rounds ⟨s, feed, .unlimited⟩ = l at log limited ⊢
  have lines : m.log.offered = printedLines l := by
    rw [log]
    exact Array.empty_append
  have size : m.log.offered.size = l.length := by
    rw [lines, size_printedLines]
  refine ⟨by rw [lines, printedLines], fun n refusal => ?_⟩
  -- nothing was offered before, so the line with number `n` is the printing with that number
  have run : p.execute rounds ⟨s, feed, .limited n refusal⟩ = _ := limited n refusal (Nat.zero_le n)
  dsimp only [Log.unlimited] at run
  rw [Array.size_empty, Nat.sub_zero] at run
  constructor
  · intro le
    rw [List.getElem?_eq_none (size ▸ le)] at run
    exact run
  · intro lt
    obtain ⟨print, refused⟩ : ∃ print, l[n]? = some print :=
      ⟨_, List.getElem?_eq_getElem (size ▸ lt)⟩
    rw [refused, Array.empty_append] at run
    let stopped : Machine :=
      ⟨print.scopes, print.feed, ⟨printedLines (l.take (n + 1)), some n, refusal⟩⟩
    have stops : p.execute rounds ⟨s, feed, .limited n refusal⟩ =
        some (.error ⟨.output refusal, print.span⟩, stopped) := run
    have reports : p.interpret rounds ⟨s, feed, .limited n refusal⟩ =
        some (1, stopped.say (RunFault.report ⟨.output refusal, print.span⟩)) := by
      unfold Program.interpret
      rw [stops]
    obtain ⟨added, kept⟩ := evolves_executeAll p.body rounds _ _ _ stops
    refine ⟨print, stopped, refused, stops, ?_, rfl, rfl, kept.links, kept.current, _, reports, ?_,
      rfl, rfl⟩
    · rw [lines, printedLines, ← List.map_take]
      rfl
    · have text : RunFault.report ⟨.output refusal, print.span⟩ =
          "Runtime Error: Failed to write output: " ++ refusal.text := by
        have head : "Runtime Error: " ++ "Failed to write output: " =
            "Runtime Error: Failed to write output: " := by decide
        rw [← head, String.append_assoc]
        rfl
      rw [← text]
      rfl

/-- Prints a line, and then two more inside of a block with a name of its own. -/
def Program.threeLines : Program :=
  ⟨[.print (.str "a" .nowhere) ⟨0, 1, 1, 1⟩,
    .block ⟨[.declare ⟨"x", .nowhere⟩ (.int 1 .nowhere) .nowhere,
      .print (.str "b" .nowhere) ⟨2, 3, 2, 1⟩,
      .print (.str "c" .nowhere) ⟨4, 5, 3, 1⟩], .nowhere⟩], .nowhere⟩

/-- The first of the two lines inside of the block is refused. -/
theorem refusal_stops_the_run_block :
    ∃ m m', Program.threeLines.execute 1 ⟨.empty, .ofLines [], .unlimited⟩ = some (.ok (), m) ∧
      m.log.offered.toList = ["a", "b", "c"] ∧
      Program.threeLines.execute 1 ⟨.empty, .ofLines [], .limited 1 .brokenPipe⟩ =
        some (.error ⟨.output .brokenPipe, ⟨2, 3, 2, 1⟩⟩, m') ∧
      m'.log.offered.toList = ["a", "b"] ∧ m'.scopes.links = ScopeChain.empty.links := by
  obtain ⟨m, ends⟩ : ∃ m, Program.threeLines.execute 1 ⟨.empty, .ofLines [], .unlimited⟩ =
      some (.ok (), m) := ⟨_, rfl⟩
  have lines : m.log.offered.toList = ["a", "b", "c"] := by
    cases ends
    rfl
  obtain ⟨-, cut⟩ := refusal_stops_the_run _ 1 _ _ _ m ends
  have two : 1 < m.log.offered.size := by
    rw [← Array.length_toList, lines]
    decide
  obtain ⟨print, m', refused, stops, offered, -, -, links, -⟩ := (cut 1 .brokenPipe).2 two
  cases refused
  rw [lines] at offered
  exact ⟨m, m', ends, lines, stops, offered, links⟩

end GujaratiScript
