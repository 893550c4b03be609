import GujaratiScript.Proofs.Layout.RoundTrip
import GujaratiScript.Proofs.Run.Ensures
import GujaratiScript.Proofs.Run.Operation

/-!
# Loop control stays in loops

A statement ends by leaving or repeating a loop only if it holds such a node outside of its own
loops. The programs that are read hold none, so none of them ends with the fault of one.

* `Stmt.loose` : the loop control of a statement outside of its loops;
* `Stmt.endsBy`, `Block.endsBy` : how a run of any tree may end;
* `executeAll_controlOutsideLoop` : where the fault of loop control comes from;
* `control_stays_in_loops` : both for the programs that are read and for all trees.
-/

namespace GujaratiScript

open Grammar Exec

/-! ## Loop control outside of loops -/

mutual

/-- The nodes of a statement that leave or repeat a loop and stand inside none of its loops. -/
def Stmt.loose : Stmt → List Stmt
  | .print _ _ => []
  | .declare _ _ _ => []
  | .assign _ _ _ => []
  | .branch _ yes none _ => yes.loose
  | .branch _ yes (some no) _ => yes.loose ++ no.loose
  | .loop _ _ _ => []
  | .leave span => [.leave span]
  | .again span => [.again span]
  | .block b => b.loose
termination_by structural s => s

/-- The nodes of a block that leave or repeat a loop around it. -/
def Block.loose : Block → List Stmt
  | ⟨body, _⟩ => allLoose body
termination_by structural b => b

/-- The nodes of statements in sequence that leave or repeat a loop around them. -/
def allLoose : List Stmt → List Stmt
  | [] => []
  | s :: rest => s.loose ++ allLoose rest
termination_by structural l => l

end

mutual

/-- The loop control of a statement is placed, outside of all loops, iff all of it stands inside
loops of its own. -/
theorem Stmt.placed_false_iff (s : Stmt) : s.placed false = true ↔ s.loose = [] := by
  match s with
  | .print _ _ | .declare _ _ _ | .assign _ _ _ => exact iff_of_true rfl rfl
  | .branch _ yes none _ => exact yes.placed_false_iff
  | .branch _ yes (some no) _ =>
    rw [Stmt.placed, Stmt.loose, Bool.and_eq_true, List.append_eq_nil_iff, yes.placed_false_iff,
      no.placed_false_iff]
  | .loop body _ _ => exact iff_of_true body.placed_true rfl
  | .leave _ | .again _ => exact iff_of_false Bool.false_ne_true (List.cons_ne_nil _ _)
  | .block b => exact b.placed_false_iff

theorem Block.placed_false_iff (b : Block) : b.placed false = true ↔ b.loose = [] := by
  match b with
  | ⟨body, _⟩ => exact allPlaced_false_iff body

theorem allPlaced_false_iff (body : List Stmt) :
    allPlaced false body = true ↔ allLoose body = [] := by
  match body with
  | [] => exact iff_of_true rfl rfl
  | s :: rest =>
    rw [allPlaced, allLoose, Bool.and_eq_true, List.append_eq_nil_iff, s.placed_false_iff,
      allPlaced_false_iff rest]

end

/-! ## Faults of other kinds -/

/-- The cause that loop control stands outside of loops. -/
def RunCause.IsControl : RunCause → Prop
  | controlOutsideLoop _ => True
  | _ => False

/-- No operation fails by loop control. -/
theorem RunCause.IsOperational.not_isControl {cause : RunCause} (h : cause.IsOperational) :
    ¬ cause.IsControl := by
  cases cause <;> first
    | exact id
    | cases h

/-- No fault of an evaluation is one of loop control. -/
def Eval.Quiet {α : Type} (x : Eval α) : Prop :=
  ∀ f e f', x f = (.error e, f') → ¬ e.cause.IsControl

/-- No expression fails by loop control. -/
theorem Expr.quiet_eval (s : ScopeChain) (e : Expr) : (e.eval s).Quiet := by
  induction e with
  | int | str | bool => exact Eval.faults_pure _
  | var ident =>
    unfold Expr.eval
    split
    · exact Eval.faults_pure _
    · exact Eval.faults_fail id
  | input span => exact (Eval.faults_readLine id).bind fun _ => Eval.faults_pure _
  | negate e span ih =>
    refine Eval.Faults.bind ih fun v => Eval.faults_place fun cause failed => ?_
    exact (Value.isOperational_of_negate failed).not_isControl
  | binary o l r operatorSpan span ihl ihr =>
    refine Eval.Faults.bind ihl fun v => Eval.Faults.bind ihr fun w => ?_
    refine Eval.faults_place fun cause failed => ?_
    exact (Value.isOperational_of_operate failed).not_isControl

/-! ## How statements end -/

/-- The node that a statement has ended by, if it has not ended normally. -/
def Flow.node? : Flow → Option Stmt
  | completed => none
  | leave span => some (.leave span)
  | again span => some (.again span)

/-- Ends normally or by one of the nodes `nodes`, or meets a fault that is not one of loop
control. -/
def EndsBy (nodes : List Stmt) : Except RunFault Flow → Prop
  | .ok flow => ∀ s ∈ flow.node?, s ∈ nodes
  | .error fault => ¬ fault.cause.IsControl

theorem EndsBy.mono {xs ys : List Stmt} (sub : xs ⊆ ys) {r : Except RunFault Flow}
    (h : EndsBy xs r) : EndsBy ys r := by
  cases r with
  | ok flow => exact fun s mem => sub (h s mem)
  | error fault => exact h

theorem endsBy_completed (nodes : List Stmt) : EndsBy nodes (.ok .completed) := nofun

namespace Exec

variable {α : Type} {nodes : List Stmt}

/-- No fault of a run is one of loop control. -/
def Quiet (x : Exec α) : Prop :=
  ∀ m, Ensures m x fun r _ => ∀ e, r = .error e → ¬ e.cause.IsControl

theorem quiet_eval (e : Expr) : (Exec.eval e).Quiet := faults_eval e.quiet_eval

theorem quiet_print (line : String) (span : Span) : (Exec.print line span).Quiet :=
  faults_print line fun _ => id

theorem quiet_update (ident : Ident) (change : ScopeChain → Except ScopeFault ScopeChain) :
    (Exec.update ident change).Quiet := by
  refine faults_update change fun fault => ?_
  cases fault <;> exact id

/-- What runs first only decides how to go on. -/
theorem Quiet.endsBy {x : Exec α} {f : α → Exec Flow} (hx : x.Quiet)
    (hf : ∀ a m, Ensures m (f a) fun r _ => EndsBy nodes r) (m : Machine) :
    Ensures m (x >>= f) fun r _ => EndsBy nodes r :=
  (hx m).bind (fun e _ quiet => quiet e rfl) fun a m' _ => hf a m'

theorem endsBy_pure (m : Machine) :
    Ensures m (pure .completed) fun r _ => EndsBy nodes r :=
  ensures_pure (endsBy_completed nodes)

/-- A loop absorbs whatever its body ends by. -/
theorem endsBy_iterate {body : Exec Flow}
    (hb : ∀ m, Ensures m body fun r _ => EndsBy nodes r) (c : Expr) (rounds : Nat) (m : Machine) :
    Ensures m (Exec.iterate body (Exec.eval c) rounds) fun r _ => EndsBy [] r := by
  -- nothing has to be kept between rounds, since only faults get out of the loop as they are
  refine Ensures.iterate (fun _ => True) (fun _ => True) ?_ ?_ rounds trivial
  · rintro m -
    refine (hb m).weaken fun r m' h => ?_
    rcases r with fault | _ | _ | _
    · exact h
    · trivial
    · exact endsBy_completed []
    · trivial
  · rintro m -
    refine (quiet_eval c m).weaken fun r m' h => ?_
    rcases r with fault | v
    · exact h fault rfl
    · dsimp only
      split
      · trivial
      · exact endsBy_completed []

end Exec

mutual

/-- A statement ends normally or by loop control outside of its loops. -/
theorem Stmt.endsBy (s : Stmt) (rounds : Nat) (m : Machine) :
    Ensures m (s.run rounds) fun r _ => EndsBy s.loose r := by
  match s with
  | .print e span =>
    exact (quiet_eval e).endsBy (fun v => (quiet_print v.text span).endsBy fun _ => endsBy_pure) m
  | .declare ident e _ | .assign ident e _ =>
    exact (quiet_eval e).endsBy (fun v => (quiet_update ident _).endsBy fun _ => endsBy_pure) m
  | .branch c yes none _ =>
    refine (quiet_eval c).endsBy (fun v m => ?_) m
    split
    · exact yes.endsBy rounds m
    · exact endsBy_pure m
  | .branch c yes (some no) _ =>
    refine (quiet_eval c).endsBy (fun v m => ?_) m
    split
    · exact (yes.endsBy rounds m).weaken fun _ _ => .mono (List.subset_append_left _ _)
    · exact (no.endsBy rounds m).weaken fun _ _ => .mono (List.subset_append_right _ _)
  | .loop body c _ => exact endsBy_iterate (body.endsBy rounds) c rounds m
  | .leave span | .again span =>
    refine ensures_pure ?_
    rintro s ⟨⟩
    exact List.mem_cons_self
  | .block b => exact b.endsBy rounds m

theorem Block.endsBy (b : Block) (rounds : Nat) (m : Machine) :
    Ensures m (b.run rounds) fun r _ => EndsBy b.loose r := by
  match b with
  | ⟨body, _⟩ => exact Ensures.inFrame (endsBy_all body rounds _)

theorem endsBy_all (body : List Stmt) (rounds : Nat) (m : Machine) :
    Ensures m (runAll rounds body) fun r _ => EndsBy (allLoose body) r := by
  match body with
  | [] => exact endsBy_pure m
  | s :: rest =>
    refine (s.endsBy rounds m).bind (fun _ _ h => h) fun flow m' h => ?_
    have first : EndsBy (allLoose (s :: rest)) (.ok flow) :=
      EndsBy.mono (List.subset_append_left _ _) h
    cases flow with
    | completed =>
      exact (endsBy_all rest rounds m').weaken fun _ _ => .mono (List.subset_append_right _ _)
    | leave span | again span => exact ensures_pure first

end

/-! ## How programs end -/

/-- The fault of loop control comes from a node outside of all loops. -/
theorem executeAll_controlOutsideLoop (body : List Stmt) (rounds : Nat) (m : Machine) :
    Ensures m (executeAll rounds body) fun r _ => ∀ e, r = .error e → e.cause.IsControl →
      .leave e.span ∈ allLoose body ∨ .again e.span ∈ allLoose body := by
  rw [executeAll_eq]
  refine (endsBy_all body rounds m).bind ?_ fun flow m' h => ?_
  · rintro e m' quiet _ ⟨⟩ control
    exact absurd control quiet
  · cases flow with
    | completed => exact ensures_pure nofun
    | leave span =>
      refine ensures_fail ?_
      rintro e ⟨⟩ -
      exact .inl (h _ rfl)
    | again span =>
      refine ensures_fail ?_
      rintro e ⟨⟩ -
      exact .inr (h _ rfl)

/-- No program that was read ends with loop control outside of a loop, whatever it reads and however
its output is refused. Any tree ends by loop control only if it holds that very node outside of its
own loops, and a loop never does. -/
theorem control_stays_in_loops :
    (∀ text p, Program.ofSource text = .ok p → ∀ rounds m keyword span m',
      p.execute rounds m ≠ some (.error ⟨.controlOutsideLoop keyword, span⟩, m')) ∧
    (∀ (s : Stmt) (rounds : Nat) (m m' : Machine) (span : Span),
      (s.run rounds m = some (.ok (.leave span), m') → .leave span ∈ s.loose) ∧
        (s.run rounds m = some (.ok (.again span), m') → .again span ∈ s.loose)) ∧
    ∀ (body : Block) (c : Expr) (span : Span) (rounds : Nat) (m m' : Machine) (flow : Flow),
      (Stmt.loop body c span).run rounds m = some (.ok flow, m') → flow = .completed := by
  refine ⟨?_, fun s rounds m m' span => ⟨?_, ?_⟩, ?_⟩
  · intro text p read rounds m keyword span m' ends
    have placed : allLoose p.body = [] :=
      (allPlaced_false_iff p.body).1 (sound_of_ofSource read).placed
    have loose := executeAll_controlOutsideLoop p.body rounds m _ _ ends _ rfl trivial
    rw [placed] at loose
    rcases loose with mem | mem <;> cases mem
  · intro ends
    exact s.endsBy rounds m _ _ ends _ rfl
  · intro ends
    exact s.endsBy rounds m _ _ ends _ rfl
  · intro body c span rounds m m' flow ends
    have absorbed := Stmt.endsBy _ rounds m _ _ ends
    cases flow with
    | completed => rfl
    | leave span | again span => cases absorbed _ rfl

/-- A conditional that runs `s` in any case. -/
def Stmt.guarded (s : Stmt) : Stmt :=
  .branch (.bool true .nowhere) ⟨[s], .nowhere⟩ none .nowhere

/-- A loop that is left from inside a conditional, read and run; that conditional by itself, leaving
or repeating a loop around it; and the loop by itself. -/
theorem control_stays_in_loops_guarded :
    (∃ p, Program.ofSource ("kem bhai\nfarvu \x7b\n  jo bhai chhe \x7b\n    tame jao\n  \x7d\n" ++
        "\x7d jya sudhi bhai chhe\naavjo bhai\n") = .ok p ∧
      p.execute 1 (.start (.ofLines []) .unlimited) ≠
        some (.error ⟨.controlOutsideLoop .tameJao, ⟨37, 45, 4, 5⟩⟩,
          .start (.ofLines []) .unlimited)) ∧
    (∃ m', (Stmt.guarded (.leave ⟨37, 45, 4, 5⟩)).run 1 (.start (.ofLines []) .unlimited) =
        some (.ok (.leave ⟨37, 45, 4, 5⟩), m') ∧
      .leave ⟨37, 45, 4, 5⟩ ∈ (Stmt.guarded (.leave ⟨37, 45, 4, 5⟩)).loose) ∧
    (∃ m', (Stmt.guarded (.again ⟨37, 47, 4, 5⟩)).run 1 (.start (.ofLines []) .unlimited) =
        some (.ok (.again ⟨37, 47, 4, 5⟩), m') ∧
      .again ⟨37, 47, 4, 5⟩ ∈ (Stmt.guarded (.again ⟨37, 47, 4, 5⟩)).loose) ∧
    ∃ flow m', (Stmt.loop ⟨[(Stmt.leave ⟨37, 45, 4, 5⟩).guarded], .nowhere⟩ (.bool true .nowhere)
        .nowhere).run 1 (.start (.ofLines []) .unlimited) = some (.ok flow, m') ∧
      flow = .completed := by
  obtain ⟨accepted, trees, loops⟩ := control_stays_in_loops
  have sound : Program.Sound ⟨[.loop ⟨[(Stmt.leave .nowhere).guarded], .nowhere⟩
      (.bool true .nowhere) .nowhere], .nowhere⟩ := by
    refine ⟨?_, rfl⟩
    simp [Stmt.guarded, Program.tokens, allTokens, Stmt.tokens, Block.tokens, Expr.tokens,
      Token.Proper]
  obtain ⟨p, read, -⟩ := (ofSource_layout sound).1 (by decide)
  refine ⟨⟨p, read, accepted _ p read 1 _ _ _ _⟩, ⟨_, rfl, ?_⟩, ⟨_, rfl, ?_⟩, ?_⟩
  · exact (trees _ 1 (.start (.ofLines []) .unlimited) _ _).1 rfl
  · exact (trees _ 1 (.start (.ofLines []) .unlimited) _ _).2 rfl
  · obtain ⟨flow, m', ends⟩ : ∃ flow m', (Stmt.loop ⟨[(Stmt.leave ⟨37, 45, 4, 5⟩).guarded],
        .nowhere⟩ (.bool true .nowhere) .nowhere).run 1 (.start (.ofLines []) .unlimited) =
        some (.ok flow, m') := ⟨_, _, rfl⟩
    exact ⟨flow, m', ends, loops _ _ _ 1 _ _ _ ends⟩

end GujaratiScript
