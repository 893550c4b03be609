import GujaratiScript.Proofs.Reading.Places
import GujaratiScript.Proofs.Run.Control

/-!
# Where the faults of a run lie

A run makes no span of its own either: each fault is placed at a node of the tree that was run, or at
a name or an operator in it.

* `Expr.faults_eval`, `Stmt.faults_run`, `Block.faults_run` : for expressions, statements, blocks;
* `Program.faults_execute` : for programs, whose loop control may be a fault, too.
-/

namespace GujaratiScript

open Exec

/-- Evaluating an expression fails at one of its nodes, or at an operator or a name in it. -/
theorem Expr.faults_eval (s : ScopeChain) (e : Expr) :
    (e.eval s).Faults fun fault => fault.span ∈ e.spans := by
  induction e with
  | int | str | bool => exact Eval.faults_pure _
  | var ident =>
    unfold Expr.eval
    split
    · exact Eval.faults_pure _
    · exact Eval.faults_fail List.mem_cons_self
  | input span =>
    refine Eval.Faults.bind (Eval.faults_readLine ?_) fun _ => Eval.faults_pure _
    exact List.mem_cons_self
  | negate e span ih =>
    refine (ih.mono fun _ => List.mem_cons_of_mem _).bind fun v => ?_
    exact Eval.faults_place fun _ _ => List.mem_cons_self
  | binary o l r operatorSpan span ihl ihr =>
    have deep : ∀ t ∈ l.spans ++ r.spans, t ∈ (Expr.binary o l r operatorSpan span).spans :=
      fun t mem => List.mem_cons_of_mem _ (List.mem_cons_of_mem _ mem)
    refine (ihl.mono fun _ mem => deep _ (List.mem_append_left _ mem)).bind fun v => ?_
    refine (ihr.mono fun _ mem => deep _ (List.mem_append_right _ mem)).bind fun w => ?_
    exact Eval.faults_place fun _ _ => List.mem_cons_of_mem _ List.mem_cons_self

theorem Expr.faults_exec (e : Expr) : (Exec.eval e).Faults fun fault => fault.span ∈ e.spans :=
  Exec.faults_eval fun s => e.faults_eval s

/-- A value is computed, and a name is declared or assigned. -/
theorem faults_binding (ident : Ident) (e : Expr) (span : Span)
    (change : Value → ScopeChain → Except ScopeFault ScopeChain) :
    Faults (fun fault => fault.span ∈ span :: ident.span :: e.spans)
      (do
        let v ← Exec.eval e
        Exec.update ident (change v)
        pure Flow.completed) := by
  refine Faults.bind (e.faults_exec.mono ?_) fun v => ?_
  · exact fun _ mem => List.mem_cons_of_mem _ (List.mem_cons_of_mem _ mem)
  · refine Faults.bind (faults_update _ ?_) fun _ => faults_pure _
    exact fun _ => List.mem_cons_of_mem _ List.mem_cons_self

mutual

/-- Running a statement fails at one of its nodes, or at an operator or a name in it. -/
theorem Stmt.faults_run (s : Stmt) (rounds : Nat) :
    (s.run rounds).Faults fun fault => fault.span ∈ s.spans := by
  match s with
  | .print e span =>
    refine (e.faults_exec.mono fun _ => List.mem_cons_of_mem _).bind fun v => ?_
    exact (faults_print v.text fun _ => List.mem_cons_self).bind fun _ => faults_pure _
  | .declare ident e span => exact faults_binding ident e span fun v s => s.declare ident.name v
  | .assign ident e span => exact faults_binding ident e span fun v s => s.assign ident.name v
  | .branch c yes none span =>
    have left : ∀ t ∈ c.spans, t ∈ (Stmt.branch c yes none span).spans :=
      fun t mem => List.mem_cons_of_mem _ (List.mem_append_left _ mem)
    have right : ∀ t ∈ yes.spans, t ∈ (Stmt.branch c yes none span).spans :=
      fun t mem => List.mem_cons_of_mem _ (List.mem_append_right _ mem)
    refine (c.faults_exec.mono fun _ => left _).bind fun v => ?_
    split
    · exact (yes.faults_run rounds).mono fun _ => right _
    · exact faults_pure _
  | .branch c yes (some no) span =>
    have left : ∀ t ∈ c.spans, t ∈ (Stmt.branch c yes (some no) span).spans :=
      fun t mem => List.mem_cons_of_mem _ (List.mem_append_left _ mem)
    have right : ∀ t ∈ yes.spans ++ no.spans, t ∈ (Stmt.branch c yes (some no) span).spans :=
      fun t mem => List.mem_cons_of_mem _ (List.mem_append_right _ mem)
    refine (c.faults_exec.mono fun _ => left _).bind fun v => ?_
    split
    · exact (yes.faults_run rounds).mono fun _ mem => right _ (List.mem_append_left _ mem)
    · exact (no.faults_run rounds).mono fun _ mem => right _ (List.mem_append_right _ mem)
  | .loop body c span =>
    refine Faults.iterate ((body.faults_run rounds).mono fun _ mem => ?_)
      (c.faults_exec.mono fun _ mem => ?_) rounds
    · exact List.mem_cons_of_mem _ (List.mem_append_left _ mem)
    · exact List.mem_cons_of_mem _ (List.mem_append_right _ mem)
  | .leave _ | .again _ => exact faults_pure _
  | .block b => exact b.faults_run rounds

theorem Block.faults_run (b : Block) (rounds : Nat) :
    (b.run rounds).Faults fun fault => fault.span ∈ b.spans := by
  match b with
  | ⟨body, span⟩ => exact ((faults_all body rounds).mono fun _ => List.mem_cons_of_mem _).inFrame

theorem faults_all (body : List Stmt) (rounds : Nat) :
    (runAll rounds body).Faults fun fault => fault.span ∈ allSpans body := by
  match body with
  | [] => exact faults_pure _
  | s :: rest =>
    refine ((s.faults_run rounds).mono fun _ => List.mem_append_left _).bind fun flow => ?_
    cases flow with
    | completed => exact (faults_all rest rounds).mono fun _ => List.mem_append_right _
    | leave span | again span => exact faults_pure _

end

/-! ## Programs -/

mutual

/-- The loop control of a statement lies in it. -/
theorem Stmt.span_mem_of_loose (s : Stmt) : ∀ t ∈ s.loose, t.span ∈ s.spans := by
  match s with
  | .print _ _ | .declare _ _ _ | .assign _ _ _ | .loop _ _ _ => exact List.forall_mem_nil _
  | .branch _ yes none _ =>
    intro t mem
    exact List.mem_cons_of_mem _ (List.mem_append_right _ (yes.span_mem_of_loose t mem))
  | .branch _ yes (some no) _ =>
    intro t mem
    refine List.mem_cons_of_mem _ (List.mem_append_right _ ?_)
    rcases List.mem_append.1 mem with mem | mem
    · exact List.mem_append_left _ (yes.span_mem_of_loose t mem)
    · exact List.mem_append_right _ (no.span_mem_of_loose t mem)
  | .leave span | .again span => exact List.forall_mem_singleton.2 List.mem_cons_self
  | .block b => exact b.span_mem_of_loose

theorem Block.span_mem_of_loose (b : Block) : ∀ t ∈ b.loose, t.span ∈ b.spans := by
  match b with
  | ⟨body, _⟩ => exact fun t mem => List.mem_cons_of_mem _ (span_mem_of_allLoose body t mem)

theorem span_mem_of_allLoose (body : List Stmt) : ∀ t ∈ allLoose body, t.span ∈ allSpans body := by
  match body with
  | [] => exact List.forall_mem_nil _
  | s :: rest =>
    intro t mem
    rcases List.mem_append.1 mem with mem | mem
    · exact List.mem_append_left _ (s.span_mem_of_loose t mem)
    · exact List.mem_append_right _ (span_mem_of_allLoose rest t mem)

end

/-- Executing a program fails at one of its nodes, or at an operator or a name in it. -/
theorem Program.faults_execute (p : Program) (rounds : Nat) :
    (p.execute rounds).Faults fun fault => fault.span ∈ p.spans := by
  have deep : ∀ t ∈ allSpans p.body, t ∈ p.spans := fun t => List.mem_cons_of_mem _
  intro m
  unfold Program.execute
  rw [executeAll_eq]
  have ends : Ensures m (runAll rounds p.body) fun r _ =>
      (∀ e, r = .error e → e.span ∈ allSpans p.body) ∧ EndsBy (allLoose p.body) r :=
    fun r m' eq => ⟨faults_all p.body rounds m r m' eq, endsBy_all p.body rounds m r m' eq⟩
  refine ends.bind ?_ fun flow m' h => ?_
  · rintro e m' ⟨mem, -⟩ _ ⟨⟩
    exact deep _ (mem e rfl)
  · -- the statements have ended by loop control that is a node of theirs
    have loose : ∀ t ∈ flow.node?, t.span ∈ p.spans :=
      fun t mem => deep _ (span_mem_of_allLoose p.body t (h.2 t mem))
    cases flow with
    | completed => exact faults_pure _ m'
    | leave span | again span => exact faults_fail (loose _ rfl) m'

end GujaratiScript
