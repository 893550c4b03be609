import GujaratiScript.Proofs.Run.Ensures

/-!
# Properties that are kept in putting runs together

* `Exec.Composes` : a property that every basic run has and that is kept when runs are put in
  sequence or into a frame;
* `Composes.iterate` : loops have it;
* `Composes.stmt`, `Composes.block`, `Composes.all`, `Composes.execute` : the runs of all statements
  and of all programs have it.
-/

namespace GujaratiScript.Exec

/-- Every basic run has the property `P`, and so has what is put together from runs that have it. -/
structure Composes (P : (α : Type) → Exec α → Prop) : Prop where
  pure : ∀ {α : Type} (a : α), P α (pure a)
  fail : ∀ {α : Type} (cause : RunCause) (span : Span), P α (fail cause span)
  eval : ∀ e : Expr, P Value (Exec.eval e)
  print : ∀ (line : String) (span : Span), P Unit (Exec.print line span)
  update : ∀ (ident : Ident) (change : ScopeChain → Except ScopeFault ScopeChain),
    P Unit (Exec.update ident change)
  endless : P Flow fun _ => none
  bind : ∀ {α β : Type} {x : Exec α} {f : α → Exec β}, P α x → (∀ a, P β (f a)) → P β (x >>= f)
  inFrame : ∀ {α : Type} {x : Exec α}, P α x → P α (Exec.inFrame x)

namespace Composes

variable {P : (α : Type) → Exec α → Prop}

/-- A loop has the property if its body and its condition do. -/
theorem iterate (h : Composes P) {body : Exec Flow} {condition : Exec Value} (hb : P Flow body)
    (hc : P Value condition) (rounds : Nat) : P Flow (Exec.iterate body condition rounds) := by
  induction rounds with
  | zero => exact h.endless
  | succ rounds ih =>
    have again : P Flow (recheck condition (Exec.iterate body condition rounds)) := by
      refine h.bind hc fun v => ?_
      split
      · exact ih
      · exact h.pure _
    rw [iterate_succ]
    refine h.bind hb fun flow => ?_
    cases flow with
    | completed | again span => exact again
    | leave span => exact h.pure _

mutual

/-- What composes holds of the run of every statement. -/
theorem stmt (h : Composes P) (rounds : Nat) (s : Stmt) : P Flow (s.run rounds) := by
  match s with
  | .print e span =>
    exact h.bind (h.eval e) fun v => h.bind (h.print v.text span) fun _ => h.pure _
  | .declare ident e _ | .assign ident e _ =>
    exact h.bind (h.eval e) fun v => h.bind (h.update ident _) fun _ => h.pure _
  | .branch c yes none _ =>
    refine h.bind (h.eval c) fun v => ?_
    split
    · exact h.block rounds yes
    · exact h.pure _
  | .branch c yes (some no) _ =>
    refine h.bind (h.eval c) fun v => ?_
    split
    · exact h.block rounds yes
    · exact h.block rounds no
  | .loop body c _ => exact h.iterate (h.block rounds body) (h.eval c) rounds
  | .leave _ | .again _ => exact h.pure _
  | .block b => exact h.block rounds b

theorem block (h : Composes P) (rounds : Nat) (b : Block) : P Flow (b.run rounds) := by
  match b with
  | ⟨body, _⟩ => exact h.inFrame (h.all rounds body)

theorem all (h : Composes P) (rounds : Nat) (body : List Stmt) : P Flow (runAll rounds body) := by
  match body with
  | [] => exact h.pure _
  | s :: rest =>
    refine h.bind (h.stmt rounds s) fun flow => ?_
    cases flow with
    | completed => exact h.all rounds rest
    | leave span | again span => exact h.pure _

end

/-- It holds of the run of every program. -/
theorem execute (h : Composes P) (rounds : Nat) (p : Program) : P Unit (p.execute rounds) := by
  unfold Program.execute
  rw [executeAll_eq]
  refine h.bind (h.all rounds p.body) fun flow => ?_
  cases flow with
  | completed => exact h.pure _
  | leave span | again span => exact h.fail _ _

end Composes

end GujaratiScript.Exec
