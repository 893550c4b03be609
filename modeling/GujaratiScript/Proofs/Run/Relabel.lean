import GujaratiScript.Proofs.Run.Coupling
import GujaratiScript.Proofs.Run.Operation
import GujaratiScript.Proofs.Run.Scopes

/-!
# Runs of trees with other names and places

A tree is relabelled by giving each of its names and each of its places another one. Nothing but the
scopes looks at a name, and nothing at all looks at a place, so a relabelled tree does what the tree
does, from scopes that hold the same under the other names.

* `Expr.relabel`, `Stmt.relabel`, `Block.relabel` : trees with other names and places;
* `Expr.names`, `Stmt.names`, `Block.names` : the names that matter then;
* `ScopeChain.Simulation` : a relation between scopes that every operation on names keeps to;
* `Stmt.mirrors`, `Block.mirrors`, `mirrors_all` : runs of relabelled trees;
* `executeAll_relabel` : a run looks at no place.
-/

namespace GujaratiScript

open Exec

/-! ## Trees with other labels -/

/-- An expression with the names and places that `ρ` and `g` give. -/
def Expr.relabel (ρ : String → String) (g : Span → Span) : Expr → Expr
  | int n span => .int n (g span)
  | str s span => .str s (g span)
  | bool b span => .bool b (g span)
  | var ident => .var ⟨ρ ident.name, g ident.span⟩
  | input span => .input (g span)
  | negate e span => .negate (e.relabel ρ g) (g span)
  | binary o l r operatorSpan span =>
    .binary o (l.relabel ρ g) (r.relabel ρ g) (g operatorSpan) (g span)

mutual

/-- A statement with the names and places that `ρ` and `g` give. -/
def Stmt.relabel (ρ : String → String) (g : Span → Span) : Stmt → Stmt
  | .print e span => .print (e.relabel ρ g) (g span)
  | .declare ident e span => .declare ⟨ρ ident.name, g ident.span⟩ (e.relabel ρ g) (g span)
  | .assign ident e span => .assign ⟨ρ ident.name, g ident.span⟩ (e.relabel ρ g) (g span)
  | .branch c yes none span => .branch (c.relabel ρ g) (yes.relabel ρ g) none (g span)
  | .branch c yes (some no) span =>
    .branch (c.relabel ρ g) (yes.relabel ρ g) (some (no.relabel ρ g)) (g span)
  | .loop body c span => .loop (body.relabel ρ g) (c.relabel ρ g) (g span)
  | .leave span => .leave (g span)
  | .again span => .again (g span)
  | .block b => .block (b.relabel ρ g)
termination_by structural s => s

/-- A block with the names and places that `ρ` and `g` give. -/
def Block.relabel (ρ : String → String) (g : Span → Span) : Block → Block
  | ⟨body, span⟩ => ⟨relabelAll ρ g body, g span⟩
termination_by structural b => b

/-- Statements with the names and places that `ρ` and `g` give. -/
def relabelAll (ρ : String → String) (g : Span → Span) : List Stmt → List Stmt
  | [] => []
  | s :: rest => s.relabel ρ g :: relabelAll ρ g rest
termination_by structural l => l

end

/-- The names that an expression reads. -/
def Expr.names : Expr → List String
  | int _ _ | str _ _ | bool _ _ | input _ => []
  | var ident => [ident.name]
  | negate e _ => e.names
  | binary _ l r _ _ => l.names ++ r.names

mutual

/-- The names that a statement declares, assigns or reads. -/
def Stmt.names : Stmt → List String
  | .print e _ => e.names
  | .declare ident e _ | .assign ident e _ => ident.name :: e.names
  | .branch c yes none _ => c.names ++ yes.names
  | .branch c yes (some no) _ => c.names ++ (yes.names ++ no.names)
  | .loop body c _ => body.names ++ c.names
  | .leave _ | .again _ => []
  | .block b => b.names
termination_by structural s => s

/-- The names that a block declares, assigns or reads. -/
def Block.names : Block → List String
  | ⟨body, _⟩ => allNames body
termination_by structural b => b

/-- The names that statements in sequence declare, assign or read. -/
def allNames : List Stmt → List String
  | [] => []
  | s :: rest => s.names ++ allNames rest
termination_by structural l => l

end

/-! ## Outcomes with other labels -/

/-- A cause that is about another name. -/
def RunCause.relabel (ρ : String → String) : RunCause → RunCause
  | undefinedVariable name => .undefinedVariable (ρ name)
  | alreadyDeclared name => .alreadyDeclared (ρ name)
  | cause => cause

/-- A fault with another name and place. -/
def RunFault.relabel (ρ : String → String) (g : Span → Span) (fault : RunFault) : RunFault :=
  ⟨fault.cause.relabel ρ, g fault.span⟩

/-- A flow with another place. -/
def Flow.relabel (g : Span → Span) : Flow → Flow
  | completed => .completed
  | leave span => .leave (g span)
  | again span => .again (g span)

/-- Operations fail for reasons that have no name in them. -/
theorem RunCause.IsOperational.relabel_eq {cause : RunCause} (h : cause.IsOperational)
    (ρ : String → String) : cause.relabel ρ = cause := by
  cases cause <;> first
    | rfl
    | cases h

/-! ## Expressions -/

namespace Eval

variable {α β : Type} {φ : RunFault → RunFault}

/-- An evaluation whose fault is changed by `φ`. -/
def mapFault (φ : RunFault → RunFault) (x : Eval α) : Eval α := fun f =>
  ((x f).1.mapError φ, (x f).2)

/-- Faults of evaluations in sequence are changed one by one. -/
theorem mapFault_bind (x : Eval α) (k : α → Eval β) :
    mapFault φ (x >>= k) = mapFault φ x >>= fun a => mapFault φ (k a) := by
  funext f
  unfold mapFault
  rw [bind_apply, bind_apply]
  rcases x f with ⟨e | a, f'⟩ <;> rfl

/-- A fault that is placed elsewhere is the same but for its place. -/
theorem mapFault_place {span span' : Span} {result : Except RunCause α}
    (h : ∀ cause, result = .error cause → φ ⟨cause, span⟩ = ⟨cause, span'⟩) :
    mapFault φ (place span result) = place span' result := by
  funext f
  rcases result with cause | a
  · show (Except.error (φ ⟨cause, span⟩), f) = _
    rw [h cause rfl]
    rfl
  · rfl

theorem mapFault_readLine {span span' : Span}
    (h : φ ⟨.inputExhausted, span⟩ = ⟨.inputExhausted, span'⟩) :
    mapFault φ (readLine span) = readLine span' := by
  funext f
  unfold mapFault readLine
  rcases f.read with ⟨_ | line, f'⟩
  · show (Except.error (φ ⟨.inputExhausted, span⟩), f') = _
    rw [h]
  · rfl

end Eval

variable {ρ : String → String} {g : Span → Span}

/-- A relabelled expression has the same value if its names have. -/
theorem Expr.eval_relabel {s t : ScopeChain} (e : Expr)
    (same : ∀ name ∈ e.names, t.get? (ρ name) = s.get? name) :
    (e.relabel ρ g).eval t = Eval.mapFault (RunFault.relabel ρ g) (e.eval s) := by
  induction e with
  | int | str | bool => rfl
  | var ident =>
    rw [relabel, eval, eval, same ident.name List.mem_cons_self]
    rcases s.get? ident.name with _ | v <;> rfl
  | input span =>
    show (Eval.readLine (g span) >>= fun line => pure (Value.str line)) = _
    rw [Expr.eval, Eval.mapFault_bind, Eval.mapFault_readLine rfl]
    rfl
  | negate e span ih =>
    have placed : ∀ v : Value, Eval.mapFault (RunFault.relabel ρ g) (Eval.place span v.negate) =
        Eval.place (g span) v.negate := fun v => Eval.mapFault_place fun cause failed =>
      congrArg (RunFault.mk · _) ((Value.isOperational_of_negate failed).relabel_eq ρ)
    show ((e.relabel ρ g).eval t >>= fun v => Eval.place (g span) v.negate) = _
    rw [Expr.eval, Eval.mapFault_bind, ih same]
    simp only [placed]
  | binary o l r operatorSpan span ihl ihr =>
    have placed : ∀ v w : Value, Eval.mapFault (RunFault.relabel ρ g)
        (Eval.place operatorSpan (Value.operate o v w)) =
        Eval.place (g operatorSpan) (Value.operate o v w) := fun v w =>
      Eval.mapFault_place fun cause failed =>
        congrArg (RunFault.mk · _) ((Value.isOperational_of_operate failed).relabel_eq ρ)
    show ((l.relabel ρ g).eval t >>= fun v => (r.relabel ρ g).eval t >>= fun w =>
      Eval.place (g operatorSpan) (Value.operate o v w)) = _
    rw [Expr.eval, Eval.mapFault_bind, ihl fun name mem => same name (List.mem_append_left _ mem),
      ihr fun name mem => same name (List.mem_append_right _ mem)]
    simp only [Eval.mapFault_bind, placed]

/-! ## Scopes with other names -/

/-- The operations on the name `ρ n` in the second scopes do what those on `n` do in the first, for
all names `n` with `Q n`, and keep the relation. -/
structure ScopeChain.Simulation (ρ : String → String) (Q : String → Prop)
    (S : ScopeChain → ScopeChain → Prop) : Prop where
  get? : ∀ {s t name}, S s t → Q name → t.get? (ρ name) = s.get? name
  declare : ∀ {s t name}, S s t → Q name → ∀ v, Agree S (s.declare name v) (t.declare (ρ name) v)
  assign : ∀ {s t name}, S s t → Q name → ∀ v, Agree S (s.assign name v) (t.assign (ρ name) v)
  push : ∀ {s t}, S s t → S s.push t.push
  /-- Closing a frame that was opened in related scopes. -/
  pop : ∀ {s t s' t'}, S s t → S s' t' → s'.links = s.push.links → s'.current = s.push.current →
    S s'.pop t'.pop

variable {Q : String → Prop} {S : ScopeChain → ScopeChain → Prop}

/-- An expression whose names are kept apart has the same value, or the relabelled fault. -/
theorem mirrors_eval (sim : ScopeChain.Simulation ρ Q S) (g : Span → Span) {e : Expr}
    (h : ∀ name ∈ e.names, Q name) :
    Mirrors S (RunFault.relabel ρ g) id (Exec.eval e) (Exec.eval (e.relabel ρ g)) := by
  rintro m m' ⟨scopes, feed, log⟩
  unfold Couples Exec.eval
  rw [e.eval_relabel fun name mem => sim.get? scopes (h name mem), feed]
  unfold Eval.mapFault
  rcases e.eval m.scopes m.feed with ⟨fault | v, f⟩
  · exact .fault ⟨rfl, scopes, rfl, log⟩
  · exact .ok ⟨rfl, scopes, rfl, log⟩

/-- In a fresh frame, if the runs leave the frames linked as they were. -/
theorem mirrors_inFrame (sim : ScopeChain.Simulation ρ Q S) {ψ : Flow → Flow}
    {φ : RunFault → RunFault} {x y : Exec Flow} (h : Mirrors S φ ψ x y)
    (kept : ∀ m, Ensures m x fun _ m' =>
      m'.scopes.links = m.scopes.links ∧ m'.scopes.current = m.scopes.current) :
    Mirrors S φ ψ (inFrame x) (inFrame y) := by
  rintro m m' ⟨scopes, feed, log⟩
  have inside := (h m.opened m'.opened ⟨sim.push scopes, feed, log⟩).ensures (kept _)
  refine Couples.inFrame (inside.weaken ?_ ?_)
  · rintro e n e' n' ⟨⟨links, current⟩, rfl, scopes', feed', log'⟩
    exact ⟨rfl, sim.pop scopes scopes' links current, feed', log'⟩
  · rintro a n b n' ⟨⟨links, current⟩, rfl, scopes', feed', log'⟩
    exact ⟨rfl, sim.pop scopes scopes' links current, feed', log'⟩

/-! ## Statements -/

/-- A value is computed, and the same change is made to related scopes. -/
theorem mirrors_binding (sim : ScopeChain.Simulation ρ Q S) (g : Span → Span) {ident : Ident}
    {e : Expr} (h : ∀ name ∈ e.names, Q name)
    {change : Value → ScopeChain → Except ScopeFault ScopeChain}
    {change' : Value → ScopeChain → Except ScopeFault ScopeChain}
    (hc : ∀ v s t, S s t → Agree S (change v s) (change' v t)) :
    Mirrors S (RunFault.relabel ρ g) (Flow.relabel g)
      (do
        let v ← Exec.eval e
        Exec.update ident (change v)
        pure Flow.completed)
      (do
        let v ← Exec.eval (e.relabel ρ g)
        Exec.update ⟨ρ ident.name, g ident.span⟩ (change' v)
        pure Flow.completed) := by
  refine (mirrors_eval sim g h).bind fun v => Mirrors.bind (mirrors_update ?_ (hc v)) fun _ => ?_
  · intro fault
    cases fault <;> rfl
  · exact mirrors_pure (Flow.relabel g) .completed

mutual

/-- A relabelled statement does what the statement does. -/
theorem Stmt.mirrors (sim : ScopeChain.Simulation ρ Q S) (g : Span → Span) (rounds : Nat) (s : Stmt)
    (h : ∀ name ∈ s.names, Q name) :
    Mirrors S (RunFault.relabel ρ g) (Flow.relabel g) (s.run rounds)
      ((s.relabel ρ g).run rounds) := by
  match s with
  | .print e span =>
    refine (mirrors_eval sim g h).bind fun v => ?_
    exact (mirrors_print (fun _ => rfl) v.text).bind fun _ =>
      mirrors_pure (Flow.relabel g) .completed
  | .declare ident e _ =>
    obtain ⟨hi, he⟩ := List.forall_mem_cons.1 h
    exact mirrors_binding sim g he fun v s t related => sim.declare related hi v
  | .assign ident e _ =>
    obtain ⟨hi, he⟩ := List.forall_mem_cons.1 h
    exact mirrors_binding sim g he fun v s t related => sim.assign related hi v
  | .branch c yes none _ =>
    obtain ⟨hc, hy⟩ := List.forall_mem_append.1 h
    refine (mirrors_eval sim g hc).bind fun v => ?_
    dsimp only [id]
    split
    · exact yes.mirrors sim g rounds hy
    · exact mirrors_pure (Flow.relabel g) .completed
  | .branch c yes (some no) _ =>
    obtain ⟨hc, hb⟩ := List.forall_mem_append.1 h
    obtain ⟨hy, hn⟩ := List.forall_mem_append.1 hb
    refine (mirrors_eval sim g hc).bind fun v => ?_
    dsimp only [id]
    split
    · exact yes.mirrors sim g rounds hy
    · exact no.mirrors sim g rounds hn
  | .loop body c _ =>
    obtain ⟨hb, hc⟩ := List.forall_mem_append.1 h
    exact Mirrors.iterate rfl (fun _ => ⟨_, rfl⟩) (fun _ => ⟨_, rfl⟩) (body.mirrors sim g rounds hb)
      (mirrors_eval sim g hc) rounds
  | .leave span => exact mirrors_pure (Flow.relabel g) (.leave span)
  | .again span => exact mirrors_pure (Flow.relabel g) (.again span)
  | .block b => exact b.mirrors sim g rounds h

/-- A relabelled block mirrors the block. -/
theorem Block.mirrors (sim : ScopeChain.Simulation ρ Q S) (g : Span → Span) (rounds : Nat)
    (b : Block) (h : ∀ name ∈ b.names, Q name) :
    Mirrors S (RunFault.relabel ρ g) (Flow.relabel g) (b.run rounds)
      ((b.relabel ρ g).run rounds) := by
  match b with
  | ⟨body, _⟩ =>
    refine mirrors_inFrame sim (mirrors_all sim g rounds body h) fun m => ?_
    refine (evolves_all body rounds m).weaken ?_
    rintro r m' ⟨added, kept⟩
    exact ⟨kept.links, kept.current⟩

/-- Relabelled statements mirror the statements, one by one. -/
theorem mirrors_all (sim : ScopeChain.Simulation ρ Q S) (g : Span → Span) (rounds : Nat)
    (body : List Stmt) (h : ∀ name ∈ allNames body, Q name) :
    Mirrors S (RunFault.relabel ρ g) (Flow.relabel g) (runAll rounds body)
      (runAll rounds (relabelAll ρ g body)) := by
  match body with
  | [] => exact mirrors_pure (Flow.relabel g) .completed
  | s :: rest =>
    obtain ⟨hs, hrest⟩ := List.forall_mem_append.1 h
    refine (s.mirrors sim g rounds hs).bind fun flow => ?_
    cases flow with
    | completed => exact mirrors_all sim g rounds rest hrest
    | leave span => exact mirrors_pure (Flow.relabel g) (.leave span)
    | again span => exact mirrors_pure (Flow.relabel g) (.again span)

end

/-! ## Trees with other places -/

/-- Machines that are alike with equal scopes are equal. -/
theorem Machine.Alike.eq {m m' : Machine} (h : m.Alike Eq m') : m' = m := by
  obtain ⟨scopes, feed, log⟩ := h
  cases m
  cases m'
  cases scopes
  cases feed
  cases log
  rfl

theorem Exec.agree_self (r : Except ScopeFault ScopeChain) : Agree Eq r r := by
  cases r with
  | error e => exact .fault e
  | ok s => exact .ok rfl

/-- With the same names in the same scopes everything is the same. -/
theorem ScopeChain.simulation_eq : Simulation id (fun _ => True) Eq where
  get? := by
    rintro s _ name rfl -
    rfl
  declare := by
    rintro s _ name rfl - v
    exact agree_self _
  assign := by
    rintro s _ name rfl - v
    exact agree_self _
  push := congrArg _
  pop := fun _ same _ _ => congrArg _ same

/-- Statements with other places end as these statements do, by a fault with another place. -/
theorem executeAll_relabel (g : Span → Span) (rounds : Nat) (body : List Stmt) (m : Machine) :
    executeAll rounds (relabelAll id g body) m =
      (executeAll rounds body m).map fun o => (o.1.mapError (RunFault.relabel id g), o.2) := by
  have finish : ∀ flow : Flow,
      Mirrors Eq (RunFault.relabel id g) id flow.finish (flow.relabel g).finish := by
    intro flow
    cases flow with
    | completed => exact mirrors_pure id ()
    | leave span | again span => exact mirrors_fail rfl id
  have mirrors : Mirrors Eq (RunFault.relabel id g) id (executeAll rounds body)
      (executeAll rounds (relabelAll id g body)) := by
    rw [executeAll_eq, executeAll_eq]
    have all := mirrors_all ScopeChain.simulation_eq g rounds body fun _ _ => trivial
    exact all.bind finish
  have coupled := mirrors m m ⟨rfl, rfl, rfl⟩
  unfold Couples at coupled
  generalize executeAll rounds body m = o,
    executeAll rounds (relabelAll id g body) m = o' at coupled ⊢
  cases coupled with
  | endless => rfl
  | fault h =>
    rw [h.1, h.2.eq]
    rfl
  | ok h =>
    rw [h.1, h.2.eq]
    rfl

end GujaratiScript
