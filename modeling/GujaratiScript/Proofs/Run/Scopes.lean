import Mathlib.Logic.Relation
import GujaratiScript.Proofs.Run.Ensures
import GujaratiScript.Proofs.Scope.Bindings

/-!
# What a run leaves of the scopes

However a run ends, all frames that it has opened are closed again. The frames that were there before
bind the same names, but for those declared in the innermost one, and only names that are assigned
somewhere in what was run may have another value.

* `ScopeChain.Evolves` : this relation between the scopes before a run and those after it;
* `Stmt.evolves`, `Block.evolves` : runs of statements and blocks keep to it;
* `Executes` : one execution of a program after another, on the same scopes;
* `runs_keep_scopes` : the main statement.
-/

namespace GujaratiScript

open Exec

/-! ## Names that are assigned -/

mutual

/-- The names of all assignments inside a statement. -/
def Stmt.assigned : Stmt → List String
  | .print _ _ => []
  | .declare _ _ _ => []
  | .assign ident _ _ => [ident.name]
  | .branch _ yes none _ => yes.assigned
  | .branch _ yes (some no) _ => yes.assigned ++ no.assigned
  | .loop body _ _ => body.assigned
  | .leave _ => []
  | .again _ => []
  | .block b => b.assigned
termination_by structural s => s

/-- The names of all assignments inside a block. -/
def Block.assigned : Block → List String
  | ⟨body, _⟩ => allAssigned body
termination_by structural b => b

/-- The names of all assignments inside statements in sequence. -/
def allAssigned : List Stmt → List String
  | [] => []
  | s :: rest => s.assigned ++ allAssigned rest
termination_by structural l => l

end

/-- The names that a statement that has ended by `r` has declared in the frame it was run in. -/
def Stmt.declared : Stmt → Except RunFault Flow → List String
  | .declare ident _ _, .ok _ => [ident.name]
  | _, _ => []

/-- Printing, declaring or assigning. -/
def Stmt.IsBasic : Stmt → Prop
  | .print _ _ | .declare _ _ _ | .assign _ _ _ => True
  | _ => False

/-! ## Scopes before and after -/

/-- The frames of `t` are those of `s`, linked in the same way and with the same one innermost. They
bind the same names, but for the names `added` to the innermost one, and only the names `assigned`
may have another value. -/
structure ScopeChain.Evolves (s t : ScopeChain) (added assigned : List String) : Prop where
  links : t.links = s.links
  current : t.current = s.current
  bound : ∀ i x, (t.binding? i x).isSome = true ↔
    (s.binding? i x).isSome = true ∨ i = s.current ∧ x ∈ added
  kept : ∀ i x v, s.binding? i x = some v → x ∉ assigned → t.binding? i x = some v

namespace ScopeChain

variable {s t u : ScopeChain} {added more assigned : List String}

theorem Evolves.refl (s : ScopeChain) (assigned : List String) : s.Evolves s [] assigned where
  links := rfl
  current := rfl
  bound i x := by simp
  kept i x v eq _ := eq

theorem Evolves.of_eq (eq : t = s) : s.Evolves t [] assigned := eq ▸ .refl s assigned

theorem Evolves.trans (h : s.Evolves t added assigned) (h' : t.Evolves u more assigned) :
    s.Evolves u (added ++ more) assigned where
  links := h'.links.trans h.links
  current := h'.current.trans h.current
  bound i x := by
    rw [h'.bound, h.bound, h.current, List.mem_append, or_assoc, and_or_left]
  kept i x v eq free := h'.kept i x v (h.kept i x v eq free) free

theorem Evolves.mono {wider : List String} (h : s.Evolves t added assigned)
    (sub : assigned ⊆ wider) : s.Evolves t added wider where
  links := h.links
  current := h.current
  bound := h.bound
  kept i x v eq free := h.kept i x v eq fun mem => free (sub mem)

theorem evolves_declare {name : String} {v : Value} (h : s.declare name v = .ok t) :
    s.Evolves t [name] assigned := by
  obtain ⟨links, current⟩ := links_declare h
  obtain ⟨new, eq⟩ := binding?_declare h
  refine ⟨links, current, fun i x => ?_, fun i x w bound _ => ?_⟩
  · rw [eq, List.mem_singleton]
    split
    · rename_i here
      simp [here]
    · rename_i elsewhere
      simp [elsewhere]
  · rw [eq, if_neg, bound]
    rintro ⟨rfl, rfl⟩
    rw [new] at bound
    cases bound

theorem evolves_assign {name : String} {v : Value} (h : s.assign name v = .ok t)
    (mem : name ∈ assigned) : s.Evolves t [] assigned := by
  obtain ⟨links, current⟩ := links_assign h
  obtain ⟨j, -, found, eq⟩ := binding?_assign h
  refine ⟨links, current, fun i x => ?_, fun i x w bound free => ?_⟩
  · rw [eq]
    split
    · rename_i here
      obtain ⟨rfl, rfl⟩ := here
      simp [found]
    · simp
  · rw [eq, if_neg, bound]
    rintro ⟨rfl, rfl⟩
    exact free mem

/-- Whatever happens inside a frame of its own, only values are different when it is closed. -/
theorem Evolves.pop (h : s.push.Evolves t added assigned) : s.Evolves t.pop [] assigned := by
  obtain ⟨links, current, -⟩ := pop_of_push h.links h.current
  have inner : ∀ i x, i < s.frames.size → t.pop.binding? i x = t.binding? i x := by
    intro i x lt
    rw [binding?_pop_of_push h.links h.current, if_pos lt]
  have outer : ∀ i x, ¬ i < s.frames.size → s.binding? i x = none ∧ t.pop.binding? i x = none := by
    intro i x ge
    refine ⟨binding?_of_size_le (Nat.not_lt.1 ge) x, ?_⟩
    rw [binding?_pop_of_push h.links h.current, if_neg ge]
  refine ⟨links, current, fun i x => ?_, fun i x v bound free => ?_⟩
  · -- the names of the frame that is closed are all that were added
    by_cases lt : i < s.frames.size
    · have ne : i ≠ s.push.current := Nat.ne_of_lt lt
      rw [inner i x lt, h.bound, binding?_push]
      simp [ne]
    · rw [(outer i x lt).1, (outer i x lt).2]
      simp
  · by_cases lt : i < s.frames.size
    · rw [inner i x lt]
      exact h.kept i x v ((binding?_push s i x).trans bound) free
    · rw [(outer i x lt).1] at bound
      cases bound

end ScopeChain

open ScopeChain

/-! ## Runs of statements -/

/-- Neither evaluating nor printing touches the scopes. -/
theorem scopes_eval {m : Machine} (e : Expr) :
    Ensures m (Exec.eval e) fun _ m' => m'.scopes = m.scopes :=
  (ensures_eval e).weaken fun _ _ h => by rw [h.2]

theorem scopes_print {m : Machine} (e : Expr) (span : Span) (rounds : Nat) :
    Ensures m ((Stmt.print e span).run rounds) fun _ m' => m'.scopes = m.scopes := by
  refine (scopes_eval e).bind (fun _ _ h => h) fun v m' kept => ?_
  refine (ensures_print v.text span).bind ?_ ?_
  · rintro fault m'' ⟨rfl, -⟩
    exact kept
  · rintro _ m'' ⟨rfl, -⟩
    exact ensures_pure kept

/-- A name is declared or assigned with some value, or the scopes stay as they are. -/
theorem scopes_update {m : Machine} (ident : Ident) (e : Expr)
    (change : Value → ScopeChain → Except ScopeFault ScopeChain) :
    Ensures m
      (do
        let v ← Exec.eval e
        Exec.update ident (change v)
        pure Flow.completed)
      fun r m' => (r = .ok .completed ∧ ∃ v, change v m.scopes = .ok m'.scopes) ∨
        (∃ fault, r = .error fault) ∧ m'.scopes = m.scopes := by
  refine (scopes_eval e).bind (fun fault _ kept => .inr ⟨⟨fault, rfl⟩, kept⟩) fun v m' kept => ?_
  refine (ensures_update ident (change v)).bind ?_ ?_
  · rintro fault m'' (⟨s, -, eq, -⟩ | ⟨-, -, -, rfl⟩)
    · cases eq
    · exact .inr ⟨⟨fault, rfl⟩, kept⟩
  · rintro _ m'' (⟨s, eq, -, rfl⟩ | ⟨fault, -, eq, -⟩)
    · exact ensures_pure (.inl ⟨rfl, v, kept ▸ eq⟩)
    · cases eq

mutual

/-- A statement adds the name that it declares, and changes the values of names it assigns. -/
theorem Stmt.evolves (s : Stmt) (rounds : Nat) (m : Machine) :
    Ensures m (s.run rounds) fun r m' =>
      m.scopes.Evolves m'.scopes (s.declared r) s.assigned := by
  match s with
  | .print e span => exact (scopes_print e span rounds).weaken fun _ _ => .of_eq
  | .declare ident e _ =>
    refine (scopes_update ident e fun v s => s.declare ident.name v).weaken ?_
    rintro r m' (⟨rfl, v, eq⟩ | ⟨⟨fault, rfl⟩, kept⟩)
    · exact evolves_declare eq
    · exact .of_eq kept
  | .assign ident e _ =>
    refine (scopes_update ident e fun v s => s.assign ident.name v).weaken ?_
    rintro r m' (⟨-, v, eq⟩ | ⟨-, kept⟩)
    · exact evolves_assign eq List.mem_cons_self
    · exact .of_eq kept
  | .branch c yes none _ =>
    refine (scopes_eval c).bind (fun _ _ => .of_eq) fun v m' kept => ?_
    rw [← kept]
    split
    · exact yes.evolves rounds m'
    · exact ensures_pure (.refl _ _)
  | .branch c yes (some no) _ =>
    refine (scopes_eval c).bind (fun _ _ => .of_eq) fun v m' kept => ?_
    rw [← kept]
    split
    · exact (yes.evolves rounds m').weaken fun _ _ h => h.mono (List.subset_append_left _ _)
    · exact (no.evolves rounds m').weaken fun _ _ h => h.mono (List.subset_append_right _ _)
  | .loop body c _ =>
    -- both invariants say that nothing but values has changed since the loop was entered
    refine Ensures.iterate (fun m' => m.scopes.Evolves m'.scopes [] body.assigned)
      (fun m' => m.scopes.Evolves m'.scopes [] body.assigned) ?_ ?_ rounds (.refl _ _)
    · intro m₁ before
      refine (body.evolves rounds m₁).weaken fun r m' h => ?_
      have after := before.trans h
      rcases r with fault | _ | _ | _ <;> exact after
    · intro m₁ before
      refine (scopes_eval c).weaken fun r m' kept => ?_
      have after := before.trans (.of_eq kept)
      rcases r with fault | v
      · exact after
      · dsimp only
        split <;> exact after
  | .leave _ | .again _ => exact ensures_pure (.refl _ _)
  | .block b => exact b.evolves rounds m

/-- A block adds no name. -/
theorem Block.evolves (b : Block) (rounds : Nat) (m : Machine) :
    Ensures m (b.run rounds) fun _ m' => m.scopes.Evolves m'.scopes [] b.assigned := by
  match b with
  | ⟨body, _⟩ =>
    refine Ensures.inFrame ((evolves_all body rounds _).weaken ?_)
    rintro r m' ⟨added, h⟩
    exact h.pop

/-- Statements in sequence add names to the innermost frame only. -/
theorem evolves_all (body : List Stmt) (rounds : Nat) (m : Machine) :
    Ensures m (runAll rounds body) fun _ m' =>
      ∃ added, m.scopes.Evolves m'.scopes added (allAssigned body) := by
  match body with
  | [] => exact ensures_pure ⟨[], .refl _ _⟩
  | s :: rest =>
    have left : s.assigned ⊆ allAssigned (s :: rest) := List.subset_append_left _ _
    refine (s.evolves rounds m).bind (fun _ _ h => ⟨_, h.mono left⟩) fun flow m' h => ?_
    cases flow with
    | completed =>
      refine (evolves_all rest rounds m').weaken ?_
      rintro r m'' ⟨added, later⟩
      exact ⟨_, (h.mono left).trans (later.mono (List.subset_append_right _ _))⟩
    | leave span | again span => exact ensures_pure ⟨_, h.mono left⟩

end

/-- A basic statement that fails has changed no name. -/
theorem Stmt.scopes_of_fault {s : Stmt} (basic : s.IsBasic) (rounds : Nat) (m : Machine) :
    Ensures m (s.run rounds) fun r m' => (∃ fault, r = .error fault) → m'.scopes = m.scopes := by
  match s, basic with
  | .print e span, _ => exact (scopes_print e span rounds).weaken fun _ _ kept _ => kept
  | .declare ident e _, _ =>
    refine (scopes_update ident e fun v s => s.declare ident.name v).weaken ?_
    rintro r m' (⟨rfl, -⟩ | ⟨-, kept⟩) ⟨fault, eq⟩
    · cases eq
    · exact kept
  | .assign ident e _, _ =>
    refine (scopes_update ident e fun v s => s.assign ident.name v).weaken ?_
    rintro r m' (⟨rfl, -⟩ | ⟨-, kept⟩) ⟨fault, eq⟩
    · cases eq
    · exact kept

/-! ## Executions of programs -/

theorem evolves_executeAll (body : List Stmt) (rounds : Nat) (m : Machine) :
    Ensures m (executeAll rounds body) fun _ m' =>
      ∃ added, m.scopes.Evolves m'.scopes added (allAssigned body) := by
  rw [executeAll_eq]
  refine (evolves_all body rounds m).bind (fun _ _ h => h) fun flow m' h => ?_
  cases flow with
  | completed => exact ensures_pure h
  | leave span | again span => exact ensures_fail h

/-- Some program, executed on the scopes `s`, ends with the scopes `t`, by a result or by a
fault. -/
def Executes (s t : ScopeChain) : Prop :=
  ∃ (p : Program) (rounds : Nat) (feed : Feed) (log : Log) (r : Except RunFault Unit) (m : Machine),
    p.execute rounds ⟨s, feed, log⟩ = some (r, m) ∧ m.scopes = t

/-- Executing programs one after another opens no frame for good. -/
theorem links_of_executes {s t : ScopeChain} (h : Relation.ReflTransGen Executes s t) :
    t.links = s.links ∧ t.current = s.current := by
  induction h with
  | refl => exact ⟨rfl, rfl⟩
  | tail _ last ih =>
    obtain ⟨p, rounds, feed, log, r, m, ends, rfl⟩ := last
    obtain ⟨added, h⟩ := evolves_executeAll p.body rounds _ r m ends
    exact ⟨h.links.trans ih.1, h.current.trans ih.2⟩

/-- However a statement or a block ends, the frames are those from before, linked in the same way and
with the same one innermost; a declaration adds its name to the innermost frame if it succeeds, no
other name comes or goes, and only names that are assigned inside may have another value. Printing,
declaring or assigning changes nothing if it fails. Whatever programs are executed in turn, only the
global frame is left. -/
theorem runs_keep_scopes :
    (∀ (s : Stmt) (rounds : Nat) (m : Machine) (r : Except RunFault Flow) (m' : Machine),
      s.run rounds m = some (r, m') →
        m.scopes.Evolves m'.scopes (s.declared r) s.assigned ∧
          (s.IsBasic → (∃ fault, r = .error fault) → m'.scopes = m.scopes)) ∧
    (∀ (b : Block) (rounds : Nat) (m : Machine) (r : Except RunFault Flow) (m' : Machine),
      b.run rounds m = some (r, m') → m.scopes.Evolves m'.scopes [] b.assigned) ∧
    ∀ t : ScopeChain, Relation.ReflTransGen Executes .empty t →
      t.frames.size = 1 ∧ t.current = 0 := by
  refine ⟨fun s rounds m r m' ends => ⟨?_, fun basic => ?_⟩, fun b rounds m => ?_, fun t h => ?_⟩
  · exact s.evolves rounds m r m' ends
  · exact Stmt.scopes_of_fault basic rounds m r m' ends
  · exact b.evolves rounds m
  · obtain ⟨links, current⟩ := links_of_executes h
    rw [← t.size_links, links, size_links]
    exact ⟨rfl, current⟩

/-- A block that declares a name and leaves the loop around it. -/
def Block.shadow : Block :=
  ⟨[.declare ⟨"x", .nowhere⟩ (.int 2 .nowhere) .nowhere, .leave .nowhere], .nowhere⟩

/-- A name is declared; then it is given another value, or declared once more, or the block that
declares it for itself is run; and a program that ends by a fault in that block is executed. -/
theorem runs_keep_scopes_shadow :
    ∃ m, (Stmt.declare ⟨"x", .nowhere⟩ (.int 1 .nowhere) .nowhere).run 1
        (.start (.ofLines []) .unlimited) = some (.ok .completed, m) ∧
      ScopeChain.empty.Evolves m.scopes ["x"] [] ∧
      (∃ m', (Stmt.assign ⟨"x", .nowhere⟩ (.int 3 .nowhere) .nowhere).run 1 m =
        some (.ok .completed, m') ∧ m.scopes.Evolves m'.scopes [] ["x"]) ∧
      (∃ fault m', (Stmt.declare ⟨"x", .nowhere⟩ (.int 3 .nowhere) .nowhere).run 1 m =
        some (.error fault, m') ∧ m'.scopes = m.scopes) ∧
      (∃ m', Block.shadow.run 1 m = some (.ok (.leave .nowhere), m') ∧
        m.scopes.Evolves m'.scopes [] []) ∧
      ∃ fault m', Program.execute 1 ⟨[.block .shadow], .nowhere⟩
          (.start (.ofLines []) .unlimited) = some (.error fault, m') ∧
        m'.scopes.frames.size = 1 ∧ m'.scopes.current = 0 := by
  obtain ⟨stmts, blocks, programs⟩ := runs_keep_scopes
  obtain ⟨m, declares⟩ : ∃ m, (Stmt.declare ⟨"x", .nowhere⟩ (.int 1 .nowhere) .nowhere).run 1
      (.start (.ofLines []) .unlimited) = some (.ok .completed, m) := ⟨_, rfl⟩
  obtain ⟨m₁, assigns⟩ : ∃ m', (Stmt.assign ⟨"x", .nowhere⟩ (.int 3 .nowhere) .nowhere).run 1 m =
      some (.ok .completed, m') := by
    have found : m.scopes.resolve "x" = some ⟨m.scopes.current, m.scopes.current_lt⟩ := by
      cases declares
      exact ScopeChain.resolve_of_declaresHere rfl
    refine ⟨⟨m.scopes.modify m.scopes.current fun b => b.set "x" (.int 3), m.feed, m.log⟩, ?_⟩
    show (Exec.update _ _ >>= fun _ => pure Flow.completed : Exec Flow) m = _
    rw [bind_apply, Exec.update, ScopeChain.assign, found]
    rfl
  obtain ⟨fault, m₂, fails⟩ : ∃ fault m', (Stmt.declare ⟨"x", .nowhere⟩ (.int 3 .nowhere)
      .nowhere).run 1 m = some (.error fault, m') := by
    cases declares
    exact ⟨_, _, rfl⟩
  obtain ⟨m₃, leaves⟩ : ∃ m', Block.shadow.run 1 m = some (.ok (.leave .nowhere), m') := by
    cases declares
    exact ⟨_, rfl⟩
  obtain ⟨fault', m₄, executes⟩ : ∃ fault m', Program.execute 1 ⟨[.block .shadow], .nowhere⟩
      (.start (.ofLines []) .unlimited) = some (.error fault, m') := ⟨_, _, rfl⟩
  refine ⟨m, declares, (stmts _ 1 _ _ _ declares).1, ⟨m₁, assigns, (stmts _ 1 _ _ _ assigns).1⟩,
    ⟨fault, m₂, fails, (stmts _ 1 _ _ _ fails).2 trivial ⟨fault, rfl⟩⟩,
    ⟨m₃, leaves, blocks _ 1 _ _ _ leaves⟩, fault', m₄, executes, ?_⟩
  exact programs _ (.single ⟨_, 1, _, _, _, m₄, executes, rfl⟩)

end GujaratiScript
