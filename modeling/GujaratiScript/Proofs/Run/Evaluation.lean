import GujaratiScript.Proofs.Run.Ensures

/-!
# The order of evaluation

* `Feed.Takes` : a feed after a number of attempts to read;
* `Expr.nodes` : the nodes of an expression in post-order, the left operand before the right one;
* `Expr.step` : what one node does with the values of its operands;
* `foldlM_step_nodes` : evaluating an expression is one step at each of its nodes, in that order;
* `evaluation_only_reads` : evaluation changes no name and prints nothing, it reads one line at
  each node that wants one and fails at the first node that fails.
-/

namespace GujaratiScript

/-! ## Feeds -/

/-- The feed `f'` is `f` after `n` attempts to read. -/
structure Feed.Takes (f : Feed) (n : Nat) (f' : Feed) : Prop where
  reads : f'.reads = f.reads + n
  pending : f'.pending = f.pending.drop n

namespace Feed.Takes

variable {f g h : Feed} {n k : Nat}

theorem refl (f : Feed) : f.Takes 0 f := ⟨rfl, rfl⟩

theorem trans (first : f.Takes n g) (second : g.Takes k h) : f.Takes (n + k) h where
  reads := by rw [second.reads, first.reads, Nat.add_assoc]
  pending := by rw [second.pending, first.pending, List.drop_drop]

theorem read (f : Feed) : f.Takes 1 f.read.2 where
  reads := reads_read f
  pending := by rw [pending_read, List.drop_one]

end Feed.Takes

/-! ## Parts of an evaluation -/

namespace Eval

variable {α β : Type}

/-- An operation on values reads nothing. -/
@[simp] theorem snd_place (span : Span) (result : Except RunCause α) (f : Feed) :
    (place span result f).2 = f := by
  unfold place
  split <;> rfl

/-- The line that is read is the first pending one. -/
theorem readLine_apply (span : Span) (f : Feed) :
    readLine span f =
      match f.pending.head? with
      | some line => (.ok (withoutBreaks line), f.read.2)
      | none => (.error ⟨.inputExhausted, span⟩, f.read.2) := by
  obtain ⟨_ | ⟨line, rest⟩, reads⟩ := f <;> rfl

/-- Computing on with the value reads nothing. -/
@[simp] theorem snd_bind_pure (x : Eval α) (g : α → β) (f : Feed) :
    ((x >>= fun a => pure (g a)) f).2 = (x f).2 := by
  rw [bind_apply]
  rcases x f with ⟨e | a, f'⟩ <;> rfl

end Eval

/-! ## Nodes -/

namespace Expr

/-- The nodes of an expression, each one behind its operands and the left operand first. -/
def nodes : Expr → List Expr
  | negate e span => e.nodes ++ [negate e span]
  | binary o l r operatorSpan span => l.nodes ++ (r.nodes ++ [binary o l r operatorSpan span])
  | e => [e]

/-- Whether a node reads a line. -/
def isInput : Expr → Bool
  | input _ => true
  | _ => false

/-- How many of the nodes read a line. -/
def inputs (xs : List Expr) : Nat := xs.countP isInput

theorem inputs_append (xs ys : List Expr) : inputs (xs ++ ys) = inputs xs + inputs ys :=
  List.countP_append

theorem inputs_cons (x : Expr) (xs : List Expr) : inputs (x :: xs) = inputs [x] + inputs xs :=
  inputs_append [x] xs

/-- What a node does once its operands have left their values behind, the last one first: it puts
its own value in their place. -/
def step (s : ScopeChain) (vs : List Value) : Expr → Eval (List Value)
  | negate _ span =>
    match vs with
    | v :: vs => do
      let w ← Eval.place span v.negate
      pure (w :: vs)
    | [] => pure []
  | binary o _ _ operatorSpan _ =>
    match vs with
    | w :: v :: vs => do
      let u ← Eval.place operatorSpan (Value.operate o v w)
      pure (u :: vs)
    | vs => pure vs
  | leaf => do
    let v ← leaf.eval s
    pure (v :: vs)

variable {s : ScopeChain} {f f' : Feed} {vs ws : List Value} {fault : RunFault}

/-- An expression is evaluated by one step at each of its nodes, operands first. -/
theorem foldlM_step_nodes (s : ScopeChain) (e : Expr) (vs : List Value) :
    e.nodes.foldlM (step s) vs = (do
      let v ← e.eval s
      pure (v :: vs)) := by
  induction e generalizing vs with
  | int | str | bool | var | input =>
    simp only [nodes, step, List.foldlM_cons, List.foldlM_nil, bind_pure]
  | negate e span ih =>
    rw [nodes, List.foldlM_append, ih, eval]
    simp only [bind_assoc, pure_bind, List.foldlM_cons, List.foldlM_nil, bind_pure, step]
  | binary o l r operatorSpan span ihl ihr =>
    rw [nodes, List.foldlM_append, ihl, eval]
    simp only [bind_assoc, pure_bind, List.foldlM_append, ihr, List.foldlM_cons, List.foldlM_nil,
      bind_pure, step]

/-! ## What is read -/

/-- A node reads one line if it wants one, and otherwise nothing, also if it fails. -/
theorem takes_step (s : ScopeChain) (vs : List Value) (x : Expr) (f : Feed) :
    f.Takes (inputs [x]) (step s vs x f).2 := by
  cases x with
  | int | str | bool => exact .refl f
  | var ident =>
    show f.Takes 0 ((do let v ← (var ident).eval s; pure (v :: vs)) f).2
    rw [Eval.snd_bind_pure, eval]
    cases s.get? ident.name <;> exact .refl f
  | input span =>
    show f.Takes 1 ((do let v ← (input span).eval s; pure (v :: vs)) f).2
    rw [Eval.snd_bind_pure, eval, Eval.snd_bind_pure, Eval.readLine_apply]
    cases f.pending.head? <;> exact .read f
  | negate e span =>
    cases vs with
    | nil => exact .refl f
    | cons v vs =>
      rw [step, Eval.snd_bind_pure, Eval.snd_place]
      exact .refl f
  | binary o l r operatorSpan span =>
    rcases vs with _ | ⟨w, _ | ⟨v, vs⟩⟩
    · exact .refl f
    · exact .refl f
    · rw [step, Eval.snd_bind_pure, Eval.snd_place]
      exact .refl f

/-- A node that wants a line and succeeds has found one. -/
theorem inputs_le_of_step {x : Expr} (h : step s vs x f = (.ok ws, f')) :
    inputs [x] ≤ f.pending.length := by
  cases x with
  | input span =>
    obtain ⟨_ | ⟨line, rest⟩, reads⟩ := f
    · cases h
    · exact Nat.succ_pos rest.length
  | _ => exact Nat.zero_le _

/-- Nodes that succeed have read one line each if they want one, and have found it. -/
theorem takes_of_foldlM_step {xs : List Expr}
    (h : xs.foldlM (step s) vs f = (.ok ws, f')) :
    f.Takes (inputs xs) f' ∧ inputs xs ≤ f.pending.length := by
  induction xs generalizing vs f with
  | nil =>
    cases h
    exact ⟨.refl _, Nat.zero_le _⟩
  | cons x xs ih =>
    rw [List.foldlM_cons, Eval.bind_apply] at h
    have taken := takes_step s vs x f
    rcases hx : step s vs x f with ⟨fault | us, g⟩
    · rw [hx] at h
      cases h
    · rw [hx] at h taken
      have found := inputs_le_of_step hx
      obtain ⟨takes, enough⟩ := ih h
      rw [taken.pending, List.length_drop] at enough
      rw [inputs_cons]
      exact ⟨taken.trans takes, by omega⟩

/-- If nodes fail, then at one of them, and all before it succeed. -/
theorem exists_of_foldlM_step {xs : List Expr}
    (h : xs.foldlM (step s) vs f = (.error fault, f')) :
    ∃ before x after us g, xs = before ++ x :: after ∧
      before.foldlM (step s) vs f = (.ok us, g) ∧ step s us x g = (.error fault, f') := by
  induction xs generalizing vs f with
  | nil => cases h
  | cons x xs ih =>
    rw [List.foldlM_cons, Eval.bind_apply] at h
    rcases hx : step s vs x f with ⟨e | us, g⟩
    · rw [hx] at h
      cases h
      exact ⟨[], x, xs, vs, f, rfl, rfl, hx⟩
    · rw [hx] at h
      obtain ⟨before, y, after, ts, g', rfl, succeeds, fails⟩ := ih h
      refine ⟨x :: before, y, after, ts, g', rfl, ?_, fails⟩
      rw [List.foldlM_cons, Eval.bind_apply, hx]
      exact succeeds

/-- A node that wants a line behind `n` others that did so reads the line with the index `n`. -/
theorem step_input (span : Span) {g : Feed} {n : Nat} (h : f.Takes n g) :
    step s vs (.input span) g =
      match f.pending[n]? with
      | some line => (.ok (.str (withoutBreaks line) :: vs), g.read.2)
      | none => (.error ⟨.inputExhausted, span⟩, g.read.2) := by
  have first : f.pending[n]? = g.pending.head? := by rw [h.pending, List.head?_drop]
  rw [first]
  obtain ⟨_ | ⟨line, rest⟩, reads⟩ := g <;> rfl

/-! ## Evaluation -/

/-- The result of an operation is that of its left operand, of its right operand or of its
operator, whichever fails first in this order. -/
theorem fst_eval_binary (s : ScopeChain) (o : Operator) (l r : Expr) (operatorSpan span : Span)
    (f : Feed) :
    ((binary o l r operatorSpan span).eval s f).1 =
      match l.eval s f with
      | (.error fault, _) => .error fault
      | (.ok v, g) =>
        match r.eval s g with
        | (.error fault, _) => .error fault
        | (.ok w, _) => (Value.operate o v w).mapError fun cause => ⟨cause, operatorSpan⟩ := by
  rw [eval, Eval.bind_apply]
  rcases l.eval s f with ⟨fault | v, g⟩
  · rfl
  · dsimp only
    rw [Eval.bind_apply]
    rcases r.eval s g with ⟨fault | w, g'⟩
    · rfl
    · dsimp only [Eval.place]
      cases Value.operate o v w <;> rfl

/-- The steps at all nodes, seen from the outcome of the evaluation. -/
theorem foldlM_step_nodes_apply (s : ScopeChain) (e : Expr) (f : Feed) :
    e.nodes.foldlM (step s) [] f =
      match e.eval s f with
      | (.ok v, f') => (.ok [v], f')
      | (.error fault, f') => (.error fault, f') := by
  rw [foldlM_step_nodes, Eval.bind_apply]
  rcases e.eval s f with ⟨fault | v, f'⟩ <;> rfl

/-- Evaluating only reads. -/
theorem takes_eval (e : Expr) (s : ScopeChain) (f : Feed) : ∃ n, f.Takes n (e.eval s f).2 := by
  have steps := foldlM_step_nodes_apply s e f
  rcases eq : e.eval s f with ⟨fault | v, f'⟩
  · rw [eq] at steps
    obtain ⟨before, x, after, vs, g, -, succeed, failing⟩ := exists_of_foldlM_step steps
    have last := takes_step s vs x g
    rw [failing] at last
    exact ⟨_, (takes_of_foldlM_step succeed).1.trans last⟩
  · rw [eq] at steps
    exact ⟨_, (takes_of_foldlM_step steps).1⟩

end Expr

/-- Evaluating an expression changes no name and prints nothing.

It steps through the nodes of the expression in post-order, one value after the other, and the
`n`-th node that wants a line reads the `n`-th line that is pending. If it succeeds, it has read as
many lines as there are such nodes. If it fails, then at the first node whose step fails, and it has
tried to read as many lines as there are such nodes up to that one. The operator of an operation is
applied only after both operands, so its fault gives way to theirs. -/
theorem evaluation_only_reads (e : Expr) (m : Machine) :
    ∃ r f, Exec.eval e m = some (r, ⟨m.scopes, f, m.log⟩) ∧
      (∀ v, r = .ok v →
        e.nodes.foldlM (Expr.step m.scopes) [] m.feed = (.ok [v], f) ∧
          m.feed.Takes (Expr.inputs e.nodes) f ∧ Expr.inputs e.nodes ≤ m.feed.pending.length) ∧
      (∀ fault, r = .error fault →
        ∃ before x after vs g, e.nodes = before ++ x :: after ∧
          before.foldlM (Expr.step m.scopes) [] m.feed = (.ok vs, g) ∧
          Expr.step m.scopes vs x g = (.error fault, f) ∧
          m.feed.Takes (Expr.inputs (before ++ [x])) f) ∧
      (∀ before span after vs g, e.nodes = before ++ .input span :: after →
        before.foldlM (Expr.step m.scopes) [] m.feed = (.ok vs, g) →
        Expr.step m.scopes vs (.input span) g =
          match m.feed.pending[Expr.inputs before]? with
          | some line => (.ok (.str (withoutBreaks line) :: vs), g.read.2)
          | none => (.error ⟨.inputExhausted, span⟩, g.read.2)) ∧
      (∀ o left right operatorSpan span, e = .binary o left right operatorSpan span →
        r =
          match left.eval m.scopes m.feed with
          | (.error fault, _) => .error fault
          | (.ok v, g) =>
            match right.eval m.scopes g with
            | (.error fault, _) => .error fault
            | (.ok w, _) => (Value.operate o v w).mapError fun cause => ⟨cause, operatorSpan⟩) := by
  -- the evaluation is the fold of the steps over the nodes in post-order
  have steps := Expr.foldlM_step_nodes_apply m.scopes e m.feed
  refine ⟨(e.eval m.scopes m.feed).1, (e.eval m.scopes m.feed).2, rfl, ?_, ?_, ?_, ?_⟩
  · intro v succeeds
    have eq : e.eval m.scopes m.feed = (.ok v, (e.eval m.scopes m.feed).2) :=
      Prod.ext succeeds rfl
    rw [eq] at steps
    exact ⟨steps, Expr.takes_of_foldlM_step steps⟩
  · intro fault fails
    have eq : e.eval m.scopes m.feed = (.error fault, (e.eval m.scopes m.feed).2) :=
      Prod.ext fails rfl
    rw [eq] at steps
    obtain ⟨before, x, after, vs, g, split, succeed, failing⟩ := Expr.exists_of_foldlM_step steps
    refine ⟨before, x, after, vs, g, split, succeed, failing, ?_⟩
    have last := Expr.takes_step m.scopes vs x g
    rw [failing] at last
    rw [Expr.inputs_append]
    exact (Expr.takes_of_foldlM_step succeed).1.trans last
  · intro before span after vs g split succeed
    exact Expr.step_input span (Expr.takes_of_foldlM_step succeed).1
  · rintro o left right operatorSpan span rfl
    exact Expr.fst_eval_binary m.scopes o left right operatorSpan span m.feed

end GujaratiScript
