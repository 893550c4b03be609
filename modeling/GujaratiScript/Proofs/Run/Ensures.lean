import GujaratiScript.Run.Machine

/-!
# What a run ensures

* `Exec.Ensures` : what holds of the outcome of a run, and of the machine after it, whenever the run
  ends; a rule for each basic run, one for runs in sequence, one for frames and one for loops;
* `Eval.Faults`, `Exec.Faults` : what holds of every fault, with the same rules;
* `executeAll_eq` : a program is its statements in sequence, and then `Flow.finish`.

A run is over at the first line that is missing and at the first line that is refused. So the feed
and the log of a machine stand for every way in which input and output may behave during one run.
-/

namespace GujaratiScript

/-- Why a run cannot go on if the name `name` cannot be declared or assigned. -/
def ScopeFault.cause (name : String) : ScopeFault → RunCause
  | alreadyDeclared => .alreadyDeclared name
  | undefined => .undefinedVariable name

namespace Exec

variable {α β : Type} {m : Machine}

/-- Whenever the run `x` ends from `m`, the condition holds of its outcome and of the machine after
it. -/
def Ensures (m : Machine) (x : Exec α) (post : Except RunFault α → Machine → Prop) : Prop :=
  ∀ r m', x m = some (r, m') → post r m'

/-- A condition that follows is ensured too. -/
theorem Ensures.weaken {x : Exec α} {mid post : Except RunFault α → Machine → Prop}
    (h : Ensures m x mid) (imp : ∀ r m', mid r m' → post r m') : Ensures m x post :=
  fun r m' ends => imp r m' (h r m' ends)

/-! ## Sequences -/

/-- Running in sequence: a fault of the first run ends both. -/
theorem bind_apply (x : Exec α) (f : α → Exec β) (m : Machine) :
    (x >>= f) m =
      match x m with
      | none => none
      | some (.error fault, m') => some (.error fault, m')
      | some (.ok a, m') => f a m' := by
  show (x m).bind (fun p => ExceptT.bindCont f p.1 p.2) = _
  rcases x m with _ | ⟨fault | a, m'⟩ <;> rfl

/-- In sequence: a fault of the first run is passed on, and after a result the second goes on. -/
theorem Ensures.bind {x : Exec α} {f : α → Exec β} {mid : Except RunFault α → Machine → Prop}
    {post : Except RunFault β → Machine → Prop} (hx : Ensures m x mid)
    (fault : ∀ e m', mid (.error e) m' → post (.error e) m')
    (ok : ∀ a m', mid (.ok a) m' → Ensures m' (f a) post) : Ensures m (x >>= f) post := by
  intro r m'' ends
  rw [bind_apply] at ends
  rcases hm : x m with _ | ⟨e | a, m'⟩
  · rw [hm] at ends
    cases ends
  · rw [hm] at ends
    cases ends
    exact fault _ _ (hx _ _ hm)
  · rw [hm] at ends
    exact ok a m' (hx _ _ hm) r m'' ends

/-! ## Basic runs -/

/-- A run that does nothing ensures what holds already. -/
theorem ensures_pure {a : α} {post : Except RunFault α → Machine → Prop} (h : post (.ok a) m) :
    Ensures m (pure a) post := by
  intro r m' ends
  cases ends
  exact h

/-- A run that fails ensures what holds of its fault. -/
theorem ensures_fail {cause : RunCause} {span : Span} {post : Except RunFault α → Machine → Prop}
    (h : post (.error ⟨cause, span⟩) m) : Ensures m (fail cause span) post := by
  intro r m' ends
  cases ends
  exact h

/-- Evaluating an expression only reads lines. -/
theorem ensures_eval (e : Expr) :
    Ensures m (eval e) fun r m' =>
      r = (e.eval m.scopes m.feed).1 ∧ m' = ⟨m.scopes, (e.eval m.scopes m.feed).2, m.log⟩ := by
  intro r m' ends
  cases ends
  exact ⟨rfl, rfl⟩

/-- Printing only offers a line. -/
theorem ensures_print (line : String) (span : Span) :
    Ensures m (print line span) fun r m' =>
      m' = ⟨m.scopes, m.feed, (m.log.write line).2⟩ ∧
        ∀ e, r = .error e → ∃ kind, e = ⟨.output kind, span⟩ := by
  intro r m' ends
  unfold print at ends
  split at ends
  · rename_i eq
    cases ends
    exact ⟨by rw [eq], nofun⟩
  · rename_i kind log eq
    cases ends
    refine ⟨by rw [eq], ?_⟩
    rintro e ⟨⟩
    exact ⟨kind, rfl⟩

/-- Changing the names changes nothing else, and nothing at all if it fails. -/
theorem ensures_update (ident : Ident) (change : ScopeChain → Except ScopeFault ScopeChain) :
    Ensures m (update ident change) fun r m' =>
      (∃ s, change m.scopes = .ok s ∧ r = .ok () ∧ m' = ⟨s, m.feed, m.log⟩) ∨
        ∃ fault, change m.scopes = .error fault ∧
          r = .error ⟨fault.cause ident.name, ident.span⟩ ∧ m' = m := by
  intro r m' ends
  unfold update at ends
  rcases eq : change m.scopes with fault | s
  · rw [eq] at ends
    cases fault <;> cases ends <;> exact .inr ⟨_, rfl, rfl, rfl⟩
  · rw [eq] at ends
    cases ends
    exact .inl ⟨s, rfl, rfl, rfl⟩

/-! ## Frames and loops -/

/-- A run inside a frame of its own, from the machine in which the frame is open. -/
theorem Ensures.inFrame {x : Exec α} {post : Except RunFault α → Machine → Prop}
    (h : Ensures ⟨m.scopes.push, m.feed, m.log⟩ x fun r m' =>
      post r ⟨m'.scopes.pop, m'.feed, m'.log⟩) : Ensures m (inFrame x) post := by
  intro r m'' ends
  unfold Exec.inFrame at ends
  rcases hm : x ⟨m.scopes.push, m.feed, m.log⟩ with _ | ⟨r', m'⟩
  · rw [hm] at ends
    cases ends
  · rw [hm] at ends
    cases ends
    exact h _ _ hm

/-- The condition of a loop, and what comes next if it is truthy. -/
def recheck (condition : Exec Value) (next : Exec Flow) : Exec Flow := do
  let v ← condition
  if v.isTruthy then next else pure .completed

/-- A loop is one round, and unless that was the last the loop once more. -/
theorem iterate_succ (body : Exec Flow) (condition : Exec Value) (rounds : Nat) :
    iterate body condition (rounds + 1) = (do
      let flow ← body
      match flow with
      | .leave _ => pure .completed
      | _ => recheck condition (iterate body condition rounds)) := by
  funext m
  rw [bind_apply, iterate]
  dsimp only
  rcases body m with _ | ⟨_ | flow, m'⟩
  · rfl
  · rfl
  · -- only leaving the loop does not go on to the condition
    cases flow with
    | leave span => rfl
    | completed | again span =>
      dsimp only
      unfold recheck
      rw [bind_apply]
      rcases condition m' with _ | ⟨_ | v, m''⟩
      · rfl
      · rfl
      · dsimp only
        split <;> rfl

/-- A loop, by an invariant `inv` of the machines before its body and one, `mid`, of those before
its condition. -/
theorem Ensures.iterate {body : Exec Flow} {condition : Exec Value} (inv mid : Machine → Prop)
    {post : Except RunFault Flow → Machine → Prop}
    (hbody : ∀ m, inv m → Ensures m body fun r m' =>
      match r with
      | .error fault => post (.error fault) m'
      | .ok (.leave _) => post (.ok .completed) m'
      | .ok _ => mid m')
    (hcond : ∀ m, mid m → Ensures m condition fun r m' =>
      match r with
      | .error fault => post (.error fault) m'
      | .ok v => if v.isTruthy then inv m' else post (.ok .completed) m')
    (rounds : Nat) (start : inv m) : Ensures m (iterate body condition rounds) post := by
  -- every round that is not the last leads from the invariant to the invariant
  induction rounds generalizing m with
  | zero =>
    intro r m' ends
    cases ends
  | succ rounds ih =>
    have again : ∀ m, mid m →
        Ensures m (recheck condition (Exec.iterate body condition rounds)) post := by
      intro m hm
      refine (hcond m hm).bind (fun _ _ h => h) fun v m' next => ?_
      dsimp only at next
      split
      · rename_i truthy
        rw [if_pos truthy] at next
        exact ih next
      · rename_i falsy
        rw [if_neg falsy] at next
        exact ensures_pure next
    rw [iterate_succ]
    refine (hbody m start).bind (fun _ _ h => h) fun flow m' next => ?_
    cases flow with
    | completed => exact again m' next
    | leave span => exact ensures_pure next
    | again span => exact again m' next

end Exec

/-! ## Faults -/

namespace Eval

variable {α β : Type} {Q : RunFault → Prop}

/-- Whatever the evaluation reads, the condition holds of its fault. -/
def Faults (Q : RunFault → Prop) (x : Eval α) : Prop :=
  ∀ f e f', x f = (.error e, f') → Q e

/-- An evaluation that does nothing has no fault. -/
theorem faults_pure (a : α) : (pure a : Eval α).Faults Q := by
  intro f e f' eq
  cases eq

/-- An evaluation that fails has the fault that it fails with. -/
theorem faults_fail {cause : RunCause} {span : Span} (h : Q ⟨cause, span⟩) :
    (fail cause span : Eval α).Faults Q := by
  intro f e f' eq
  cases eq
  exact h

/-- A result with a place has its fault there. -/
theorem faults_place {span : Span} {result : Except RunCause α}
    (h : ∀ cause, result = .error cause → Q ⟨cause, span⟩) : (place span result).Faults Q := by
  intro f e f' eq
  rcases result with cause | a
  · cases eq
    exact h cause rfl
  · cases eq

/-- The one fault of reading a line is that there is none. -/
theorem faults_readLine {span : Span} (h : Q ⟨.inputExhausted, span⟩) :
    (readLine span).Faults Q := by
  intro f e f' eq
  unfold readLine at eq
  split at eq <;> cases eq
  exact h

/-- Evaluating in sequence: a fault of the first part ends both. -/
theorem bind_apply (x : Eval α) (g : α → Eval β) (f : Feed) :
    (x >>= g) f =
      match x f with
      | (.ok a, f') => g a f'
      | (.error e, f') => (.error e, f') := by
  show ExceptT.bindCont g (x f).1 (x f).2 = _
  rcases x f with ⟨e | a, f'⟩ <;> rfl

/-- Every fault of evaluations in sequence is one of either. -/
theorem Faults.bind {x : Eval α} {g : α → Eval β} (hx : x.Faults Q) (hg : ∀ a, (g a).Faults Q) :
    (x >>= g).Faults Q := by
  intro f e f'' h
  rw [bind_apply] at h
  rcases eq : x f with ⟨e' | a, f'⟩
  · rw [eq] at h
    cases h
    exact hx f _ _ eq
  · rw [eq] at h
    exact hg a f' e f'' h

/-- Of the faults, what follows holds as well. -/
theorem Faults.mono {R : RunFault → Prop} {x : Eval α} (h : x.Faults Q) (imp : ∀ e, Q e → R e) :
    x.Faults R :=
  fun f e f' eq => imp e (h f e f' eq)

end Eval

namespace Exec

variable {α β : Type} {Q : RunFault → Prop}

/-- From whatever machine the run starts, the condition holds of its fault. -/
def Faults (Q : RunFault → Prop) (x : Exec α) : Prop :=
  ∀ m, Ensures m x fun r _ => ∀ e, r = .error e → Q e

/-- A run that does nothing has no fault. -/
theorem faults_pure (a : α) : (pure a : Exec α).Faults Q := fun _ => ensures_pure nofun

/-- A run that fails has the fault that it fails with. -/
theorem faults_fail {cause : RunCause} {span : Span} (h : Q ⟨cause, span⟩) :
    (fail cause span : Exec α).Faults Q := by
  refine fun m => ensures_fail ?_
  rintro e ⟨⟩
  exact h

/-- The faults of an expression that is run are those of its evaluation. -/
theorem faults_eval {e : Expr} (h : ∀ s, (e.eval s).Faults Q) : (Exec.eval e).Faults Q := by
  intro m
  refine (ensures_eval e).weaken ?_
  rintro r m' ⟨rfl, -⟩ fault eq
  exact h m.scopes m.feed fault _ (Prod.ext eq rfl)

/-- The one fault of printing is that the line is not taken. -/
theorem faults_print (line : String) {span : Span} (h : ∀ kind, Q ⟨.output kind, span⟩) :
    (Exec.print line span).Faults Q := by
  intro m
  refine (ensures_print line span).weaken ?_
  rintro r m' ⟨-, refused⟩ fault eq
  obtain ⟨kind, rfl⟩ := refused fault eq
  exact h kind

/-- The one fault of changing a name is that the scopes refuse it. -/
theorem faults_update {ident : Ident} (change : ScopeChain → Except ScopeFault ScopeChain)
    (h : ∀ fault : ScopeFault, Q ⟨fault.cause ident.name, ident.span⟩) :
    (Exec.update ident change).Faults Q := by
  intro m
  refine (ensures_update ident change).weaken ?_
  rintro r m' (⟨s, -, rfl, -⟩ | ⟨fault, -, rfl, -⟩) e eq
  · cases eq
  · cases eq
    exact h fault

/-- Every fault of runs in sequence is one of either. -/
theorem Faults.bind {x : Exec α} {f : α → Exec β} (hx : x.Faults Q) (hf : ∀ a, (f a).Faults Q) :
    (x >>= f).Faults Q := by
  refine fun m => (hx m).bind ?_ fun a m' _ => hf a m'
  rintro e m' h _ ⟨⟩
  exact h e rfl

/-- Of the faults of a run, what follows holds as well. -/
theorem Faults.mono {R : RunFault → Prop} {x : Exec α} (h : x.Faults Q) (imp : ∀ e, Q e → R e) :
    x.Faults R :=
  fun m => (h m).weaken fun _ _ faults e eq => imp e (faults e eq)

/-- A frame around a run brings no fault of its own. -/
theorem Faults.inFrame {x : Exec α} (h : x.Faults Q) : (Exec.inFrame x).Faults Q :=
  fun _ => Ensures.inFrame (h _)

/-- Every fault of a loop is one of its body or its condition. -/
theorem Faults.iterate {body : Exec Flow} {condition : Exec Value} (hb : body.Faults Q)
    (hc : condition.Faults Q) (rounds : Nat) : (Exec.iterate body condition rounds).Faults Q := by
  -- faults get out of a loop as they are, so nothing has to be kept between rounds
  refine fun m => Ensures.iterate (fun _ => True) (fun _ => True) ?_ ?_ rounds trivial
  · rintro m -
    refine (hb m).weaken fun r m' h => ?_
    rcases r with fault | _ | _ | _
    · exact h
    · trivial
    · exact nofun
    · trivial
  · rintro m -
    refine (hc m).weaken fun r m' h => ?_
    rcases r with fault | v
    · rintro e ⟨⟩
      exact h fault rfl
    · dsimp only
      split
      · trivial
      · exact nofun

end Exec

/-! ## Programs -/

/-- How a program ends once its statements have: loop control outside of a loop is a fault. -/
def Flow.finish : Flow → Exec Unit
  | completed => pure ()
  | leave span => Exec.fail (.controlOutsideLoop .tameJao) span
  | again span => Exec.fail (.controlOutsideLoop .aagalVado) span

/-- A program runs its statements in sequence. -/
theorem executeAll_eq (rounds : Nat) (body : List Stmt) :
    executeAll rounds body = runAll rounds body >>= Flow.finish := by
  induction body with
  | nil => rfl
  | cons s rest ih =>
    rw [executeAll, runAll, bind_assoc]
    congr 1
    funext flow
    cases flow with
    | completed => exact ih
    | leave span | again span => rfl

end GujaratiScript
