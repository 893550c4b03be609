import GujaratiScript.Proofs.Run.Ensures

/-!
# Two runs at once

* `Exec.Couples` : two runs, from two machines, either both do not end, or both meet a fault, or
  both give a result; and what holds then of the outcomes and of the machines after them;
* `Exec.Mirrors` : from machines that are alike, two runs lead to machines that are alike, and what
  one gives is an image of what the other gives; with a rule for each basic run, one for runs in
  sequence and one for loops.
-/

namespace GujaratiScript

/-- Two machines that read and write the same and whose scopes stand in the relation `S`. -/
structure Machine.Alike (S : ScopeChain → ScopeChain → Prop) (m m' : Machine) : Prop where
  scopes : S m.scopes m'.scopes
  feed : m'.feed = m.feed
  log : m'.log = m.log

/-- A machine in which a frame was opened. -/
def Machine.opened (m : Machine) : Machine := ⟨m.scopes.push, m.feed, m.log⟩

/-- A machine in which the innermost frame was closed. -/
def Machine.closed (m : Machine) : Machine := ⟨m.scopes.pop, m.feed, m.log⟩

namespace Exec

variable {α β γ δ : Type} {m m' : Machine}

/-! ## Coupled runs -/

/-- Two runs have ended in the same way, or neither has ended: both by a fault, and `fault` holds of
the two faults and machines, or both by a result, and `ok` holds of these. -/
inductive Coupled (fault : RunFault → Machine → RunFault → Machine → Prop)
    (ok : α → Machine → β → Machine → Prop) :
    Option (Except RunFault α × Machine) → Option (Except RunFault β × Machine) → Prop
  | endless : Coupled fault ok none none
  | fault {e e' : RunFault} {n n' : Machine} :
      fault e n e' n' → Coupled fault ok (some (.error e, n)) (some (.error e', n'))
  | ok {a : α} {b : β} {n n' : Machine} :
      ok a n b n' → Coupled fault ok (some (.ok a, n)) (some (.ok b, n'))

/-- The runs `x` from `m` and `y` from `m'` end in the same way, if they end. -/
def Couples (m m' : Machine) (x : Exec α) (y : Exec β)
    (fault : RunFault → Machine → RunFault → Machine → Prop)
    (ok : α → Machine → β → Machine → Prop) : Prop :=
  Coupled fault ok (x m) (y m')

variable {fault fault' : RunFault → Machine → RunFault → Machine → Prop}

/-- What follows from the relations of the outcomes may be put in their place. -/
theorem Couples.weaken {x : Exec α} {y : Exec β} {ok ok' : α → Machine → β → Machine → Prop}
    (h : Couples m m' x y fault ok) (hf : ∀ e n e' n', fault e n e' n' → fault' e n e' n')
    (ho : ∀ a n b n', ok a n b n' → ok' a n b n') : Couples m m' x y fault' ok' := by
  unfold Couples at h ⊢
  generalize x m = o, y m' = o' at h ⊢
  cases h with
  | endless => exact .endless
  | fault h => exact .fault (hf _ _ _ _ h)
  | ok h => exact .ok (ho _ _ _ _ h)

/-- A run is coupled with itself. -/
theorem couples_self (m : Machine) (x : Exec α) :
    Couples m m x x (fun e n e' n' => e' = e ∧ n' = n) fun a n b n' => b = a ∧ n' = n := by
  unfold Couples
  rcases x m with _ | ⟨e | a, n⟩
  · exact .endless
  · exact .fault ⟨rfl, rfl⟩
  · exact .ok ⟨rfl, rfl⟩

/-- What the first run ensures may be used as well. -/
theorem Couples.ensures {x : Exec α} {y : Exec β} {ok : α → Machine → β → Machine → Prop}
    (h : Couples m m' x y fault ok) {post : Except RunFault α → Machine → Prop}
    (hx : Ensures m x post) :
    Couples m m' x y (fun e n e' n' => post (.error e) n ∧ fault e n e' n')
      fun a n b n' => post (.ok a) n ∧ ok a n b n' := by
  unfold Couples at h ⊢
  unfold Ensures at hx
  generalize x m = o, y m' = o' at h hx ⊢
  cases h with
  | endless => exact .endless
  | fault h => exact .fault ⟨hx _ _ rfl, h⟩
  | ok h => exact .ok ⟨hx _ _ rfl, h⟩

/-- Runs that do nothing keep what holds of the machines. -/
theorem couples_pure {a : α} {b : β} {ok : α → Machine → β → Machine → Prop} (h : ok a m b m') :
    Couples m m' (pure a) (pure b) fault ok := .ok h

/-- In sequence: the second runs start from outcomes that the first have related. -/
theorem Couples.bind {x : Exec α} {y : Exec β} {f : α → Exec γ} {g : β → Exec δ}
    {mid : α → Machine → β → Machine → Prop} {ok : γ → Machine → δ → Machine → Prop}
    (h : Couples m m' x y fault mid)
    (hf : ∀ a n b n', mid a n b n' → Couples n n' (f a) (g b) fault ok) :
    Couples m m' (x >>= f) (y >>= g) fault ok := by
  unfold Couples at h ⊢
  rw [bind_apply, bind_apply]
  -- only if both have given a result, both go on
  generalize x m = o, y m' = o' at h ⊢
  cases h with
  | endless => exact .endless
  | fault h => exact .fault h
  | ok h => exact hf _ _ _ _ h

/-- In a fresh frame on both sides, which is closed on both. -/
theorem Couples.inFrame {x : Exec α} {y : Exec β} {ok : α → Machine → β → Machine → Prop}
    (h : Couples m.opened m'.opened x y (fun e n e' n' => fault e n.closed e' n'.closed)
      fun a n b n' => ok a n.closed b n'.closed) :
    Couples m m' (Exec.inFrame x) (Exec.inFrame y) fault ok := by
  change Coupled _ _ (x ⟨m.scopes.push, m.feed, m.log⟩) (y ⟨m'.scopes.push, m'.feed, m'.log⟩) at h
  unfold Couples Exec.inFrame
  generalize x ⟨m.scopes.push, m.feed, m.log⟩ = o, y ⟨m'.scopes.push, m'.feed, m'.log⟩ = o' at h ⊢
  cases h with
  | endless => exact .endless
  | fault h => exact .fault h
  | ok h => exact .ok h

/-! ## Runs that mirror each other -/

variable {S : ScopeChain → ScopeChain → Prop} {φ : RunFault → RunFault}

/-- From machines that are alike, the run `y` does what `x` does: the machines are alike afterwards,
a fault is the image under `φ`, and a result the image under `ψ`. -/
def Mirrors (S : ScopeChain → ScopeChain → Prop) (φ : RunFault → RunFault) (ψ : α → β)
    (x : Exec α) (y : Exec β) : Prop :=
  ∀ m m', m.Alike S m' → Couples m m' x y (fun e n e' n' => e' = φ e ∧ n.Alike S n')
    fun a n b n' => b = ψ a ∧ n.Alike S n'

/-- Runs that do nothing mirror each other. -/
theorem mirrors_pure (ψ : α → β) (a : α) : Mirrors S φ ψ (pure a) (pure (ψ a)) :=
  fun _ _ alike => .ok ⟨rfl, alike⟩

/-- Runs that fail mirror each other if their faults do. -/
theorem mirrors_fail {cause cause' : RunCause} {span span' : Span}
    (h : φ ⟨cause, span⟩ = ⟨cause', span'⟩) (ψ : α → β) :
    Mirrors S φ ψ (fail cause span) (fail cause' span') :=
  fun _ _ alike => .fault ⟨h.symm, alike⟩

/-- Runs in sequence mirror each other if their parts do. -/
theorem Mirrors.bind {x : Exec α} {y : Exec β} {f : α → Exec γ} {g : β → Exec δ} {χ : α → β}
    {ψ : γ → δ} (h : Mirrors S φ χ x y) (hf : ∀ a, Mirrors S φ ψ (f a) (g (χ a))) :
    Mirrors S φ ψ (x >>= f) (y >>= g) := by
  intro m m' alike
  refine (h m m' alike).bind ?_
  rintro a n _ n' ⟨rfl, alike⟩
  exact hf a n n' alike

/-- Printing does not look at the scopes. -/
theorem mirrors_print {span span' : Span}
    (h : ∀ kind, φ ⟨.output kind, span⟩ = ⟨.output kind, span'⟩) (line : String) :
    Mirrors S φ id (print line span) (print line span') := by
  rintro m m' ⟨scopes, feed, log⟩
  unfold Couples print
  rw [log]
  rcases m.log.write line with ⟨kind | _, log⟩
  · exact .fault ⟨(h kind).symm, scopes, feed, rfl⟩
  · exact .ok ⟨rfl, scopes, feed, rfl⟩

/-- Two changes of the names that agree: both fail in the same way, or both succeed and lead to
scopes that stand in the relation `S`. -/
inductive Agree (S : ScopeChain → ScopeChain → Prop) :
    Except ScopeFault ScopeChain → Except ScopeFault ScopeChain → Prop
  | fault (e : ScopeFault) : Agree S (.error e) (.error e)
  | ok {s t : ScopeChain} : S s t → Agree S (.ok s) (.ok t)

/-- Changes of names mirror each other if they agree on scopes that are related. -/
theorem mirrors_update {ident ident' : Ident}
    {change change' : ScopeChain → Except ScopeFault ScopeChain}
    (hφ : ∀ fault : ScopeFault, φ ⟨fault.cause ident.name, ident.span⟩ =
      ⟨fault.cause ident'.name, ident'.span⟩)
    (h : ∀ s t, S s t → Agree S (change s) (change' t)) :
    Mirrors S φ id (update ident change) (update ident' change') := by
  rintro m m' ⟨scopes, feed, log⟩
  have agree := h _ _ scopes
  unfold Couples update
  generalize change m.scopes = c, change' m'.scopes = c' at agree ⊢
  cases agree with
  | fault e =>
    cases e
    · exact .fault ⟨(hφ .alreadyDeclared).symm, scopes, feed, log⟩
    · exact .fault ⟨(hφ .undefined).symm, scopes, feed, log⟩
  | ok related => exact .ok ⟨rfl, related, feed, log⟩

/-- Loops mirror each other if their bodies and conditions do, and if the bodies leave the loop for
the same results. -/
theorem Mirrors.iterate {body body' : Exec Flow} {condition condition' : Exec Value}
    {ψ : Flow → Flow} (completed : ψ .completed = .completed)
    (leaves : ∀ span, ∃ span', ψ (.leave span) = .leave span')
    (repeats : ∀ span, ∃ span', ψ (.again span) = .again span')
    (hb : Mirrors S φ ψ body body') (hc : Mirrors S φ id condition condition') (rounds : Nat) :
    Mirrors S φ ψ (Exec.iterate body condition rounds) (Exec.iterate body' condition' rounds) := by
  have done : Mirrors S φ ψ (pure .completed) (pure .completed) := by
    have mirrors := mirrors_pure (S := S) (φ := φ) ψ .completed
    rwa [completed] at mirrors
  -- both loops use up their rounds together
  induction rounds with
  | zero => exact fun _ _ _ => .endless
  | succ rounds ih =>
    have again : Mirrors S φ ψ (recheck condition (Exec.iterate body condition rounds))
        (recheck condition' (Exec.iterate body' condition' rounds)) := by
      refine hc.bind fun v => ?_
      dsimp only [id]
      split
      · exact ih
      · exact done
    rw [iterate_succ, iterate_succ]
    refine hb.bind fun flow => ?_
    cases flow with
    | completed =>
      rw [completed]
      exact again
    | leave span =>
      obtain ⟨span', eq⟩ := leaves span
      rw [eq]
      exact done
    | again span =>
      obtain ⟨span', eq⟩ := repeats span
      rw [eq]
      exact again

end Exec

end GujaratiScript
