import GujaratiScript.Proofs.Run.Composition
import GujaratiScript.Proofs.Run.Evaluation

/-!
# Lines that are not read

What a run does depends on the lines that it reads, and on no line behind them: with any other lines
behind those that it has read it does the same, and leaves these lines.

* `Feed.instead`, `Machine.instead` : other lines behind the first ones that are pending;
* `Eval.Blind`, `Exec.Blind` : no line is looked at that is not read;
* `Program.interpret_instead` : programs are blind.
-/

namespace GujaratiScript

/-! ## Other lines -/

/-- The feed in which `lines` stand behind the first `n` lines. -/
def Feed.instead (f : Feed) (n : Nat) (lines : List String) : Feed :=
  ⟨f.pending.take n ++ lines, f.reads⟩

/-- The machine in which `lines` stand behind the first `n` lines that it may read. -/
def Machine.instead (m : Machine) (n : Nat) (lines : List String) : Machine :=
  ⟨m.scopes, m.feed.instead n lines, m.log⟩

theorem Machine.say_instead (m : Machine) (n : Nat) (lines : List String) (line : String) :
    (m.say line).instead n lines = (m.instead n lines).say line := rfl

/-- The first `j + k` lines are the first `j`, and the first `k` that are left behind these. -/
theorem Feed.Takes.instead_add {f g : Feed} {j : Nat} (taken : f.Takes j g) (k : Nat)
    (lines : List String) : f.instead (j + k) lines = f.instead j (g.instead k lines).pending := by
  unfold Feed.instead
  rw [List.take_add, ← taken.pending, List.append_assoc]

theorem Feed.instead_pending (g : Feed) (k : Nat) (lines : List String) :
    g.instead 0 (g.instead k lines).pending = g.instead k lines := rfl

/-! ## Evaluation -/

namespace Eval

variable {α β : Type}

/-- If the evaluation finds all lines that it wants, it does not look at any line behind them. -/
def Blind (x : Eval α) : Prop :=
  ∀ f, ∃ n, f.Takes n (x f).2 ∧
    (n ≤ f.pending.length → ∀ lines, x (f.instead n lines) = ((x f).1, (x f).2.instead 0 lines))

/-- An evaluation that does nothing does not see the input. -/
theorem blind_pure (a : α) : (pure a : Eval α).Blind :=
  fun f => ⟨0, .refl f, fun _ _ => rfl⟩

theorem blind_fail (cause : RunCause) (span : Span) : (fail cause span : Eval α).Blind :=
  fun f => ⟨0, .refl f, fun _ _ => rfl⟩

/-- A result with a place does not depend on the input. -/
theorem blind_place (span : Span) (result : Except RunCause α) : (place span result).Blind := by
  intro f
  refine ⟨0, ?_, fun _ _ => ?_⟩
  · rw [snd_place]
    exact .refl f
  · cases result <;> rfl

/-- If there is a line, nothing else is looked at. -/
theorem blind_readLine (span : Span) : (readLine span).Blind := by
  rintro ⟨_ | ⟨line, rest⟩, reads⟩
  · exact ⟨1, .read _, fun no => (Nat.not_succ_le_zero 0 no).elim⟩
  · exact ⟨1, .read _, fun _ _ => rfl⟩

/-- In sequence, the second evaluation reads from where the first has stopped. -/
theorem Blind.bind {x : Eval α} {g : α → Eval β} (hx : x.Blind) (hg : ∀ a, (g a).Blind) :
    (x >>= g).Blind := by
  intro f
  obtain ⟨j, taken, first⟩ := hx f
  rw [bind_apply]
  rcases eq : x f with ⟨e | a, f₁⟩
  · rw [eq] at taken first
    refine ⟨j, taken, fun enough lines => ?_⟩
    rw [bind_apply, first enough lines]
  · rw [eq] at taken first
    obtain ⟨k, taken', second⟩ := hg a f₁
    refine ⟨j + k, taken.trans taken', fun enough lines => ?_⟩
    have left : k ≤ f₁.pending.length := by
      rw [taken.pending, List.length_drop]
      omega
    rw [bind_apply, taken.instead_add, first (by omega), Feed.instead_pending]
    exact second left lines

end Eval

/-- An expression is evaluated without a look at lines that are not read. -/
theorem Expr.blind_eval (s : ScopeChain) (e : Expr) : (e.eval s).Blind := by
  induction e with
  | int | str | bool => exact Eval.blind_pure _
  | var ident =>
    rw [eval]
    split
    · exact Eval.blind_pure _
    · exact Eval.blind_fail _ _
  | input span => exact (Eval.blind_readLine span).bind fun _ => Eval.blind_pure _
  | negate e span ih => exact ih.bind fun _ => Eval.blind_place _ _
  | binary o l r operatorSpan span ihl ihr =>
    exact ihl.bind fun _ => ihr.bind fun _ => Eval.blind_place _ _

/-! ## Runs -/

namespace Exec

variable {α β : Type}

/-- If the run ends and has found all lines that it wanted, it has not looked at any line behind
them. -/
def Blind (x : Exec α) : Prop :=
  ∀ m, Ensures m x fun r m' => ∃ n, m.feed.Takes n m'.feed ∧
    (n ≤ m.feed.pending.length → ∀ lines, x (m.instead n lines) = some (r, m'.instead 0 lines))

/-- A run that does not use the input is blind. -/
theorem blind_of_forall {x : Exec α}
    (h : ∀ s l, (∃ r s' l', ∀ f, x ⟨s, f, l⟩ = some (r, ⟨s', f, l'⟩)) ∨ ∀ f, x ⟨s, f, l⟩ = none) :
    x.Blind := by
  rintro ⟨s, f, l⟩ r m' ends
  rcases h s l with ⟨r', s', l', eq⟩ | eq
  · rw [eq] at ends
    cases ends
    exact ⟨0, .refl f, fun _ lines => eq _⟩
  · rw [eq] at ends
    cases ends

/-- An expression that is run sees the lines it reads only. -/
theorem blind_eval (e : Expr) : (Exec.eval e).Blind := by
  intro m r m' ends
  cases ends
  obtain ⟨n, taken, blind⟩ := e.blind_eval m.scopes m.feed
  refine ⟨n, taken, fun enough lines => ?_⟩
  have run : Exec.eval e (m.instead n lines) =
      some ((e.eval m.scopes (m.feed.instead n lines)).1,
        ⟨m.scopes, (e.eval m.scopes (m.feed.instead n lines)).2, m.log⟩) := rfl
  rw [run, blind enough lines]
  rfl

/-- Runs in sequence see what either of them reads. -/
theorem Blind.bind {x : Exec α} {f : α → Exec β} (hx : x.Blind) (hf : ∀ a, (f a).Blind) :
    (x >>= f).Blind := by
  intro m r m'' ends
  rw [bind_apply] at ends
  rcases run : x m with _ | ⟨e | a, m'⟩
  · rw [run] at ends
    cases ends
  · rw [run] at ends
    cases ends
    obtain ⟨n, taken, first⟩ := hx m _ _ run
    refine ⟨n, taken, fun enough lines => ?_⟩
    rw [bind_apply, first enough lines]
  · rw [run] at ends
    obtain ⟨j, taken, first⟩ := hx m _ _ run
    obtain ⟨k, taken', second⟩ := hf a m' _ _ ends
    refine ⟨j + k, taken.trans taken', fun enough lines => ?_⟩
    have left : k ≤ m'.feed.pending.length := by
      rw [taken.pending, List.length_drop]
      omega
    have split : m.instead (j + k) lines = m.instead j (m'.feed.instead k lines).pending := by
      unfold Machine.instead
      rw [taken.instead_add]
    rw [bind_apply, split, first (by omega)]
    exact second left lines

/-- A frame around a run reads nothing. -/
theorem Blind.inFrame {x : Exec α} (h : x.Blind) : (Exec.inFrame x).Blind := by
  intro m r m'' ends
  unfold Exec.inFrame at ends
  rcases run : x ⟨m.scopes.push, m.feed, m.log⟩ with _ | ⟨r', m'⟩
  · rw [run] at ends
    cases ends
  · rw [run] at ends
    cases ends
    obtain ⟨n, taken, blind⟩ := h _ _ _ run
    refine ⟨n, taken, fun enough lines => ?_⟩
    have same : x ⟨m.scopes.push, m.feed.instead n lines, m.log⟩ = _ := blind enough lines
    show Exec.inFrame x ⟨m.scopes, m.feed.instead n lines, m.log⟩ = _
    unfold Exec.inFrame
    rw [same]
    rfl

/-- All runs are blind. -/
theorem composes_blind : Composes fun _ x => x.Blind where
  pure a := blind_of_forall fun _ _ => .inl ⟨_, _, _, fun _ => rfl⟩
  fail cause span := blind_of_forall fun _ _ => .inl ⟨_, _, _, fun _ => rfl⟩
  eval := blind_eval
  print line span := by
    refine blind_of_forall fun s l => .inl ?_
    unfold print
    dsimp only
    rcases l.write line with ⟨fault | _, l'⟩ <;> exact ⟨_, _, _, fun _ => rfl⟩
  update ident change := by
    refine blind_of_forall fun s l => .inl ?_
    unfold update
    dsimp only
    rcases change s with fault | s'
    · cases fault <;> exact ⟨_, _, _, fun _ => rfl⟩
    · exact ⟨_, _, _, fun _ => rfl⟩
  endless := blind_of_forall fun _ _ => .inr fun _ => rfl
  bind := Blind.bind
  inFrame := Blind.inFrame

end Exec

/-! ## Programs -/

/-- A program that ends has read lines from the first one on. If it has found all that it wanted, it
ends in the same way whatever else stands behind them. -/
theorem Program.interpret_instead {p : Program} {rounds code : Nat} {m m' : Machine}
    (h : p.interpret rounds m = some (code, m')) :
    ∃ n, m.feed.Takes n m'.feed ∧ (n ≤ m.feed.pending.length →
      ∀ lines, p.interpret rounds (m.instead n lines) = some (code, m'.instead 0 lines)) := by
  unfold interpret at h
  rcases run : p.execute rounds m with _ | ⟨fault | _, m₁⟩
  · rw [run] at h
    cases h
  all_goals
    rw [run] at h
    cases h
    obtain ⟨n, taken, blind⟩ := Exec.composes_blind.execute rounds p m _ _ run
    refine ⟨n, taken, fun enough lines => ?_⟩
    simp only [interpret, blind enough lines, Machine.say_instead]

end GujaratiScript
