import Mathlib.Algebra.GroupWithZero.Nat
import Mathlib.Tactic.Choose
import GujaratiScript.Proofs.Run.Composition
import GujaratiScript.Proofs.Run.Evaluation
import GujaratiScript.Proofs.Scope.Renaming

/-!
# The rounds of a loop

A loop is run with an allowance of rounds. Whatever ends with one allowance ends in the same way
with every larger one, so what it does can be told without: it is one round after the other, each of
them from the machine that the round before has left.

* `Exec.Extends`, `Stmt.extends` : a larger allowance changes no run that ends;
* `Machine.Emits`, `Exec.composes_adds` : what a run has read and what it has offered;
* `ScopeChain.Evolves.isSome_get?` : which names are visible after a run that declares none;
* `Rounds` : the rounds of a loop, `GoesOn` all but the last and `LastRound` the last of them;
* `loops_run_in_rounds` : a loop that ends is its rounds.
-/

namespace GujaratiScript

open Exec

/-! ## Larger allowances -/

namespace Exec

variable {α β : Type}

/-- Whenever the run `x` ends, the run `y` ends in the same way. -/
def Extends (x y : Exec α) : Prop := ∀ m o, x m = some o → y m = some o

/-- Every run extends itself. -/
theorem Extends.refl (x : Exec α) : x.Extends x := fun _ _ ends => ends

/-- In sequence: if both parts are extended, so is the whole. -/
theorem Extends.bind {x y : Exec α} {f g : α → Exec β} (h : x.Extends y)
    (hf : ∀ a, (f a).Extends (g a)) : (x >>= f).Extends (y >>= g) := by
  intro m o ends
  rw [bind_apply] at ends ⊢
  rcases eq : x m with _ | ⟨fault | a, m'⟩
  · rw [eq] at ends
    cases ends
  · rw [eq] at ends
    rw [h m _ eq]
    exact ends
  · rw [eq] at ends
    rw [h m _ eq]
    exact hf a m' o ends

/-- A run in a fresh frame, too. -/
theorem Extends.inFrame {x y : Exec α} (h : x.Extends y) :
    (Exec.inFrame x).Extends (Exec.inFrame y) := by
  intro m o ends
  unfold Exec.inFrame at ends ⊢
  rcases eq : x ⟨m.scopes.push, m.feed, m.log⟩ with _ | ⟨r, m'⟩
  · rw [eq] at ends
    cases ends
  · rw [eq] at ends
    rw [h _ _ eq]
    exact ends

/-- So is a loop, with a longer run of its body and with more rounds allowed. -/
theorem Extends.iterate {body body' : Exec Flow} (h : body.Extends body') (condition : Exec Value)
    {k n : Nat} (le : k ≤ n) :
    (Exec.iterate body condition k).Extends (Exec.iterate body' condition n) := by
  induction k generalizing n with
  | zero =>
    intro m o ends
    cases ends
  | succ k ih =>
    obtain ⟨n, rfl⟩ : ∃ j, n = j + 1 := ⟨n - 1, by omega⟩
    have next := ih (Nat.le_of_succ_le_succ le)
    have again : (recheck condition (Exec.iterate body condition k)).Extends
        (recheck condition (Exec.iterate body' condition n)) := by
      refine (Extends.refl condition).bind fun v => ?_
      split
      · exact next
      · exact .refl _
    rw [iterate_succ, iterate_succ]
    refine h.bind fun flow => ?_
    cases flow with
    | completed | again span => exact again
    | leave span => exact .refl _

end Exec

mutual

/-- A larger allowance changes no run that ends. -/
theorem Stmt.extends (s : Stmt) {k n : Nat} (le : k ≤ n) : (s.run k).Extends (s.run n) := by
  match s with
  | .print _ _ | .declare _ _ _ | .assign _ _ _ | .leave _ | .again _ => exact .refl _
  | .branch c yes none _ =>
    refine (Extends.refl _).bind fun v => ?_
    split
    · exact yes.extends le
    · exact .refl _
  | .branch c yes (some no) _ =>
    refine (Extends.refl _).bind fun v => ?_
    split
    · exact yes.extends le
    · exact no.extends le
  | .loop body c _ => exact (body.extends le).iterate _ le
  | .block b => exact b.extends le

/-- A block that ends ends in the same way under a larger allowance. -/
theorem Block.extends (b : Block) {k n : Nat} (le : k ≤ n) : (b.run k).Extends (b.run n) := by
  match b with
  | ⟨body, _⟩ => exact (extends_all body le).inFrame

/-- So do statements in sequence. -/
theorem extends_all (body : List Stmt) {k n : Nat} (le : k ≤ n) :
    (runAll k body).Extends (runAll n body) := by
  match body with
  | [] => exact .refl _
  | s :: rest =>
    refine (s.extends le).bind fun flow => ?_
    cases flow with
    | completed => exact extends_all rest le
    | leave span | again span => exact .refl _

end

/-! ## What a run reads and offers -/

/-- The machine `m'` is `m` after `reads` attempts to read and with `lines` offered, apart from the
scopes. -/
structure Machine.Emits (m : Machine) (reads : Nat) (lines : List String) (m' : Machine) :
    Prop where
  feed : m.feed.Takes reads m'.feed
  log : m'.log = ⟨m.log.offered ++ lines.toArray, m.log.quota, m.log.refusal⟩

namespace Machine.Emits

variable {m m₁ m₂ : Machine} {j k : Nat} {us vs : List String}

/-- A change of the scopes alone reads and offers nothing. -/
theorem of_eq (feed : m₁.feed = m.feed) (log : m₁.log = m.log) : m.Emits 0 [] m₁ where
  feed := feed ▸ .refl _
  log := by simp [log]

/-- Reads add up, and so do the lines offered. -/
theorem trans (first : m.Emits j us m₁) (second : m₁.Emits k vs m₂) :
    m.Emits (j + k) (us ++ vs) m₂ where
  feed := first.feed.trans second.feed
  log := by simp [second.log, first.log]

end Machine.Emits

namespace Exec

variable {α β : Type}

/-- The run only reads and offers lines, and changes names. -/
def Adds (x : Exec α) : Prop := ∀ m, Ensures m x fun _ m' => ∃ reads lines, m.Emits reads lines m'

/-- A run that does nothing adds nothing. -/
theorem adds_pure (a : α) : (pure a : Exec α).Adds :=
  fun _ => ensures_pure ⟨0, [], .of_eq rfl rfl⟩

/-- An expression only reads. -/
theorem adds_eval (e : Expr) : (Exec.eval e).Adds := by
  intro m
  refine (ensures_eval e).weaken ?_
  rintro r m' ⟨-, rfl⟩
  obtain ⟨reads, takes⟩ := e.takes_eval m.scopes m.feed
  exact ⟨reads, [], takes, by simp⟩

/-- Printing offers a line, or is refused. -/
theorem adds_print (line : String) (span : Span) : (Exec.print line span).Adds := by
  intro m
  refine (ensures_print line span).weaken ?_
  rintro r m' ⟨rfl, -⟩
  exact ⟨0, [line], .refl _, rfl⟩

/-- A change of a name neither reads nor offers. -/
theorem adds_update (ident : Ident) (change : ScopeChain → Except ScopeFault ScopeChain) :
    (Exec.update ident change).Adds := by
  intro m
  refine (ensures_update ident change).weaken ?_
  rintro r m' (⟨s, -, -, rfl⟩ | ⟨fault, -, -, rfl⟩)
  · exact ⟨0, [], .of_eq rfl rfl⟩
  · exact ⟨0, [], .of_eq rfl rfl⟩

/-- In sequence, the second run adds to what the first one has added. -/
theorem Adds.bind {x : Exec α} {f : α → Exec β} (hx : x.Adds) (hf : ∀ a, (f a).Adds) :
    (x >>= f).Adds := by
  refine fun m => (hx m).bind (fun _ _ h => h) ?_
  rintro a m' ⟨j, us, first⟩
  refine (hf a m').weaken ?_
  rintro r m'' ⟨k, vs, second⟩
  exact ⟨_, _, first.trans second⟩

/-- Opening and closing a frame adds nothing. -/
theorem Adds.inFrame {x : Exec α} (h : x.Adds) : (Exec.inFrame x).Adds := by
  refine fun m => Ensures.inFrame ((h _).weaken ?_)
  rintro r m' ⟨reads, lines, feed, log⟩
  exact ⟨reads, lines, feed, log⟩

/-- All runs only read and offer lines, and change names. -/
theorem composes_adds : Composes fun _ x => x.Adds where
  pure := adds_pure
  fail _ _ _ := ensures_fail ⟨0, [], .of_eq rfl rfl⟩
  eval := adds_eval
  print := adds_print
  update := adds_update
  endless := by
    intro m r m' ends
    cases ends
  bind := Adds.bind
  inFrame := Adds.inFrame

end Exec

/-! ## Visible names -/

namespace ScopeChain

variable {s t : ScopeChain} {name : String}

/-- In scopes with the same links, a name that the same frames bind is found in the same frame. -/
theorem resolveFrom_congr (links : t.links = s.links)
    (bound : ∀ i, (t.binding? i name).isSome = (s.binding? i name).isSome) (i : Nat)
    (hs : i < s.frames.size) (ht : i < t.frames.size) :
    (t.resolveFrom name i ht).map Fin.val = (s.resolveFrom name i hs).map Fin.val := by
  -- links lead outward, so the search is by strong induction on the frame
  induction i using Nat.strongRecOn with
  | ind i ih =>
    have has : t.frames[i].bindings.has name = s.frames[i].bindings.has name := by
      rw [Bindings.has_eq_isSome, Bindings.has_eq_isSome, ← binding?_eq_getElem ht,
        ← binding?_eq_getElem hs, bound]
    have link : t.frames[i].outer = s.frames[i].outer := by
      have same := congrArg (·[i]?) links
      rw [getElem?_links ht, getElem?_links hs] at same
      exact Option.some.inj same
    rw [resolveFrom, resolveFrom, has]
    by_cases here : s.frames[i].bindings.has name = true
    · rw [if_pos here, if_pos here]
      rfl
    · rw [if_neg here, if_neg here]
      split
      · rename_i none
        rw [link] at none
        split
        · rfl
        · rename_i j some
          rw [none] at some
          cases some
      · rename_i j some
        rw [link] at some
        split
        · rename_i none
          rw [none] at some
          cases some
        · rename_i j' some'
          obtain rfl : j' = j := Option.some.inj (some'.symm.trans some)
          exact ih j' (s.outward i hs j' some) _ _

/-- A name has a value iff it is found in some frame. -/
theorem isSome_get?_eq (s : ScopeChain) (name : String) :
    (s.get? name).isSome = ((s.resolve name).map Fin.val).isSome := by
  rw [get?_eq_bind]
  rcases eq : s.resolve name with _ | j
  · rfl
  · exact isSome_binding?_of_resolveFrom eq

/-- If no name was declared, the same names are visible. -/
theorem Evolves.isSome_get? {assigned : List String} (h : s.Evolves t [] assigned)
    (name : String) : (t.get? name).isSome = (s.get? name).isSome := by
  have bound : ∀ i, (t.binding? i name).isSome = (s.binding? i name).isSome := by
    intro i
    rw [Bool.eq_iff_iff, h.bound]
    simp
  have size : t.frames.size = s.frames.size := by
    rw [← size_links, h.links, size_links]
  have same : ∀ i (ht : i < t.frames.size) (ht' : t.current < t.frames.size), i = t.current →
      t.resolveFrom name t.current ht' = t.resolveFrom name i ht := by
    rintro i ht ht' rfl
    rfl
  have lt : s.current < t.frames.size := size ▸ s.current_lt
  rw [isSome_get?_eq, isSome_get?_eq, resolve, resolve,
    same s.current lt t.current_lt h.current.symm,
    resolveFrom_congr h.links bound s.current s.current_lt lt]

end ScopeChain

/-! ## Rounds -/

/-- Going to the condition of a loop: a body that has ended so does not leave the loop. -/
def Flow.Repeats : Flow → Prop
  | completed | again _ => True
  | leave _ => False

/-- The block is run in a fresh frame from the machine `m` and ends by `r`; `m'` is the machine
after it, with the frame closed. -/
def Block.Ends (b : Block) (m : Machine) (r : Except RunFault Flow) (m' : Machine) : Prop :=
  ∃ allowance m₁, runAll allowance b.body m.opened = some (r, m₁) ∧ m' = m₁.closed

/-- A round of a loop that is not the last: the body does not leave the loop, and the condition,
evaluated once behind it, is truthy. -/
def GoesOn (body : Block) (c : Expr) (m m' : Machine) : Prop :=
  ∃ flow m₁ v, body.Ends m (.ok flow) m₁ ∧ flow.Repeats ∧
    Exec.eval c m₁ = some (.ok v, m') ∧ v.isTruthy = true

/-- The last round of a loop, and how the loop ends by it. -/
inductive LastRound (body : Block) (c : Expr) : Machine → Except RunFault Flow → Machine → Prop
  /-- The body leaves the loop; the condition is not evaluated. -/
  | left {m m' : Machine} {span : Span} :
      body.Ends m (.ok (.leave span)) m' → LastRound body c m (.ok .completed) m'
  | falsy {m m₁ m' : Machine} {flow : Flow} {v : Value} :
      body.Ends m (.ok flow) m₁ → flow.Repeats → Exec.eval c m₁ = some (.ok v, m') →
      v.isTruthy = false → LastRound body c m (.ok .completed) m'
  | bodyFails {m m' : Machine} {fault : RunFault} :
      body.Ends m (.error fault) m' → LastRound body c m (.error fault) m'
  | conditionFails {m m₁ m' : Machine} {flow : Flow} {fault : RunFault} :
      body.Ends m (.ok flow) m₁ → flow.Repeats → Exec.eval c m₁ = some (.error fault, m') →
      LastRound body c m (.error fault) m'

/-- The `n` rounds of a loop that is entered from `m` and ends by `r` in `m'`; round `i` leads from
`ms i` to `ms (i + 1)`. -/
structure Rounds (body : Block) (c : Expr) (m : Machine) (n : Nat) (ms : Nat → Machine)
    (r : Except RunFault Flow) (m' : Machine) : Prop where
  pos : 1 ≤ n
  first : ms 0 = m
  last : ms n = m'
  goesOn : ∀ i, i + 1 < n → GoesOn body c (ms i) (ms (i + 1))
  ends : LastRound body c (ms (n - 1)) r m'

section

variable {body : Block} {c : Expr} {m m' m₁ : Machine} {r : Except RunFault Flow}

/-- A block ends if some allowance is enough for it. -/
theorem Block.ends_iff {b : Block} :
    b.Ends m r m' ↔ ∃ allowance, b.run allowance m = some (r, m') := by
  refine exists_congr fun k => ?_
  have run : b.run k m = (runAll k b.body m.opened).map fun o => (o.1, o.2.closed) := by
    have framed : b.run k = Exec.inFrame (runAll k b.body) := by
      cases b
      rfl
    rw [framed]
    show Exec.inFrame (runAll k b.body) m =
      (runAll k b.body ⟨m.scopes.push, m.feed, m.log⟩).map fun o => (o.1, o.2.closed)
    unfold Exec.inFrame
    rcases runAll k b.body ⟨m.scopes.push, m.feed, m.log⟩ with _ | ⟨r, m₁⟩ <;> rfl
  rw [run, Option.map_eq_some_iff]
  constructor
  · rintro ⟨m₁, ends, rfl⟩
    exact ⟨_, ends, rfl⟩
  · rintro ⟨⟨_, m₁⟩, ends, eq⟩
    cases eq
    exact ⟨m₁, ends, rfl⟩

/-! ### Adding a round in front -/

/-- A loop that ends in its first round. -/
theorem Rounds.single (h : LastRound body c m r m') :
    Rounds body c m 1 (fun i => if i = 0 then m else m') r m' where
  pos := Nat.le_refl 1
  first := rfl
  last := rfl
  goesOn i lt := by omega
  ends := h

/-- One more round in front. -/
theorem Rounds.cons {n : Nat} {ms : Nat → Machine} (h : GoesOn body c m m₁)
    (rest : Rounds body c m₁ n ms r m') :
    Rounds body c m (n + 1) (fun i => if i = 0 then m else ms (i - 1)) r m' where
  pos := Nat.succ_pos n
  first := rfl
  last := rest.last
  goesOn i lt := by
    rcases i with _ | i
    · exact rest.first.symm ▸ h
    · exact rest.goesOn i (Nat.lt_of_succ_lt_succ lt)
  ends := by
    have ne : n ≠ 0 := Nat.ne_of_gt rest.pos
    simpa [ne] using rest.ends

/-- Behind its first round, a loop is one with a round less. -/
theorem Rounds.tail {n : Nat} {ms : Nat → Machine} (h : Rounds body c m (n + 1) ms r m')
    (pos : 1 ≤ n) :
    GoesOn body c m (ms 1) ∧ Rounds body c (ms 1) n (fun i => ms (i + 1)) r m' := by
  have start := h.goesOn 0 (by omega)
  rw [h.first] at start
  refine ⟨start, pos, rfl, h.last, fun i lt => h.goesOn (i + 1) (by omega), ?_⟩
  have same : n - 1 + 1 = n := Nat.sub_add_cancel pos
  show LastRound body c (ms (n - 1 + 1)) r m'
  rw [same]
  exact h.ends

/-! ### Loops and their rounds -/

/-- What has happened when a loop ends: some rounds that were not the last, and the last. -/
theorem ensures_rounds (body : Block) (c : Expr) (span : Span) (allowance : Nat) (m : Machine) :
    Ensures m ((Stmt.loop body c span).run allowance) fun r m' =>
      ∃ m₀, Relation.ReflTransGen (GoesOn body c) m m₀ ∧ LastRound body c m₀ r m' := by
  -- before the condition, the body of the round has ended and does not leave the loop
  refine Ensures.iterate (Relation.ReflTransGen (GoesOn body c) m)
    (fun m₁ => ∃ m₀ flow, Relation.ReflTransGen (GoesOn body c) m m₀ ∧
      body.Ends m₀ (.ok flow) m₁ ∧ flow.Repeats) ?_ ?_ allowance .refl
  · intro m₀ reached r m₁ ends
    have ended := Block.ends_iff.2 ⟨allowance, ends⟩
    rcases r with fault | _ | _ | _
    · exact ⟨m₀, reached, .bodyFails ended⟩
    · exact ⟨m₀, _, reached, ended, trivial⟩
    · exact ⟨m₀, reached, .left ended⟩
    · exact ⟨m₀, _, reached, ended, trivial⟩
  · rintro m₁ ⟨m₀, flow, reached, ended, repeats⟩ r m₂ ends
    rcases r with fault | v
    · exact ⟨m₀, reached, .conditionFails ended repeats ends⟩
    · dsimp only
      split
      · rename_i truthy
        exact reached.tail ⟨flow, m₁, v, ended, repeats, ends, truthy⟩
      · rename_i falsy
        exact ⟨m₀, reached, .falsy ended repeats ends (Bool.eq_false_iff.2 falsy)⟩

/-- Rounds that follow each other up to a last one make a loop. -/
theorem exists_rounds {m₀ : Machine} (reached : Relation.ReflTransGen (GoesOn body c) m m₀)
    (last : LastRound body c m₀ r m') : ∃ n ms, Rounds body c m n ms r m' := by
  induction reached using Relation.ReflTransGen.head_induction_on with
  | refl => exact ⟨1, _, .single last⟩
  | head first _ ih =>
    obtain ⟨n, ms, rest⟩ := ih
    exact ⟨n + 1, _, rest.cons first⟩

/-- A round that does not leave the loop goes on to the condition. -/
theorem iterate_of_repeats {body : Exec Flow} {flow : Flow} (ends : body m = some (.ok flow, m₁))
    (repeats : flow.Repeats) (condition : Exec Value) (k : Nat) :
    Exec.iterate body condition (k + 1) m =
      recheck condition (Exec.iterate body condition k) m₁ := by
  rw [iterate_succ, bind_apply, ends]
  cases flow with
  | completed | again span => rfl
  | leave span => cases repeats

/-- A loop ends by its last round. -/
theorem LastRound.exists_run (h : LastRound body c m r m') (span : Span) :
    ∃ allowance, (Stmt.loop body c span).run allowance m = some (r, m') := by
  -- in all cases the body has ended with some allowance, and one round more is enough for the loop
  have loop : ∀ {k}, Exec.iterate (body.run k) (Exec.eval c) (k + 1) m = some (r, m') →
      ∃ allowance, (Stmt.loop body c span).run allowance m = some (r, m') := fun {k} ends =>
    ⟨k + 1, (body.extends (Nat.le_succ k)).iterate _ (Nat.le_refl _) m _ ends⟩
  cases h with
  | left ended =>
    obtain ⟨k, ends⟩ := Block.ends_iff.1 ended
    refine loop (k := k) ?_
    rw [iterate_succ, bind_apply, ends]
    rfl
  | bodyFails ended =>
    obtain ⟨k, ends⟩ := Block.ends_iff.1 ended
    refine loop (k := k) ?_
    rw [iterate_succ, bind_apply, ends]
  | falsy ended repeats condition falsy =>
    obtain ⟨k, ends⟩ := Block.ends_iff.1 ended
    refine loop (k := k) ?_
    rw [iterate_of_repeats ends repeats, recheck, bind_apply, condition]
    dsimp only
    rw [if_neg (Bool.eq_false_iff.1 falsy)]
    rfl
  | conditionFails ended repeats condition =>
    obtain ⟨k, ends⟩ := Block.ends_iff.1 ended
    refine loop (k := k) ?_
    rw [iterate_of_repeats ends repeats, recheck, bind_apply, condition]

/-- A round that is not the last leaves the rest to the loop. -/
theorem GoesOn.exists_run (h : GoesOn body c m m₁) {span : Span}
    (rest : ∃ allowance, (Stmt.loop body c span).run allowance m₁ = some (r, m')) :
    ∃ allowance, (Stmt.loop body c span).run allowance m = some (r, m') := by
  obtain ⟨flow, mid, v, ended, repeats, condition, truthy⟩ := h
  obtain ⟨j, ends⟩ := Block.ends_iff.1 ended
  obtain ⟨k, ends'⟩ := rest
  -- an allowance for the body and for the rest, and one round more
  have first := body.extends (Nat.le_max_left j k) m _ ends
  have later : Exec.iterate (body.run (max j k)) (Exec.eval c) (max j k) m₁ = some (r, m') :=
    (body.extends (Nat.le_max_right j k)).iterate _ (Nat.le_max_right j k) m₁ _ ends'
  refine ⟨max j k + 1,
    (body.extends (Nat.le_succ _)).iterate (Exec.eval c) (Nat.le_refl _) m _ ?_⟩
  rw [iterate_of_repeats first repeats, recheck, bind_apply, condition]
  dsimp only
  rw [if_pos truthy]
  exact later

/-- A loop of so many rounds ends under some allowance. -/
theorem Rounds.exists_run {n : Nat} {ms : Nat → Machine} (h : Rounds body c m n ms r m')
    (span : Span) : ∃ allowance, (Stmt.loop body c span).run allowance m = some (r, m') := by
  induction n generalizing m ms with
  | zero => exact absurd h.pos (Nat.not_succ_le_zero 0)
  | succ n ih =>
    rcases Nat.eq_zero_or_pos n with rfl | pos
    · have last := h.ends
      rw [Nat.zero_add, Nat.sub_self, h.first] at last
      exact last.exists_run span
    · obtain ⟨first, rest⟩ := h.tail pos
      exact first.exists_run (ih rest)

/-! ### What every round does -/

/-- Every round, the last one also, runs the body once and evaluates the condition behind it or
not. -/
theorem Rounds.round {n : Nat} {ms : Nat → Machine} (h : Rounds body c m n ms r m') {i : Nat}
    (lt : i < n) :
    ∃ r₁ m₁, body.Ends (ms i) r₁ m₁ ∧
      (ms (i + 1) = m₁ ∨ ∃ r₂, Exec.eval c m₁ = some (r₂, ms (i + 1))) := by
  by_cases inner : i + 1 < n
  · obtain ⟨flow, m₁, v, ended, -, condition, -⟩ := h.goesOn i inner
    exact ⟨_, m₁, ended, .inr ⟨_, condition⟩⟩
  · obtain rfl : n = i + 1 := by omega
    have last := h.ends
    rw [Nat.add_sub_cancel, ← h.last] at last
    cases last with
    | left ended | bodyFails ended => exact ⟨_, _, ended, .inl rfl⟩
    | falsy ended _ condition _ | conditionFails ended _ condition =>
      exact ⟨_, _, ended, .inr ⟨_, condition⟩⟩

/-- A block that has ended leaves the frames as they were, but for what it assigns. -/
theorem Block.Ends.evolves {b : Block} (h : b.Ends m r m') :
    m.scopes.Evolves m'.scopes [] b.assigned := by
  obtain ⟨k, ends⟩ := Block.ends_iff.1 h
  exact b.evolves k m r m' ends

/-- Between two rounds only values have changed since the loop was entered. -/
theorem Rounds.evolves {n : Nat} {ms : Nat → Machine} (h : Rounds body c m n ms r m') {i : Nat}
    (le : i ≤ n) : m.scopes.Evolves (ms i).scopes [] body.assigned := by
  induction i with
  | zero => exact .of_eq (congrArg Machine.scopes h.first)
  | succ i ih =>
    obtain ⟨r₁, m₁, ended, after⟩ := h.round le
    have sofar := (ih (Nat.le_of_succ_le le)).trans ended.evolves
    rcases after with eq | ⟨r₂, condition⟩
    · exact eq ▸ sofar
    · exact sofar.trans (.of_eq (scopes_eval c _ _ condition))

/-- A round reads and offers something. -/
theorem Rounds.emits {n : Nat} {ms : Nat → Machine} (h : Rounds body c m n ms r m') {i : Nat}
    (lt : i < n) : ∃ reads lines, (ms i).Emits reads lines (ms (i + 1)) := by
  obtain ⟨r₁, m₁, ended, after⟩ := h.round lt
  obtain ⟨k, ends⟩ := Block.ends_iff.1 ended
  obtain ⟨reads, lines, first⟩ := composes_adds.block k body _ _ _ ends
  rcases after with eq | ⟨r₂, condition⟩
  · exact ⟨reads, lines, eq ▸ first⟩
  · obtain ⟨reads', lines', second⟩ := adds_eval c _ _ _ condition
    exact ⟨_, _, first.trans second⟩

end

/-- What a number of machines in turn read and offer is what each of them does, one after the
other. -/
theorem Machine.Emits.chain {ms : Nat → Machine} {n : Nat} {reads : Nat → Nat}
    {lines : Nat → List String} (h : ∀ i < n, (ms i).Emits (reads i) (lines i) (ms (i + 1))) :
    (ms 0).Emits ((List.range n).map reads).sum ((List.range n).flatMap lines) (ms n) := by
  induction n with
  | zero => exact .of_eq rfl rfl
  | succ n ih =>
    have sofar := ih fun i lt => h i (Nat.lt_succ_of_lt lt)
    rw [List.range_succ, List.map_append, List.sum_append, List.flatMap_append]
    simpa using sofar.trans (h n (Nat.lt_succ_self n))

/-- A loop ends from a machine, by some outcome, iff there are rounds that lead there: each runs the
body once in a fresh frame, from the machine that the round before has left; each but the last goes
on to the condition and finds it truthy; and the last leaves the loop from the body, or finds the
condition falsy, or meets a fault in either of them.

The condition is evaluated, if at all, in the scopes that the body leaves: they are those around the
loop, with the same names visible, and only names that are assigned in the body may have other
values. What the loop reads and offers is what its rounds do, one after the other. -/
theorem loops_run_in_rounds (body : Block) (c : Expr) (span : Span) (m : Machine) :
    (∀ r m', (∃ allowance, (Stmt.loop body c span).run allowance m = some (r, m')) ↔
      ∃ n ms, Rounds body c m n ms r m') ∧
    ∀ n ms r m', Rounds body c m n ms r m' →
      (∀ i < n, ∀ r₁ m₁, body.Ends (ms i) r₁ m₁ →
        m.scopes.Evolves m₁.scopes [] body.assigned ∧
          ∀ x, (m₁.scopes.get? x).isSome = (m.scopes.get? x).isSome) ∧
      ∃ reads lines, (∀ i < n, (ms i).Emits (reads i) (lines i) (ms (i + 1))) ∧
        m.Emits ((List.range n).map reads).sum ((List.range n).flatMap lines) m' := by
  constructor
  · intro r m'
    constructor
    · rintro ⟨allowance, ends⟩
      obtain ⟨m₀, reached, last⟩ := ensures_rounds body c span allowance m r m' ends
      exact exists_rounds reached last
    · rintro ⟨n, ms, rounds⟩
      exact rounds.exists_run span
  · intro n ms r m' rounds
    constructor
    · intro i lt r₁ m₁ ended
      have evolves := (rounds.evolves (Nat.le_of_lt lt)).trans ended.evolves
      exact ⟨evolves, evolves.isSome_get?⟩
    · -- what is read and offered is chosen for every number, and means something below `n`
      have each : ∀ i, ∃ reads lines, i < n → (ms i).Emits reads lines (ms (i + 1)) := by
        intro i
        by_cases lt : i < n
        · obtain ⟨reads, lines, emits⟩ := rounds.emits lt
          exact ⟨reads, lines, fun _ => emits⟩
        · exact ⟨0, [], fun lt' => absurd lt' lt⟩
      choose reads lines emits using each
      refine ⟨reads, lines, emits, ?_⟩
      have whole := Machine.Emits.chain (fun i lt => emits i lt)
      rwa [rounds.first, rounds.last] at whole

end GujaratiScript
