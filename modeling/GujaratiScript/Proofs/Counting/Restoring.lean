import GujaratiScript.Proofs.Counting.Tally

/-!
# Counters are set back

Whatever a reader that counts is given, and whether it succeeds or fails, it has the result of the
reader that is told about levels and loops, it stops where that one stops, and both counters are
afterwards what they were before.

* `Counting.Tracks` : this relation between the two readers, for one nesting and one loop depth;
* `Restores.bind`, `restores_restoring`, `restores_looping` : how it goes through their composition;
* `restores_expression`, `restores_block`, `Part.restores` : all readers of the grammar keep to it.
-/

namespace GujaratiScript

open Reading

namespace Counting

/-! ## Two readers side by side -/

variable {α β : Type}

/-- What came out of reading with counters from `s` is `want`, apart from the counters. The loop
depth is the same, and so is the nesting if it is to be `kept`. -/
structure Follows (kept : Prop) (s : Tally) (out : α × Tally) (want : α × Cursor) : Prop where
  eq : want = (out.1, out.2.cursor)
  led : s.Led out.2
  nesting : kept → out.2.nesting = s.nesting

/-- From nesting `k` and loop depth `d`, the reader `r` follows `q`. -/
def Tracks (kept : Prop) (k d : Nat) (r : Counting α) (q : Reading α) : Prop :=
  ∀ s : Tally, s.nesting = k → s.loopDepth = d → Follows kept s (r s) (q s.cursor)

/-- The reader `r` follows `q`, and the nesting is afterwards what it was before. -/
abbrev Restores (k d : Nat) (r : Counting α) (q : Reading α) : Prop := Tracks True k d r q

/-- The reader `r` follows `q`; the nesting may be another afterwards. -/
abbrev Drifts (k d : Nat) (r : Counting α) (q : Reading α) : Prop := Tracks False k d r q

section

variable {kept : Prop} {k d : Nat} {r : Counting α} {q : Reading α}

/-- Nesting that is set back is also the same where that is not asked for. -/
theorem Restores.tracks (h : Restores k d r q) : Tracks kept k d r q := by
  intro s nesting depth
  have out := h s nesting depth
  exact ⟨out.eq, out.led, fun _ => out.nesting trivial⟩

/-- In sequence, the second reader begins with the counters that the first has set back. -/
theorem Restores.bind {f : α → Counting β} {g : α → Reading β} (first : Restores k d r q)
    (last : ∀ a, Tracks kept k d (f a) (g a)) : Tracks kept k d (r >>= f) (q >>= g) := by
  intro s nesting depth
  have before := first s nesting depth
  have back := before.nesting trivial
  rw [bind_apply, bind_apply, before.eq]
  rcases eq : r s with ⟨fault | a, t⟩
  · rw [eq] at before back
    exact ⟨rfl, before.led, fun _ => back⟩
  · rw [eq] at before back
    have after := last a t (back.trans nesting) (before.led.loopDepth.trans depth)
    exact ⟨after.eq, before.led.trans after.led, fun keep => (after.nesting keep).trans back⟩

/-! ## Basic readers -/

/-- A reader that reads nothing leaves the counters alone. -/
theorem restores_pure (a : α) : Restores k d (pure a) (pure a) :=
  fun s _ _ => ⟨rfl, .refl s, fun _ => rfl⟩

/-- A failure leaves the counters alone. -/
theorem restores_fail (cause : ParseCause) (span : Span) :
    Restores k d (fail cause span : Counting α) (fail cause span) :=
  fun s _ _ => ⟨rfl, .refl s, fun _ => rfl⟩

/-- A look leaves the counters alone. -/
theorem restores_peek : Restores k d peek peek := by
  intro s _ _
  refine ⟨?_, .refl s, fun _ => rfl⟩
  exact congrArg (fun x => (Except.ok x, s.cursor)) s.current_cursor

/-- A look for a token leaves the counters alone. -/
theorem restores_at? (t : Token) : Restores k d (at? t) (at? t) := by
  intro s _ _
  refine ⟨?_, .refl s, fun _ => rfl⟩
  exact congrArg (fun b => (Except.ok b, s.cursor)) (s.at?_cursor t)

/-- Passing over a token leaves the counters alone. -/
theorem restores_step : Restores k d step step := by
  intro s _ _
  refine ⟨?_, s.led_step, fun _ => s.nesting_step⟩
  exact congrArg (Prod.mk (Except.ok ())) s.cursor_step.symm

/-- Taking a token leaves the counters alone. -/
theorem restores_take : Restores k d take take := by
  intro s _ _
  refine ⟨?_, s.led_step, fun _ => s.nesting_step⟩
  show (Except.ok s.cursor.current, s.cursor.step) = (Except.ok s.current, s.step.cursor)
  rw [s.current_cursor, s.cursor_step]

/-- A token that is expected leaves the counters alone, found or not. -/
theorem restores_expect (t : Token) (after : String) :
    Restores k d (expect t after) (expect t after) := by
  apply restores_peek.bind
  intro x
  split
  · exact restores_take
  · exact restores_fail _ _

/-- A name that is expected leaves the counters alone, found or not. -/
theorem restores_expectName : Restores k d expectName expectName := by
  apply restores_peek.bind
  intro x
  rcases x with ⟨t, text, span⟩
  cases t with
  | ident name => exact restores_step.bind fun _ => restores_pure _
  | _ => exact restores_fail _ _

/-! ## Readers that use the counters -/

/-- Looking at a lexeme changes nothing. -/
theorem tracks_peek {f : Lexeme → Counting α} (h : ∀ x, Tracks kept k d (f x) q) :
    Tracks kept k d (peek >>= f) q :=
  fun s => h s.current s

/-- Whether a loop is entered can be told beforehand. -/
theorem tracks_insideLoop {told : Bool} {f : Bool → Counting α}
    (h : Tracks kept k d (f (decide (0 < d))) q) :
    Tracks kept k d (insideLoop told >>= f) q := by
  rintro s nesting rfl
  exact h s nesting rfl

/-- A level deeper, if there is one. -/
theorem drifts_nest (more : k < maxNesting) {n : Nat} {span : Span} {f : Unit → Counting α}
    (h : Drifts (k + 1) d (f ()) q) : Drifts k d (nest n span >>= f) q := by
  rintro s rfl depth
  have deeper := h (s.restoreNesting (s.nesting + 1)) rfl depth
  have went : nest n span s = (.ok (), s.restoreNesting (s.nesting + 1)) :=
    if_neg (Nat.not_le.2 more)
  rw [bind_apply, went]
  have led := (Tally.Led.refl s).restoreNesting (n := s.nesting + 1) (by omega)
  exact ⟨deeper.eq, led.trans deeper.led, nofun⟩

/-- No level is left, and nothing is read. -/
theorem drifts_nest_full (full : maxNesting ≤ k) {n : Nat} (span : Span) (f : Unit → Counting α) :
    Drifts k d (nest n span >>= f) (fail (.nestingTooDeep maxNesting) span) := by
  rintro s rfl depth
  have failed : nest n span s = (.error ⟨.nestingTooDeep maxNesting, span⟩, s) := if_pos full
  rw [bind_apply, failed]
  exact ⟨rfl, .refl s, nofun⟩

/-- Setting the nesting back makes up for any drift. -/
theorem restores_restoring (h : Drifts k d r q) : Restores k d (restoring r) q := by
  intro s nesting depth
  have out := h s nesting depth
  exact ⟨out.eq, out.led.restoreNesting (Nat.le_max_left _ _), fun _ => rfl⟩

/-- Leaving the loop makes up for entering it. -/
theorem restores_looping (h : Restores k (d + 1) r q) : Restores k d (looping r) (looping q) := by
  rintro s nesting rfl
  have out := h s.enterLoop nesting rfl
  refine ⟨out.eq, ?_, out.nesting⟩
  obtain ⟨tokens, place, stop, loopDepth, nestings, faults⟩ := out.led
  exact ⟨tokens, place, stop, congrArg (· - 1) loopDepth, nestings, faults⟩

end

/-! ## Expressions -/

section

variable {k d : Nat}

/-- Blaming a token leaves the counters alone. -/
theorem restores_unexpected (x : Lexeme) :
    Restores k d (unexpected x : Counting α) (unexpected x) := by
  rcases x with ⟨t, text, span⟩
  cases t with
  | eof => exact restores_fail .unexpectedEnd span
  | _ => exact restores_fail (.unexpectedToken text) span

/-- Literals go no level deeper. -/
theorem restores_literal : Restores k d literal literal := by
  apply restores_take.bind
  intro x
  rcases x with ⟨t, text, span⟩
  cases t with
  | int value => exact restores_pure _
  | str value => exact restores_pure _
  | word w => cases w <;> first | exact restores_pure _ | exact restores_unexpected _
  | _ => exact restores_unexpected _

/-- A negation, given the operand. -/
theorem restores_negation {r : Counting Expr} {q : Reading Expr} (h : Restores k d r q) :
    Restores k d (negation r) (negation q) := by
  apply restores_take.bind
  intro x
  rcases x with ⟨t, text, span⟩
  cases t with
  | op o =>
    cases o with
    | subtract => exact h.bind fun _ => restores_pure _
    | _ => exact restores_fail _ _
  | _ => exact restores_fail _ _

variable {r : Tier → Counting Expr} {q : Tier → Reading Expr}

/-- An operation, given the right operand. -/
theorem restores_operation (h : ∀ t, Restores k d (r t) (q t)) (left : Expr) :
    Restores k d (operation r left) (operation q left) := by
  apply restores_take.bind
  intro x
  rcases x with ⟨t, text, span⟩
  cases t with
  | op o => exact (h _).bind fun _ => restores_pure _
  | _ => exact restores_fail _ _

/-- An operand, given the expressions inside it. -/
theorem restores_operand (h : ∀ t, Restores k d (r t) (q t)) :
    Restores k d (operand r) (operand q) := by
  apply restores_peek.bind
  intro x
  rcases x with ⟨t, text, span⟩
  cases t with
  | ident name => exact restores_step.bind fun _ => restores_pure _
  | int value => exact restores_literal
  | str value => exact restores_literal
  | word w =>
    cases w with
    | bhaiChhe => exact restores_literal
    | bhaiNathi => exact restores_literal
    | bapuTameBolo => exact restores_step.bind fun _ => restores_pure _
    | _ => exact restores_unexpected _
  | op o =>
    cases o with
    | subtract => exact restores_negation (h _)
    | _ => exact restores_unexpected _
  | leftParen =>
    exact restores_step.bind fun _ => (h _).bind fun _ =>
      (restores_expect _ _).bind fun _ => restores_pure _
  | _ => exact restores_unexpected _

end

section

variable {k d : Nat} (n : Nat) (tier : Tier)

/-- With no level left, neither reader reads an expression. -/
theorem restores_expression_full (full : maxNesting ≤ k) :
    Restores k d (expression n tier) (expression (maxNesting - k) tier) := by
  rw [Nat.sub_eq_zero_of_le full, expression_zero]
  unfold expression
  exact restores_restoring (restores_peek.bind fun x => drifts_nest_full full x.span _)

/-- With no level left, neither reader goes on with a chain. -/
theorem drifts_chain_full (full : maxNesting ≤ k) (left : Expr) :
    Drifts k d (chain n tier left) (chain (maxNesting - k) tier left) := by
  rw [Nat.sub_eq_zero_of_le full, chain_zero]
  unfold chain
  apply restores_peek.bind
  intro x
  split
  · exact drifts_nest_full full x.span _
  · exact (restores_pure left).tracks

end

/-- Expressions and the chains in them, by induction on a bound of the levels that are left. The
links of a chain drift, and the expression around them sets back. -/
theorem restores_expression_chain {k n : Nat} (d : Nat) (enough : maxNesting - k ≤ n) :
    (∀ tier, Restores k d (expression n tier)
      (expression (maxNesting - k) tier)) ∧
    ∀ tier left, Drifts k d (chain n tier left)
      (chain (maxNesting - k) tier left) := by
  induction n generalizing k with
  | zero =>
    have full : maxNesting ≤ k := Nat.le_of_sub_eq_zero (Nat.le_zero.1 enough)
    exact ⟨fun tier => restores_expression_full 0 tier full,
      fun tier left => drifts_chain_full 0 tier full left⟩
  | succ n ih =>
    rcases Nat.lt_or_ge k maxNesting with more | full
    · have levels : maxNesting - k = maxNesting - (k + 1) + 1 := by omega
      obtain ⟨inner, links⟩ := ih (k := k + 1) (by omega)
      rw [levels]
      refine ⟨fun tier => ?_, fun tier left => ?_⟩
      · rw [expression_succ]
        show Restores k d (restoring do
          let x ← peek
          nest (n + 1) x.span
          let left ← operand (expression n)
          chain n tier left) _
        apply restores_restoring
        apply tracks_peek
        intro x
        apply drifts_nest more
        exact (restores_operand inner).bind fun left => links tier left
      · rw [chain_succ]
        show Drifts k d (do
          let x ← peek
          if tier < x.token.tier then
            nest (n + 1) x.span
            let e ← operation (expression n) left
            chain n tier e
          else pure left) _
        apply restores_peek.bind
        intro x
        split
        · apply drifts_nest more
          exact (restores_operation inner left).bind fun e => links tier e
        · exact (restores_pure left).tracks
    · exact ⟨fun tier => restores_expression_full _ tier full,
        fun tier left => drifts_chain_full _ tier full left⟩

/-- Expressions, from any nesting for which the bound of the recursion is enough. -/
theorem restores_expression {k n : Nat} (d : Nat) (enough : maxNesting - k ≤ n) (tier : Tier) :
    Restores k d (expression n tier) (expression (maxNesting - k) tier) :=
  (restores_expression_chain d enough).1 tier

/-! ## Statements -/

section

variable {k d n : Nat} (enough : maxNesting - k ≤ n)

include enough

/-- A print statement is as deep as its expression. -/
theorem restores_printing :
    Restores k d (printing n) (printing (maxNesting - k)) :=
  restores_take.bind fun _ => (restores_expression d enough .lowest).bind fun _ => restores_pure _

/-- A declaration is as deep as its expression. -/
theorem restores_declaration :
    Restores k d (declaration n) (declaration (maxNesting - k)) :=
  restores_take.bind fun _ => restores_expectName.bind fun _ => (restores_expect _ _).bind fun _ =>
    (restores_expression d enough .lowest).bind fun _ => restores_pure _

/-- An assignment is as deep as its expression. -/
theorem restores_assignment :
    Restores k d (assignment n) (assignment (maxNesting - k)) :=
  restores_expectName.bind fun _ => (restores_expect _ _).bind fun _ =>
    (restores_expression d enough .lowest).bind fun _ => restores_pure _

/-- A conditional, given its blocks. -/
theorem restores_conditional {r : String → Counting Block} {q : String → Reading Block}
    (h : ∀ after, Restores k d (r after) (q after)) :
    Restores k d (conditional n r) (conditional (maxNesting - k) q) := by
  refine restores_take.bind fun _ => (restores_expression d enough .lowest).bind fun _ =>
    (h _).bind fun _ => (restores_at? _).bind fun other => ?_
  cases other
  · exact restores_pure _
  · exact restores_step.bind fun _ => (h _).bind fun _ => restores_pure _

/-- A loop: its block is read one loop deeper, its condition is not. -/
theorem restores_repetition {r : String → Counting Block} {q : String → Reading Block}
    (h : ∀ after, Restores k (d + 1) (r after) (q after)) :
    Restores k d (repetition n r) (repetition (maxNesting - k) q) :=
  restores_take.bind fun _ => (restores_looping (h _)).bind fun _ =>
    (restores_expect _ _).bind fun _ => (restores_expression d enough .lowest).bind fun _ =>
      restores_pure _

omit enough in
/-- A loop control is refused by the counter just where it is by what is told. -/
theorem restores_control (told : Bool) (x : Lexeme) (s : Stmt) :
    Restores k d (control told x s) (control (decide (0 < d)) x s) := by
  rw [control_eq]
  apply tracks_insideLoop
  split
  · exact restores_step.bind fun _ => restores_pure _
  · exact restores_fail _ _

/-- Statements, given the blocks inside them at every loop depth. -/
theorem restores_statement (told : Bool) {r : Bool → String → Counting Block}
    {q : Bool → String → Reading Block}
    (h : ∀ b d after, Restores k d (r b after) (q (decide (0 < d)) after)) :
    Restores k d (statement n told r)
      (statement (maxNesting - k) (decide (0 < d)) q) := by
  apply restores_peek.bind
  intro x
  rcases x with ⟨t, text, span⟩
  cases t with
  | word w =>
    cases w with
    | bhaiBol => exact restores_printing enough
    | aa => exact restores_declaration enough
    | jo => exact restores_conditional enough (h told d)
    | farvu => exact restores_repetition enough fun after => h true (d + 1) after
    | tameJao => exact restores_control _ _ _
    | aagalVado => exact restores_control _ _ _
    | _ => exact restores_unexpected _
  | leftBrace => exact (h told d _).bind fun _ => restores_pure _
  | ident name => exact restores_assignment enough
  | _ => exact restores_unexpected _

end

/-! ## Sequences -/

section

variable {k d : Nat} {r : Counting Stmt} {q : Reading Stmt}

/-- A fault is reported and skipped with the counters that were set back before. -/
theorem follows_attempt (h : Restores k d r q) {s : Tally} (nesting : s.nesting = k)
    (depth : s.loopDepth = d) : Follows True s (attempt r s) (attempt q s.cursor) := by
  have out := h s nesting depth
  have back := out.nesting trivial
  have eq := out.eq
  rcases found : r s with ⟨fault | x, t⟩
  · rw [found] at out back eq
    rw [attempt_of_eq_error found, attempt_of_eq_error (s := s.cursor) eq]
    have led := out.led.trans (t.led_report fault)
    refine ⟨?_, led.trans ((t.report fault).led_recover s.place), fun _ => ?_⟩
    · exact congrArg (Prod.mk none) (Tally.cursor_recover led).symm
    · exact ((t.report fault).nesting_recover s.place).trans back
  · rw [found] at out back eq
    rw [attempt_of_eq_ok found, attempt_of_eq_ok (s := s.cursor) eq]
    exact ⟨rfl, out.led, fun _ => back⟩

/-- Statement after statement, each from the counters that the last one set back. -/
theorem follows_statements (h : Restores k d r q) (ends : Token → Bool) (read : List Stmt)
    {s : Tally} (nesting : s.nesting = k) (depth : s.loopDepth = d) :
    Follows True s (statements ends r read s) (statements ends q read s.cursor) := by
  -- the sequence has stopped, goes on, or met an attempt that took nothing
  fun_induction statements ends r read s with
  | case1 read s stops =>
    refine ⟨?_, .refl s, fun _ => rfl⟩
    rw [statements_eq, Tally.current_cursor]
    exact if_pos stops
  | case2 read s goes x t eq read' took ih =>
    have step := follows_attempt h nesting depth
    rw [eq] at step
    have back := step.nesting trivial
    have rest := ih (back.trans nesting) (step.led.loopDepth.trans depth)
    refine ⟨?_, step.led.trans rest.led, fun _ => (rest.nesting trivial).trans back⟩
    rw [statements_eq, Tally.current_cursor, step.eq]
    dsimp only
    rw [if_neg (show ¬ ends s.current.token = true from goes),
      if_pos (step.led.left_lt_iff.1 took), rest.eq]
  | case3 read s goes x t eq read' none =>
    have step := follows_attempt h nesting depth
    rw [eq] at step
    refine ⟨?_, step.led, step.nesting⟩
    rw [statements_eq, Tally.current_cursor, step.eq]
    dsimp only
    rw [if_neg (show ¬ ends s.current.token = true from goes),
      if_neg fun lt => none (step.led.left_lt_iff.2 lt)]

/-- Statements in sequence, given the single one. -/
theorem restores_sequence (h : Restores k d r q) (ends : Token → Bool) :
    Restores k d (sequence ends r) (sequence ends q) := by
  intro s nesting depth
  have out := follows_statements h ends [] nesting depth
  refine ⟨?_, out.led, out.nesting⟩
  rw [sequence, out.eq]
  rfl

end

/-- With no level left, neither reader reads a block. -/
theorem restores_block_full {k d : Nat} (full : maxNesting ≤ k) (n : Nat) (told : Bool)
    (after : String) :
    Restores k d (block n told after) (block (maxNesting - k) (decide (0 < d)) after) := by
  rw [Nat.sub_eq_zero_of_le full, block_zero]
  unfold block
  exact restores_restoring (restores_peek.bind fun x => drifts_nest_full full x.span _)

/-- Blocks, by induction on a bound of the levels that are left. -/
theorem restores_block {k n : Nat} (enough : maxNesting - k ≤ n) (told : Bool) (d : Nat)
    (after : String) :
    Restores k d (block n told after) (block (maxNesting - k) (decide (0 < d)) after) := by
  induction n generalizing k told d after with
  | zero => exact restores_block_full (Nat.le_of_sub_eq_zero (Nat.le_zero.1 enough)) 0 told after
  | succ n ih =>
    rcases Nat.lt_or_ge k maxNesting with more | full
    · have levels : maxNesting - k = maxNesting - (k + 1) + 1 := by omega
      have enough' : maxNesting - (k + 1) ≤ n := by omega
      have inner := restores_statement (d := d) enough' told (ih enough')
      rw [levels, block_succ]
      unfold block
      apply restores_restoring
      apply tracks_peek
      intro x
      apply drifts_nest more
      apply (restores_expect _ _).bind
      intro first
      apply (restores_sequence inner _).bind
      intro body
      exact (restores_expect _ _).bind fun last => (restores_pure _).tracks
    · exact restores_block_full full _ told after

/-- A whole program, also one that is read inside loops. -/
theorem restores_program {k n : Nat} (d : Nat) (enough : maxNesting - k ≤ n) (told : Bool) :
    Restores k d (program n told) (program (maxNesting - k) (decide (0 < d))) := by
  have inner := restores_statement (d := d) enough told (restores_block enough)
  apply restores_peek.bind
  intro first
  split
  · apply restores_step.bind
    intro _
    apply (restores_sequence inner _).bind
    intro body
    apply restores_peek.bind
    intro last
    split
    · exact restores_step.bind fun _ => restores_pure _
    · exact restores_fail _ _
  · exact restores_fail _ _

end Counting

/-! ## Parts -/

/-- What can be read from any place on: each kind of node, and a statement whose fault is reported
and skipped. -/
inductive Part where
  | program
  | statement
  | printing
  | declaration
  | assignment
  | conditional
  | repetition
  | block (after : String)
  | expression (tier : Tier)
  | negation
  | literal
  | operation (left : Expr)
  | attempt

namespace Part

/-- What a part is read as. -/
abbrev Node : Part → Type
  | program => Program
  | statement | printing | declaration | assignment | conditional | repetition => Stmt
  | block _ => Block
  | expression _ | negation | literal | operation _ => Expr
  | attempt => Option Stmt

variable {σ : Type} [Site σ] (levels : Nat) (inLoop : Bool)

/-- The reader of a part, told how many levels are left and whether it is in a loop. -/
def reader : (p : Part) → ReadingFrom σ p.Node
  | program => GujaratiScript.program levels inLoop
  | statement => GujaratiScript.statement levels inLoop (GujaratiScript.block levels)
  | printing => GujaratiScript.printing levels
  | declaration => GujaratiScript.declaration levels
  | assignment => GujaratiScript.assignment levels
  | conditional => GujaratiScript.conditional levels (GujaratiScript.block levels inLoop)
  | repetition => GujaratiScript.repetition levels (GujaratiScript.block levels true)
  | block after => GujaratiScript.block levels inLoop after
  | expression tier => GujaratiScript.expression levels tier
  | negation => GujaratiScript.negation (GujaratiScript.expression levels .negation)
  | literal => GujaratiScript.literal
  | operation left => GujaratiScript.operation (GujaratiScript.expression levels) left
  | attempt => fun s =>
    let (x, t) :=
      GujaratiScript.attempt
        (GujaratiScript.statement levels inLoop (GujaratiScript.block levels)) s
    (.ok x, t)

/-- The reader of a part from a cursor. -/
def reading (p : Part) : Reading p.Node := p.reader levels inLoop

/-- The reader of a part that counts, and has to be told nothing. -/
def counting (p : Part) : Counting p.Node := p.reader maxNesting false

end Part

open Counting

/-- Whatever is read, from whatever tally: the reader with counters follows the reader that is told
how many levels are left and whether it is in a loop, and sets its counters back. -/
theorem Part.restores (p : Part) (k d : Nat) :
    Restores k d p.counting (p.reading (maxNesting - k) (decide (0 < d))) := by
  have enough : maxNesting - k ≤ maxNesting := Nat.sub_le _ _
  have inner := restores_block enough
  have value := restores_expression d enough
  cases p with
  | program => exact restores_program d enough false
  | statement => exact restores_statement enough false inner
  | printing => exact restores_printing enough
  | declaration => exact restores_declaration enough
  | assignment => exact restores_assignment enough
  | conditional => exact restores_conditional enough (inner false d)
  | repetition => exact restores_repetition enough (inner true (d + 1))
  | block after => exact inner false d after
  | expression tier => exact value tier
  | negation => exact restores_negation (value .negation)
  | literal => exact restores_literal
  | operation left => exact restores_operation value left
  | attempt =>
    intro s nesting depth
    have out := follows_attempt (restores_statement enough false inner) nesting depth
    refine ⟨?_, out.led, out.nesting⟩
    unfold Part.reading Part.reader
    dsimp only
    rw [out.eq]
    rfl

end GujaratiScript
