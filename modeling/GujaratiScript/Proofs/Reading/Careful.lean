import GujaratiScript.Proofs.Reading.Built
import GujaratiScript.Proofs.Grammar.Basic

/-!
# Readers that look before they take

A reader of the grammar takes a token only after a look at it, gives up without taking the one that
it blames, and has taken one when it gives a result. What a reader does that is so careful can be
followed from where it starts, step by step.

* `Reading.Careful` : a reader that is careful when it starts from a given state;
* `careful_expression`, `careful_statement`, `careful_block`, `careful_program` : the readers of the
  grammar are.

Some readers take a token before they look at it (`literal`, `negation`, `operation`). They are
entered only where that token is the one they are for, so that their own fault cannot arise.
-/

namespace GujaratiScript

/-- Whether a token is neither the first of a statement nor a brace nor the last fence. -/
def Token.isPlain (t : Token) : Bool :=
  !(t.opensStatement || t == .leftBrace || t == .rightBrace || t == .word .aavjoBhai)

namespace Reading

variable {σ : Type} [Site σ]

/-- The reader `r` is careful from the state `s`: `may` holds of each token that it takes, its fault
blames the token where it stops, and it gives no result before a token is taken, unless one was
`taken` before. A sequence may take any token but an end mark, and its statements are careful from
everywhere. -/
inductive Careful (may : Token → Prop) : {α : Type} → Prop → σ → ReadingFrom σ α → Prop
  | pure {α : Type} {taken : Prop} {s : σ} (a : α) : taken → Careful may taken s (pure a)
  | fail {α : Type} {taken : Prop} {s : σ} (cause : ParseCause) :
      Careful may taken s (fail cause (Site.current s).span : ReadingFrom σ α)
  | take {taken : Prop} {s : σ} : may (Site.current s).token → Careful may taken s take
  | take_bind {β : Type} {taken : Prop} {s : σ} {f : Lexeme → ReadingFrom σ β} :
      may (Site.current s).token → Careful may True (Site.step s) (f (Site.current s)) →
      Careful may taken s (Reading.take >>= f)
  | step_bind {β : Type} {taken : Prop} {s : σ} {f : Unit → ReadingFrom σ β} :
      may (Site.current s).token → Careful may True (Site.step s) (f ()) →
      Careful may taken s (step >>= f)
  | peek_bind {β : Type} {taken : Prop} {s : σ} {f : Lexeme → ReadingFrom σ β} :
      Careful may taken s (f (Site.current s)) → Careful may taken s (peek >>= f)
  | at?_bind {β : Type} {taken : Prop} {s : σ} {f : Bool → ReadingFrom σ β} (t : Token) :
      Careful may taken s (f ((Site.current s).token == t)) → Careful may taken s (at? t >>= f)
  | insideLoop_bind {β : Type} {taken : Prop} {s : σ} {f : Bool → ReadingFrom σ β} (told : Bool) :
      Careful may taken s (f (Site.insideLoop told s)) →
      Careful may taken s (insideLoop told >>= f)
  | nest_bind {β : Type} {taken : Prop} {s : σ} {f : Unit → ReadingFrom σ β} (levels : Nat) :
      (∀ t, Site.current t = Site.current s → Careful may taken t (f ())) →
      Careful may taken s (nest levels (Site.current s).span >>= f)
  | restoring {α : Type} {taken : Prop} {s : σ} {r : ReadingFrom σ α} :
      Careful may taken s r → Careful may taken s (restoring r)
  | looping {α : Type} {taken : Prop} {s : σ} {r : ReadingFrom σ α} :
      Careful may taken (Site.enterLoop s) r → Careful may taken s (looping r)
  | bind {α β : Type} {taken : Prop} {s : σ} {r : ReadingFrom σ α} {f : α → ReadingFrom σ β} :
      Careful may taken s r → (∀ a t, Careful may True t (f a)) → Careful may taken s (r >>= f)
  | sequence {taken : Prop} {s : σ} {ends : Token → Bool} {r : ReadingFrom σ Stmt} :
      taken → (∀ t, t ≠ .eof → may t) → ends .eof = true → (∀ t, Careful may False t r) →
      Careful may taken s (sequence ends r)

variable {may : Token → Prop} {taken : Prop} {s : σ}

/-- A token that is expected is taken only where it is there. -/
theorem careful_expect {t : Token} (allowed : may t) (after : String) :
    Careful may taken s (expect t after) := by
  apply Careful.peek_bind
  split
  · rename_i here
    exact .take (beq_iff_eq.1 here ▸ allowed)
  · exact .fail _

/-- An unexpected token is blamed and left where it is. -/
theorem careful_unexpected {α : Type} :
    Careful may taken s (unexpected (Site.current s) : ReadingFrom σ α) := by
  unfold unexpected
  split <;> exact .fail _

/-! ## Expressions -/

section

variable (plain : ∀ t : Token, t.isPlain = true → t ≠ .eof → may t)

include plain

/-- A name is taken only where it is there. -/
theorem careful_expectName : Careful may taken s expectName := by
  apply Careful.peek_bind
  cases eq : (Site.current s).token with
  | ident name => exact .step_bind (eq ▸ plain _ rfl Token.noConfusion) (.pure _ trivial)
  | _ => exact .fail _

/-- A token that is a literal is read as one. -/
theorem careful_literal (h : (∃ v, (Site.current s).token = .int v) ∨
    (∃ v, (Site.current s).token = .str v) ∨ (Site.current s).token = .word .bhaiChhe ∨
    (Site.current s).token = .word .bhaiNathi) : Careful may taken s literal := by
  rcases h with ⟨v, eq⟩ | ⟨v, eq⟩ | eq | eq
  all_goals
    refine .take_bind (eq ▸ plain _ rfl Token.noConfusion) ?_
    simp only [eq]
    exact .pure _ trivial

/-- A negation is entered at its sign, which it takes. -/
theorem careful_negation {r : ReadingFrom σ Expr} (h : ∀ s, Careful may True s r)
    (eq : (Site.current s).token = .op .subtract) : Careful may taken s (negation r) := by
  refine .take_bind (eq ▸ plain _ rfl Token.noConfusion) ?_
  simp only [eq]
  exact (h _).bind fun _ _ => .pure _ trivial

section

variable {r : Tier → ReadingFrom σ Expr} (h : ∀ t s, Careful may True s (r t))

include h

/-- An operation is entered at its operator, which it takes. -/
theorem careful_operation {o : Operator} (eq : (Site.current s).token = .op o) (left : Expr) :
    Careful may taken s (operation r left) := by
  refine .take_bind (eq ▸ plain _ rfl Token.noConfusion) ?_
  simp only [eq]
  exact (h _ _).bind fun _ _ => .pure _ trivial

/-- An operand, given the expressions inside it. -/
theorem careful_operand : Careful may taken s (operand r) := by
  apply Careful.peek_bind
  cases eq : (Site.current s).token with
  | ident name => exact .step_bind (eq ▸ plain _ rfl Token.noConfusion) (.pure _ trivial)
  | int v => exact careful_literal plain (.inl ⟨v, eq⟩)
  | str v => exact careful_literal plain (.inr (.inl ⟨v, eq⟩))
  | word k =>
    cases k with
    | bhaiChhe => exact careful_literal plain (.inr (.inr (.inl eq)))
    | bhaiNathi => exact careful_literal plain (.inr (.inr (.inr eq)))
    | bapuTameBolo =>
      exact .step_bind (eq ▸ plain _ rfl Token.noConfusion) (.pure _ trivial)
    | _ => exact careful_unexpected
  | op o =>
    cases o with
    | subtract => exact careful_negation plain (h _) eq
    | _ => exact careful_unexpected
  | leftParen =>
    exact .step_bind (eq ▸ plain _ rfl Token.noConfusion) ((h _ _).bind fun _ _ =>
      (careful_expect (plain _ rfl Token.noConfusion) _).bind fun _ _ => .pure _ trivial)
  | _ => exact careful_unexpected

end

/-- Expressions and the chains in them, by induction on the bound of the levels. -/
theorem careful_expression_chain (n : Nat) :
    (∀ tier (taken : Prop) (s : σ), Careful may taken s (expression n tier)) ∧
      ∀ tier left (s : σ), Careful may True s (chain n tier left) := by
  -- a chain that goes on stands at an operator
  have operator {s : σ} {tier : Tier} (lt : tier < (Site.current s).token.tier) :
      ∃ o, (Site.current s).token = .op o :=
    (Token.lowest_lt_tier_iff _).1 (Nat.lt_of_le_of_lt (Tier.lowest_le tier) lt)
  induction n with
  | zero =>
    refine ⟨fun tier taken s => ?_, fun tier left s => ?_⟩
    · unfold expression
      refine .restoring (.peek_bind (.nest_bind _ fun t same => ?_))
      rw [← same]
      exact careful_unexpected
    · unfold chain
      apply Careful.peek_bind
      split
      · refine .nest_bind _ fun t same => ?_
        rw [← same]
        exact careful_unexpected
      · exact .pure _ trivial
  | succ n ih =>
    refine ⟨fun tier taken s => ?_, fun tier left s => ?_⟩
    · unfold expression
      exact .restoring (.peek_bind (.nest_bind _ fun t _ =>
        (careful_operand plain fun t => ih.1 t True).bind fun left u => ih.2 tier left u))
    · unfold chain
      apply Careful.peek_bind
      split
      · rename_i lt
        obtain ⟨o, found⟩ := operator lt
        refine .nest_bind _ fun t same => ?_
        rw [← same] at found
        exact (careful_operation plain (fun t => ih.1 t True) found left).bind fun e u =>
          ih.2 tier e u
      · exact .pure _ trivial

/-- Expressions of every tier, under every bound of the levels. -/
theorem careful_expression (n : Nat) (tier : Tier) : Careful may taken s (expression n tier) :=
  (careful_expression_chain plain n).1 tier taken s

end

/-! ## Statements -/

section

variable (any : ∀ t : Token, t ≠ .eof → may t) {n : Nat} {inLoop : Bool}

include any

/-- A print statement is entered at its keyword, so not at the end. -/
theorem careful_printing (more : (Site.current s).token ≠ .eof) :
    Careful may taken s (printing n) :=
  .take_bind (any _ more)
    ((careful_expression (fun t _ => any t) n _).bind fun _ _ => .pure _ trivial)

/-- A declaration is entered at its keyword, so not at the end. -/
theorem careful_declaration (more : (Site.current s).token ≠ .eof) :
    Careful may taken s (declaration n) :=
  .take_bind (any _ more) ((careful_expectName fun t _ => any t).bind fun _ _ =>
    (careful_expect (any _ Token.noConfusion) _).bind fun _ _ =>
      (careful_expression (fun t _ => any t) n _).bind fun _ _ => .pure _ trivial)

/-- An assignment looks at its name before it takes it. -/
theorem careful_assignment : Careful may taken s (assignment n) :=
  (careful_expectName fun t _ => any t).bind fun _ _ =>
    (careful_expect (any _ Token.noConfusion) _).bind fun _ _ =>
      (careful_expression (fun t _ => any t) n _).bind fun _ _ => .pure _ trivial

/-- A loop control is taken inside a loop and blamed outside one. -/
theorem careful_control (more : (Site.current s).token ≠ .eof) (x : Stmt) :
    Careful may taken s (control inLoop (Site.current s) x) := by
  apply Careful.insideLoop_bind
  split
  · exact .step_bind (any _ more) (.pure _ trivial)
  · exact .fail _

section

variable {r : String → ReadingFrom σ Block} (h : ∀ after s, Careful may True s (r after))

include h

/-- A conditional, given its blocks. -/
theorem careful_conditional (more : (Site.current s).token ≠ .eof) :
    Careful may taken s (conditional n r) := by
  refine .take_bind (any _ more) ((careful_expression (fun t _ => any t) n _).bind fun _ _ =>
    (h _ _).bind fun _ t => .at?_bind _ ?_)
  split
  · rename_i here
    refine .step_bind (any _ ?_) ((h _ _).bind fun _ _ => .pure _ trivial)
    rw [beq_iff_eq.1 here]
    exact Token.noConfusion
  · exact .pure _ trivial

/-- A loop, given its block. -/
theorem careful_repetition (more : (Site.current s).token ≠ .eof) :
    Careful may taken s (repetition n r) :=
  .take_bind (any _ more) ((Careful.looping (h _ _)).bind fun _ _ =>
    (careful_expect (any _ Token.noConfusion) _).bind fun _ _ =>
      (careful_expression (fun t _ => any t) n _).bind fun _ _ => .pure _ trivial)

end

/-- Statements, given the blocks inside them. -/
theorem careful_statement {r : Bool → String → ReadingFrom σ Block}
    (h : ∀ b after (taken : Prop) s, Careful may taken s (r b after)) :
    Careful may taken s (statement n inLoop r) := by
  apply Careful.peek_bind
  split
  · rename_i here
    exact careful_printing any (here ▸ Token.noConfusion)
  · rename_i here
    exact careful_declaration any (here ▸ Token.noConfusion)
  · rename_i here
    exact careful_conditional any (fun after => h _ after True) (here ▸ Token.noConfusion)
  · rename_i here
    exact careful_repetition any (fun after => h _ after True) (here ▸ Token.noConfusion)
  · rename_i here
    exact careful_control any (here ▸ Token.noConfusion) _
  · rename_i here
    exact careful_control any (here ▸ Token.noConfusion) _
  · exact (h _ _ _ _).bind fun _ _ => .pure _ trivial
  · exact careful_assignment any
  · exact careful_unexpected

/-- Blocks, by induction on the bound of the levels. -/
theorem careful_block (n : Nat) (inLoop : Bool) (after : String) (taken : Prop) (s : σ) :
    Careful may taken s (block n inLoop after) := by
  induction n generalizing inLoop after taken s with
  | zero =>
    unfold block
    refine .restoring (.peek_bind (.nest_bind _ fun t same => ?_))
    rw [← same]
    exact careful_unexpected
  | succ n ih =>
    unfold block
    exact .restoring (.peek_bind (.nest_bind _ fun t _ =>
      (careful_expect (any _ Token.noConfusion) _).bind fun _ _ =>
        (Careful.sequence trivial any rfl fun _ => careful_statement any ih).bind fun _ _ =>
          (careful_expect (any _ Token.noConfusion) _).bind fun _ _ => .pure _ trivial))

/-- A program takes nothing before it has seen the first fence. -/
theorem careful_program (n : Nat) : Careful may taken s (program n inLoop) := by
  apply Careful.peek_bind
  split
  · rename_i here
    refine .step_bind (any _ ?_) ((Careful.sequence trivial any rfl fun _ =>
      careful_statement any (careful_block any n)).bind fun _ t => .peek_bind ?_)
    · rw [beq_iff_eq.1 here]
      exact Token.noConfusion
    · split
      · rename_i last
        refine .step_bind (any _ ?_) (.pure _ trivial)
        rw [beq_iff_eq.1 last]
        exact Token.noConfusion
      · exact .fail _
  · exact .fail _

end

end Reading

end GujaratiScript
