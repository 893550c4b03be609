import GujaratiScript.Tree.Parser

/-!
# How readers are put together

Every reader of the grammar is put together from a few basic ones, in the same way over every kind
of state. So what the basic readers keep to is kept to by all, and is to be shown for those alone.

* `Reading.Built` : two readers that are put together alike, over states of two kinds;
* `built_expression`, `built_statement`, `built_block`, `built_program` : so is each reader of the
  grammar with itself;
* `Reading.Matching` : a relation between states of two kinds that the basic readers keep to;
* `Built.matches` : then all readers do.

A reader makes no span of its own: every span is that of a lexeme or reaches from one such span to
another. `Built` says this of the results (`Expr.spans` are all spans of an expression), and that no
other spans are blamed.
-/

namespace GujaratiScript

/-! ## The spans of a tree -/

/-- The spans of all nodes of an expression, and of its names and operators. -/
def Expr.spans : Expr → List Span
  | int _ span | str _ span | bool _ span | input span => [span]
  | var ident => [ident.span]
  | negate e span => span :: e.spans
  | binary _ l r operatorSpan span => span :: operatorSpan :: (l.spans ++ r.spans)

mutual

/-- The spans of all nodes of a statement, and of its names and operators. -/
def Stmt.spans : Stmt → List Span
  | .print e span => span :: e.spans
  | .declare ident e span | .assign ident e span => span :: ident.span :: e.spans
  | .branch c yes none span => span :: (c.spans ++ yes.spans)
  | .branch c yes (some no) span => span :: (c.spans ++ (yes.spans ++ no.spans))
  | .loop body c span => span :: (body.spans ++ c.spans)
  | .leave span | .again span => [span]
  | .block b => b.spans
termination_by structural s => s

/-- The spans of a block and of all nodes in it. -/
def Block.spans : Block → List Span
  | ⟨body, span⟩ => span :: allSpans body
termination_by structural b => b

/-- The spans of all nodes of statements in sequence. -/
def allSpans : List Stmt → List Span
  | [] => []
  | s :: rest => s.spans ++ allSpans rest
termination_by structural l => l

end

/-- The spans of a program and of all its nodes. -/
def Program.spans (p : Program) : List Span := p.span :: allSpans p.body

/-- An expression's own span is one of its spans. -/
theorem Expr.span_mem_spans (e : Expr) : e.span ∈ e.spans := by
  cases e <;> exact List.mem_cons_self

/-- A block's own span is one of its spans. -/
theorem Block.span_mem_spans (b : Block) : b.span ∈ b.spans := by
  cases b
  exact List.mem_cons_self

/-- The spans of statements in sequence are those of the single ones. -/
theorem forall_mem_allSpans {P : Span → Prop} {body : List Stmt}
    (h : ∀ s ∈ body, ∀ t ∈ s.spans, P t) : ∀ t ∈ allSpans body, P t := by
  induction body with
  | nil => exact List.forall_mem_nil _
  | cons s rest ih =>
    obtain ⟨hs, hrest⟩ := List.forall_mem_cons.1 h
    exact List.forall_mem_append.2 ⟨hs, ih hrest⟩

/-- A condition holds of a span that reaches from one span to another if it holds of both. -/
def ClosedUnderUpTo (P : Span → Prop) : Prop := ∀ s t, P s → P t → P (s.upTo t)

/-- Where nothing is asked of spans, there is nothing to show of joined ones. -/
theorem closedUnderUpTo_true : ClosedUnderUpTo fun _ => True := fun _ _ _ _ => trivial

namespace Reading

/-! ## Readers in sequence -/

section

variable {σ α β : Type}

/-- Reading in sequence: a fault of the first reader ends the reading. -/
theorem bind_apply (x : ReadingFrom σ α) (f : α → ReadingFrom σ β) (s : σ) :
    (x >>= f) s =
      match x s with
      | (.ok a, t) => f a t
      | (.error fault, t) => (.error fault, t) := by
  show ExceptT.bindCont f (x s).1 (x s).2 = _
  rcases x s with ⟨fault | a, t⟩ <;> rfl

/-- Reading in sequence gives a result iff both readers do. -/
theorem bind_eq_ok_iff {x : ReadingFrom σ α} {f : α → ReadingFrom σ β} {s t : σ} {b : β} :
    (x >>= f) s = (.ok b, t) ↔ ∃ a u, x s = (.ok a, u) ∧ f a u = (.ok b, t) := by
  rw [bind_apply]
  rcases x s with ⟨fault | a, u⟩
  · constructor
    · intro h
      cases h
    · rintro ⟨a, u, h, -⟩
      cases h
  · constructor
    · intro h
      exact ⟨a, u, rfl, h⟩
    · rintro ⟨a', u', h, h'⟩
      cases h
      exact h'

/-- After a result of the first reader, the second goes on. -/
theorem bind_eq_of_eq_ok {x : ReadingFrom σ α} {f : α → ReadingFrom σ β} {s t : σ} {a : α}
    (h : x s = (.ok a, t)) : (x >>= f) s = f a t := by
  rw [bind_apply, h]

end

variable {σ τ : Type} [Site σ] [Site τ]

section

variable {r : ReadingFrom σ Stmt} {s t : σ}

/-- A statement that can be read is the outcome of its trial. -/
theorem attempt_of_eq_ok {x : Stmt} (h : r (Site.trial s) = (.ok x, t)) :
    attempt r s = (some x, t) := by
  unfold attempt
  rw [h]

/-- After a fault it is reported and reading goes on behind it. -/
theorem attempt_of_eq_error {fault : ParseFault} (h : r (Site.trial s) = (.error fault, t)) :
    attempt r s = (none, Site.resume s fault t) := by
  unfold attempt
  rw [h]

end

/-! ## Readers that are put together alike -/

/-- The readers `r` and `q` are put together alike from basic ones. Where statements are tried, the
readers of these are related by `tries`. If `P` holds of the spans of all lexemes that are seen, it
holds of those that are blamed, and `post` of what is read. -/
inductive Built (tries : ReadingFrom σ Stmt → ReadingFrom τ Stmt → Prop) (P : Span → Prop) :
    {α : Type} → ReadingFrom σ α → ReadingFrom τ α → (α → Prop) → Prop
  | pure {α : Type} {a : α} {post : α → Prop} : post a → Built tries P (pure a) (pure a) post
  | fail {α : Type} {span : Span} (cause : ParseCause) (post : α → Prop) :
      P span → Built tries P (fail cause span) (fail cause span) post
  | peek : Built tries P peek peek fun x => P x.span
  | at? (t : Token) : Built tries P (at? t) (at? t) fun _ => True
  | take : Built tries P take take fun x => P x.span
  | step : Built tries P step step fun _ => True
  | nest {span : Span} (levels : Nat) :
      P span → Built tries P (nest levels span) (nest levels span) fun _ => True
  | insideLoop (told : Bool) : Built tries P (insideLoop told) (insideLoop told) fun _ => True
  | restoring {α : Type} {r : ReadingFrom σ α} {q : ReadingFrom τ α} {post : α → Prop} :
      Built tries P r q post → Built tries P (restoring r) (restoring q) post
  | looping {α : Type} {r : ReadingFrom σ α} {q : ReadingFrom τ α} {post : α → Prop} :
      Built tries P r q post → Built tries P (looping r) (looping q) post
  | bind {α β : Type} {r : ReadingFrom σ α} {q : ReadingFrom τ α} {f : α → ReadingFrom σ β}
      {g : α → ReadingFrom τ β} {mid : α → Prop} {post : β → Prop} :
      Built tries P r q mid → (∀ a, mid a → Built tries P (f a) (g a) post) →
      Built tries P (r >>= f) (q >>= g) post
  | sequence {r : ReadingFrom σ Stmt} {q : ReadingFrom τ Stmt} {post : Stmt → Prop}
      {ends : Token → Bool} : ends .eof = true → tries r q → Built tries P r q post →
      Built tries P (sequence ends r) (sequence ends q) fun body => ∀ s ∈ body, post s

section

variable {tries : ReadingFrom σ Stmt → ReadingFrom τ Stmt → Prop} {P : Span → Prop}

/-- A token that is expected is looked at first, and blamed where it is another. -/
theorem built_expect (t : Token) (after : String) :
    Built tries P (expect t after) (expect t after) fun x => P x.span := by
  refine Built.peek.bind fun x hx => ?_
  split
  · exact .take
  · exact .fail _ _ hx

/-- The span of a name is that of its lexeme. -/
theorem built_expectName :
    Built tries P expectName expectName fun ident => P ident.span := by
  refine Built.peek.bind fun x hx => ?_
  split
  · exact Built.step.bind fun _ _ => .pure hx
  · exact .fail _ _ hx

/-! ## Expressions -/

/-- The fault of a token blames its span. -/
theorem built_unexpected {α : Type} {x : Lexeme} (hx : P x.span) (post : α → Prop) :
    Built tries P (unexpected x) (unexpected x) post := by
  unfold unexpected
  split <;> exact .fail _ _ hx

/-- A literal has the span of its lexeme. -/
theorem built_literal : Built tries P literal literal fun e => ∀ s ∈ e.spans, P s := by
  refine Built.take.bind fun x hx => ?_
  have leaf : ∀ s ∈ [x.span], P s := List.forall_mem_singleton.2 hx
  rcases x with ⟨t, text, span⟩
  cases t with
  | int value => exact .pure leaf
  | str value => exact .pure leaf
  | word k => cases k <;> first | exact .pure leaf | exact built_unexpected hx _
  | _ => exact built_unexpected hx _

variable (join : ClosedUnderUpTo P)

include join

section

variable {r : ReadingFrom σ Expr} {q : ReadingFrom τ Expr}

/-- A negation reaches from its sign to the end of what it negates. -/
theorem built_negation (h : Built tries P r q fun e => ∀ s ∈ e.spans, P s) :
    Built tries P (negation r) (negation q) fun e => ∀ s ∈ e.spans, P s := by
  refine Built.take.bind fun x hx => ?_
  split
  · refine h.bind fun right hr => .pure ?_
    exact List.forall_mem_cons.2 ⟨join _ _ hx (hr _ right.span_mem_spans), hr⟩
  · exact .fail _ _ hx

end

section

variable {r : Tier → ReadingFrom σ Expr} {q : Tier → ReadingFrom τ Expr}
  (h : ∀ t, Built tries P (r t) (q t) fun e => ∀ s ∈ e.spans, P s)

include h

/-- An operation reaches from its left operand to its right one. -/
theorem built_operation {left : Expr} (hl : ∀ s ∈ left.spans, P s) :
    Built tries P (operation r left) (operation q left) fun e => ∀ s ∈ e.spans, P s := by
  refine Built.take.bind fun x hx => ?_
  split
  · refine (h _).bind fun right hr => .pure ?_
    refine List.forall_mem_cons.2 ⟨?_, List.forall_mem_cons.2 ⟨hx, ?_⟩⟩
    · exact join _ _ (hl _ left.span_mem_spans) (hr _ right.span_mem_spans)
    · exact List.forall_mem_append.2 ⟨hl, hr⟩
  · exact .fail _ _ hx

/-- An operand, given the expressions inside it; parentheses leave no span behind. -/
theorem built_operand :
    Built tries P (operand r) (operand q) fun e => ∀ s ∈ e.spans, P s := by
  refine Built.peek.bind fun x hx => ?_
  have leaf : ∀ s ∈ [x.span], P s := List.forall_mem_singleton.2 hx
  rcases x with ⟨t, text, span⟩
  cases t with
  | ident name => exact Built.step.bind fun _ _ => .pure leaf
  | int value => exact built_literal
  | str value => exact built_literal
  | word k =>
    cases k with
    | bhaiChhe => exact built_literal
    | bhaiNathi => exact built_literal
    | bapuTameBolo => exact Built.step.bind fun _ _ => .pure leaf
    | _ => exact built_unexpected hx _
  | op o =>
    cases o with
    | subtract => exact built_negation join (h _)
    | _ => exact built_unexpected hx _
  | leftParen =>
    exact Built.step.bind fun _ _ => (h _).bind fun e he =>
      (built_expect _ _).bind fun _ _ => .pure he
  | _ => exact built_unexpected hx _

end

/-- Expressions and the chains in them, by induction on the bound of the levels. -/
theorem built_expression_chain (n : Nat) :
    (∀ t, Built tries P (expression n t) (expression n t) fun e => ∀ s ∈ e.spans, P s) ∧
      ∀ t left, (∀ s ∈ left.spans, P s) →
        Built tries P (chain n t left) (chain n t left) fun e => ∀ s ∈ e.spans, P s := by
  induction n with
  | zero =>
    constructor
    · intro t
      unfold expression
      exact (Built.peek.bind fun x hx => (Built.nest 0 hx).bind fun _ _ =>
        built_unexpected hx _).restoring
    · intro t left hl
      unfold chain
      refine Built.peek.bind fun x hx => ?_
      split
      · exact (Built.nest 0 hx).bind fun _ _ => built_unexpected hx _
      · exact .pure hl
  | succ n ih =>
    constructor
    · intro t
      unfold expression
      exact (Built.peek.bind fun x hx => (Built.nest _ hx).bind fun _ _ =>
        (built_operand join ih.1).bind fun left hl => ih.2 t left hl).restoring
    · intro t left hl
      unfold chain
      refine Built.peek.bind fun x hx => ?_
      split
      · exact (Built.nest _ hx).bind fun _ _ =>
          (built_operation join ih.1 hl).bind fun e he => ih.2 t e he
      · exact .pure hl

/-- Expressions of every tier, under every bound of the levels. -/
theorem built_expression (n : Nat) (t : Tier) :
    Built tries P (expression n t) (expression n t) fun e => ∀ s ∈ e.spans, P s :=
  (built_expression_chain join n).1 t

/-! ## Statements -/

/-- A print statement reaches from its keyword to the end of what it prints. -/
theorem built_printing (n : Nat) :
    Built tries P (printing n) (printing n) fun s => ∀ t ∈ s.spans, P t := by
  refine Built.take.bind fun x hx => (built_expression join n _).bind fun e he => .pure ?_
  exact List.forall_mem_cons.2 ⟨join _ _ hx (he _ e.span_mem_spans), he⟩

/-- A declaration reaches from its keyword to the end of its value. -/
theorem built_declaration (n : Nat) :
    Built tries P (declaration n) (declaration n) fun s => ∀ t ∈ s.spans, P t := by
  refine Built.take.bind fun x hx => built_expectName.bind fun ident hi =>
    (built_expect _ _).bind fun _ _ => (built_expression join n _).bind fun e he => .pure ?_
  have whole := join _ _ hx (he _ e.span_mem_spans)
  exact List.forall_mem_cons.2 ⟨whole, List.forall_mem_cons.2 ⟨hi, he⟩⟩

/-- An assignment reaches from its name to the end of its value. -/
theorem built_assignment (n : Nat) :
    Built tries P (assignment n) (assignment n) fun s => ∀ t ∈ s.spans, P t := by
  refine built_expectName.bind fun ident hi => (built_expect _ _).bind fun _ _ =>
    (built_expression join n _).bind fun e he => .pure ?_
  have whole := join _ _ hi (he _ e.span_mem_spans)
  exact List.forall_mem_cons.2 ⟨whole, List.forall_mem_cons.2 ⟨hi, he⟩⟩

omit join in
/-- A loop control is blamed, outside a loop, at its own lexeme. -/
theorem built_control (inLoop : Bool) {x : Lexeme} (hx : P x.span) {s : Stmt}
    (hs : ∀ t ∈ s.spans, P t) :
    Built tries P (control inLoop x s) (control inLoop x s) fun s => ∀ t ∈ s.spans, P t := by
  refine (Built.insideLoop inLoop).bind fun inside _ => ?_
  cases inside
  · exact .fail _ _ hx
  · exact Built.step.bind fun _ _ => .pure hs

section

variable {r : String → ReadingFrom σ Block} {q : String → ReadingFrom τ Block}
  (h : ∀ after, Built tries P (r after) (q after) fun b => ∀ t ∈ b.spans, P t)

include h

/-- A conditional reaches from its keyword to the end of its last branch. -/
theorem built_conditional (n : Nat) :
    Built tries P (conditional n r) (conditional n q) fun s => ∀ t ∈ s.spans, P t := by
  refine Built.take.bind fun x hx => (built_expression join n _).bind fun c hc =>
    (h _).bind fun yes hy => (Built.at? _).bind fun other _ => ?_
  cases other
  · refine .pure (List.forall_mem_cons.2 ⟨?_, List.forall_mem_append.2 ⟨hc, hy⟩⟩)
    exact join _ _ hx (hy _ yes.span_mem_spans)
  · refine Built.step.bind fun _ _ => (h _).bind fun no hn => .pure ?_
    have inner := List.forall_mem_append.2 ⟨hc, List.forall_mem_append.2 ⟨hy, hn⟩⟩
    exact List.forall_mem_cons.2 ⟨join _ _ hx (hn _ no.span_mem_spans), inner⟩

/-- A loop reaches from its keyword to the end of its condition. -/
theorem built_repetition (n : Nat) :
    Built tries P (repetition n r) (repetition n q) fun s => ∀ t ∈ s.spans, P t := by
  refine Built.take.bind fun x hx => (h _).looping.bind fun body hb =>
    (built_expect _ _).bind fun _ _ => (built_expression join n _).bind fun c hc => .pure ?_
  have whole := join _ _ hx (hc _ c.span_mem_spans)
  exact List.forall_mem_cons.2 ⟨whole, List.forall_mem_append.2 ⟨hb, hc⟩⟩

end

/-- Statements, given the blocks inside them. -/
theorem built_statement (n : Nat) (inLoop : Bool) {r : Bool → String → ReadingFrom σ Block}
    {q : Bool → String → ReadingFrom τ Block}
    (h : ∀ b after, Built tries P (r b after) (q b after) fun b => ∀ t ∈ b.spans, P t) :
    Built tries P (statement n inLoop r) (statement n inLoop q) fun s => ∀ t ∈ s.spans, P t := by
  refine Built.peek.bind fun x hx => ?_
  split
  · exact built_printing join n
  · exact built_declaration join n
  · exact built_conditional join (h inLoop) n
  · exact built_repetition join (h true) n
  · exact built_control inLoop hx (List.forall_mem_singleton.2 hx)
  · exact built_control inLoop hx (List.forall_mem_singleton.2 hx)
  · exact (h _ _).bind fun b hb => .pure hb
  · exact built_assignment join n
  · exact built_unexpected hx _

section

variable (tried : ∀ n inLoop, tries (statement n inLoop (block n)) (statement n inLoop (block n)))

include tried

/-- Blocks, by induction on the bound of the levels. -/
theorem built_block (n : Nat) (inLoop : Bool) (after : String) :
    Built tries P (block n inLoop after) (block n inLoop after) fun b => ∀ t ∈ b.spans, P t := by
  induction n generalizing inLoop after with
  | zero =>
    unfold block
    exact (Built.peek.bind fun x hx => (Built.nest 0 hx).bind fun _ _ =>
      built_unexpected hx _).restoring
  | succ n ih =>
    unfold block
    refine (Built.peek.bind fun x hx => (Built.nest _ hx).bind fun _ _ =>
      (built_expect _ _).bind fun first hf =>
        (Built.sequence rfl (tried n inLoop) (built_statement join n inLoop ih)).bind fun body hb =>
          (built_expect _ _).bind fun last hl => .pure ?_).restoring
    exact List.forall_mem_cons.2 ⟨join _ _ hf hl, forall_mem_allSpans hb⟩

/-- A program reaches from its first fence to its last. -/
theorem built_program (n : Nat) (inLoop : Bool) :
    Built tries P (program n inLoop) (program n inLoop) fun p => ∀ t ∈ p.spans, P t := by
  have inner := built_statement join n inLoop (built_block join tried n)
  refine Built.peek.bind fun first hf => ?_
  split
  · refine Built.step.bind fun _ _ =>
      (Built.sequence rfl (tried n inLoop) inner).bind fun body hb =>
        Built.peek.bind fun last hl => ?_
    split
    · refine Built.step.bind fun _ _ => .pure ?_
      exact List.forall_mem_cons.2 ⟨join _ _ hf hl, forall_mem_allSpans hb⟩
    · exact .fail _ _ hl
  · exact .fail _ _ hf

end

end

/-! ## One principle for all readers -/

section

variable {α β : Type} {P : Span → Prop} {R : σ → τ → Prop}

/-- Two readings have come to the same result or the same fault and to states that are related;
`post` holds of the result, and `P` of the span that is blamed. -/
structure Matched (P : Span → Prop) (R : σ → τ → Prop) (post : α → Prop)
    (out : Except ParseFault α × σ) (out' : Except ParseFault α × τ) : Prop where
  same : out'.1 = out.1
  rel : R out.2 out'.2
  post : ∀ a, out.1 = .ok a → post a
  blamed : ∀ fault, out.1 = .error fault → P fault.span

omit [Site σ] [Site τ] in
/-- Outcomes match that give the same result and leave states in relation. -/
theorem Matched.of_ok {post : α → Prop} {a : α} {s : σ} {t : τ} (rel : R s t) (holds : post a) :
    Matched P R post (.ok a, s) (.ok a, t) := by
  refine ⟨rfl, rel, fun b eq => ?_, fun fault eq => ?_⟩
  · cases eq
    exact holds
  · cases eq

omit [Site σ] [Site τ] in
/-- Outcomes match that report the same fault and leave states in relation. -/
theorem Matched.of_error {post : α → Prop} {fault : ParseFault} {s : σ} {t : τ} (rel : R s t)
    (blamed : P fault.span) : Matched P R post (.error fault, s) (.error fault, t) := by
  refine ⟨rfl, rel, fun a eq => ?_, fun fault' eq => ?_⟩
  · cases eq
  · cases eq
    exact blamed

/-- From states that are related, the readers `r` and `q` come to the same. -/
def Matches (P : Span → Prop) (R : σ → τ → Prop) (r : ReadingFrom σ α) (q : ReadingFrom τ α)
    (post : α → Prop) : Prop :=
  ∀ s t, R s t → Matched P R post (r s) (q t)

/-- The states that are related show the same lexeme, of whose span `P` holds, and what basic
readers do with them leads to such states again. -/
structure Matching (P : Span → Prop) (R : σ → τ → Prop) : Prop where
  current {s : σ} {t : τ} : R s t → Site.current t = Site.current s
  seen {s : σ} {t : τ} : R s t → P (Site.current s).span
  step {s : σ} {t : τ} : R s t → R (Site.step s) (Site.step t)
  nest {s : σ} {t : τ} (levels : Nat) (span : Span) : R s t →
    (Site.nest levels span t).1 = (Site.nest levels span s).1 ∧
      R (Site.nest levels span s).2 (Site.nest levels span t).2
  restore {s s' : σ} {t t' : τ} : R s t → R s' t' → R (Site.restore s s') (Site.restore t t')
  enterLoop {s : σ} {t : τ} : R s t → R (Site.enterLoop s) (Site.enterLoop t)
  exitLoop {s : σ} {t : τ} : R s t → R (Site.exitLoop s) (Site.exitLoop t)
  insideLoop {s : σ} {t : τ} (told : Bool) : R s t →
    Site.insideLoop told t = Site.insideLoop told s

/-- So does trying a statement, after which the same is left of both. -/
structure Matching.Trials (P : Span → Prop) (R : σ → τ → Prop) : Prop extends Matching P R where
  trial {s : σ} {t : τ} : R s t → R (Site.trial s) (Site.trial t)
  resume {s s' : σ} {t t' : τ} {fault : ParseFault} : R s t → R s' t' → P fault.span →
    R (Site.resume s fault s') (Site.resume t fault t')
  left {s s' : σ} {t t' : τ} : R s t → R s' t' →
    (Site.left t' < Site.left t ↔ Site.left s' < Site.left s)

omit [Site σ] [Site τ] in
/-- Readers in sequence match if each pair of them does. -/
theorem Matches.bind {r : ReadingFrom σ α} {q : ReadingFrom τ α} {f : α → ReadingFrom σ β}
    {g : α → ReadingFrom τ β} {mid : α → Prop} {post : β → Prop} (first : Matches P R r q mid)
    (last : ∀ a, mid a → Matches P R (f a) (g a) post) : Matches P R (r >>= f) (q >>= g) post := by
  intro s t h
  obtain ⟨same, rel, holds, blamed⟩ := first s t h
  rw [bind_apply, bind_apply]
  generalize r s = out at same rel holds blamed ⊢
  generalize q t = out' at same rel ⊢
  rcases out with ⟨fault | a, s'⟩ <;> rcases out' with ⟨fault' | a', t'⟩ <;> cases same
  · exact .of_error rel (blamed fault rfl)
  · exact last a (holds a rfl) s' t' rel

/-- What the basic readers keep to is kept to by all that are put together from them, if it is by
those that try statements. -/
theorem Built.matches_of {tries : ReadingFrom σ Stmt → ReadingFrom τ Stmt → Prop}
    {r : ReadingFrom σ α} {q : ReadingFrom τ α} {post : α → Prop} (h : Built tries P r q post)
    (m : Matching P R) (sequences : ∀ {ends r q post}, tries r q → Matches P R r q post →
      Matches P R (GujaratiScript.sequence ends r) (GujaratiScript.sequence ends q)
        fun body => ∀ s ∈ body, post s) : Matches P R r q post := by
  induction h with
  | pure holds => exact fun s t h => .of_ok h holds
  | fail cause post blamed => exact fun s t h => .of_error h blamed
  | peek =>
    intro s t h
    unfold Reading.peek
    rw [m.current h]
    exact .of_ok h (m.seen h)
  | at? x =>
    intro s t h
    unfold Reading.at?
    rw [m.current h]
    exact .of_ok h trivial
  | take =>
    intro s t h
    unfold Reading.take
    rw [m.current h]
    exact .of_ok (m.step h) (m.seen h)
  | step => exact fun s t h => .of_ok (m.step h) trivial
  | nest levels blamed =>
    intro s t h
    obtain ⟨same, rel⟩ := m.nest levels _ h
    exact ⟨same, rel, fun _ _ => trivial, fun fault eq => Site.nest_eq_error eq ▸ blamed⟩
  | insideLoop told =>
    intro s t h
    unfold Reading.insideLoop
    rw [m.insideLoop told h]
    exact .of_ok h trivial
  | restoring _ ih =>
    intro s t h
    obtain ⟨same, rel, holds, blamed⟩ := ih s t h
    exact ⟨same, m.restore h rel, holds, blamed⟩
  | looping _ ih =>
    intro s t h
    obtain ⟨same, rel, holds, blamed⟩ := ih _ _ (m.enterLoop h)
    exact ⟨same, m.exitLoop rel, holds, blamed⟩
  | bind _ _ first last => exact first.bind last
  | sequence _ tried _ ih => exact sequences tried ih

section

variable {r : ReadingFrom σ Stmt} {q : ReadingFrom τ Stmt} {post : Stmt → Prop}

/-- A trial leads to states that are related also when it ends with a fault. -/
theorem Matches.attempt (h : Matches P R r q post) (m : Matching.Trials P R) {s : σ} {t : τ}
    (rel : R s t) : (attempt q t).1 = (attempt r s).1 ∧ R (attempt r s).2 (attempt q t).2 ∧
      ∀ x ∈ (attempt r s).1.toList, post x := by
  obtain ⟨same, after, holds, blamed⟩ := h _ _ (m.trial rel)
  unfold GujaratiScript.attempt
  generalize r (Site.trial s) = out at same after holds blamed ⊢
  generalize q (Site.trial t) = out' at same after ⊢
  rcases out with ⟨fault | x, s'⟩ <;> rcases out' with ⟨fault' | x', t'⟩ <;> cases same
  · exact ⟨rfl, m.resume rel after (blamed fault rfl), List.forall_mem_nil _⟩
  · exact ⟨rfl, after, List.forall_mem_singleton.2 (holds x rfl)⟩

/-- Reading statement after statement matches: by the recursion of `statements`. -/
theorem Matches.statements (h : Matches P R r q post) (m : Matching.Trials P R)
    (ends : Token → Bool) {read : List Stmt} (done : ∀ x ∈ read, post x) {s : σ} {t : τ}
    (rel : R s t) : (statements ends q read t).1 = (statements ends r read s).1 ∧
      R (statements ends r read s).2 (statements ends q read t).2 ∧
      ∀ x ∈ (statements ends r read s).1, post x := by
  have reverse : ∀ read : List Stmt, (∀ x ∈ read, post x) → ∀ x ∈ read.reverse, post x :=
    fun read h x mem => h x (List.mem_reverse.1 mem)
  -- the sequence has stopped, goes on, or met an attempt that took nothing
  fun_induction GujaratiScript.statements ends r read s generalizing t with
  | case1 read s stops =>
    rw [GujaratiScript.statements, m.current rel, if_pos stops]
    exact ⟨rfl, rel, reverse read done⟩
  | case2 read s goes x s' eq read' took ih =>
    obtain ⟨same, after, tried⟩ := h.attempt m rel
    rw [eq] at same after tried
    rw [GujaratiScript.statements, m.current rel, if_neg goes]
    generalize GujaratiScript.attempt q t = out at same after ⊢
    obtain ⟨x', t'⟩ := out
    cases same
    dsimp only
    rw [if_pos ((m.left rel after).2 took)]
    exact ih (List.forall_mem_append.2 ⟨tried, done⟩) after
  | case3 read s goes x s' eq read' none =>
    obtain ⟨same, after, tried⟩ := h.attempt m rel
    rw [eq] at same after tried
    rw [GujaratiScript.statements, m.current rel, if_neg goes]
    generalize GujaratiScript.attempt q t = out at same after ⊢
    obtain ⟨x', t'⟩ := out
    cases same
    dsimp only
    rw [if_neg fun took => none ((m.left rel after).1 took)]
    exact ⟨rfl, after, reverse read' (List.forall_mem_append.2 ⟨tried, done⟩)⟩

/-- Statements in sequence match if the single one does. -/
theorem Matches.sequence (h : Matches P R r q post) (m : Matching.Trials P R)
    (ends : Token → Bool) :
    Matches P R (sequence ends r) (sequence ends q) fun body => ∀ s ∈ body, post s := by
  intro s t rel
  obtain ⟨same, after, read⟩ := h.statements m ends (List.forall_mem_nil _) rel
  refine ⟨congrArg Except.ok same, after, fun body eq => ?_, fun fault eq => ?_⟩
  · cases eq
    exact read
  · cases eq

end

/-- All readers of the grammar come to the same from states that are related. -/
theorem Built.matches {tries : ReadingFrom σ Stmt → ReadingFrom τ Stmt → Prop}
    {r : ReadingFrom σ α} {q : ReadingFrom τ α} {post : α → Prop} (h : Built tries P r q post)
    (m : Matching.Trials P R) : Matches P R r q post :=
  h.matches_of m.toMatching fun _ inner => inner.sequence m _

omit [Site τ] in
/-- What is built is the same over states of one kind, and the condition on its result holds. -/
theorem Built.post_of_eq_ok {tries : ReadingFrom σ Stmt → ReadingFrom σ Stmt → Prop}
    {r q : ReadingFrom σ α} {post : α → Prop} (h : Built tries (fun _ => True) r q post) {s t : σ}
    {a : α} (eq : r s = (.ok a, t)) : post a := by
  have self : Matching.Trials (fun _ => True) (fun s t : σ => t = s) := {
    current := congrArg _
    seen := fun _ => trivial
    step := congrArg _
    nest := by
      rintro s _ levels span rfl
      exact ⟨rfl, rfl⟩
    restore := by
      rintro s s' _ _ rfl rfl
      rfl
    enterLoop := congrArg _
    exitLoop := congrArg _
    insideLoop := by
      rintro s _ told rfl
      rfl
    trial := congrArg _
    resume := by
      rintro s s' _ _ fault rfl rfl -
      rfl
    left := by
      rintro s s' _ _ rfl rfl
      exact Iff.rfl }
  exact (h.matches self s s rfl).post a (by rw [eq])

section

variable (m : Matching.Trials P R) (join : ClosedUnderUpTo P) (n : Nat) (inLoop : Bool)

include m join

/-- A statement matches itself over related states. -/
theorem matches_statement :
    Matches P R (statement n inLoop (block n)) (statement n inLoop (block n))
      fun s => ∀ t ∈ s.spans, P t :=
  (built_statement join n inLoop (built_block join (fun _ _ => trivial) n) :
    Built (fun _ _ => True) ..).matches m

/-- A program matches itself over related states: what all that follows is drawn from. -/
theorem matches_program :
    Matches P R (program n inLoop) (program n inLoop) fun p => ∀ t ∈ p.spans, P t :=
  (built_program join (fun _ _ => trivial) n inLoop : Built (fun _ _ => True) ..).matches m

end

end

end Reading

end GujaratiScript
