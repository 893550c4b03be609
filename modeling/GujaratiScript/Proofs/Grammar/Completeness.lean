import GujaratiScript.Proofs.Reading.Depth
import GujaratiScript.Proofs.Grammar.Basic

/-!
# What the grammar derives is read

Every derivation is read to its end and gives its tree, if the levels suffice; if they do not, too
deep nesting is reported. Nothing else can keep a derived sequence from being read.

* `Grammar.Expression.yieldsIff` : expressions, up to the chain they stand at the head of;
* `Grammar.Statement.yieldsIff`, `Grammar.Braced.yieldsIff` : statements and blocks.
-/

namespace GujaratiScript

open Reading

/-! ## Links of a chain -/

section Chain

variable (levels : Nat) {tier : Tier} {y : Lexeme} (w : List Lexeme) (m : Lexeme)
  (fs : List ParseFault) (e : Expr)

/-- A chain ends before a token that binds no tighter than what surrounds the chain. -/
theorem chain_of_tier_le (h : y.token.tier ≤ tier) :
    chain levels tier e (Cursor.mk (y :: w) m fs) = (.ok e, ⟨y :: w, m, fs⟩) := by
  unfold chain
  rw [bind_eq_of_eq_ok (peek_cons y w m fs), if_neg (Tier.not_lt.2 h)]
  rfl

/-- A chain that is out of levels does not go on with an operator. -/
theorem tooDeep_chain_zero {o : Operator} (hy : y.token = .op o) (h : tier < o.tier) :
    TooDeep (chain 0 tier e (Cursor.mk (y :: w) m fs)) := by
  rw [chain_zero, bind_eq_of_eq_ok (peek_cons y w m fs), if_pos (by rw [hy]; exact h)]
  exact .inl ⟨_, rfl⟩

/-- With a level left, a chain goes on with an operator and what stands to the right of it. -/
theorem chain_succ_cons {o : Operator} (hy : y.token = .op o) (h : tier < o.tier) :
    chain (levels + 1) tier e (Cursor.mk (y :: w) m fs) =
      (expression levels o.tier >>= fun r =>
        chain levels tier (.binary o e r y.span (e.span.upTo r.span))) ⟨w, m, fs⟩ := by
  have link : operation (expression levels) e (Cursor.mk (y :: w) m fs) =
      (expression levels o.tier >>= fun r =>
        pure (.binary o e r y.span (e.span.upTo r.span))) ⟨w, m, fs⟩ := by
    unfold operation
    rw [bind_eq_of_eq_ok (take_cons y w m fs)]
    simp only [hy]
  rw [chain_succ, bind_eq_of_eq_ok (peek_cons y w m fs), if_pos (by rw [hy]; exact h)]
  simp only [bind_apply, link]
  rcases expression levels o.tier (Cursor.mk w m fs) with ⟨fault | r, d⟩ <;> rfl

end Chain

/-! ## Expressions -/

/-- A reading of operators tighter than `tier` goes on with all operators of the class `t`. -/
def Tier.Admits (tier t : Tier) : Prop := ∀ o : Operator, t ≤ o.tier → tier < o.tier

theorem Tier.admits_above (t : Tier) : t.Admits t.above :=
  fun o h => (t.above_le_tier_iff o).1 h

theorem Tier.admits_lowest : Tier.lowest.Admits .lowest := fun o _ => o.lowest_lt_tier

theorem Tier.admits_negation (tier : Tier) : tier.Admits .negation := by
  intro o h
  exact absurd o.tier_lt_negation (Tier.not_lt.2 h)

theorem Tier.Admits.mono {tier s t : Tier} (h : tier.Admits s) (le : s ≤ t) : tier.Admits t :=
  fun o h' => h o (Tier.le_trans le h')

namespace Grammar

/-- The reader of `tier` reads the lexemes `w` as the expression `e` and then goes on with a chain
that `e` is at the head of. -/
def Heads (t : Tier) (w : List Lexeme) (e : Expr) (links levels : Nat) : Prop :=
  ∀ (n : Nat) (tier : Tier) (y : Lexeme) (rest : List Lexeme) (m : Lexeme) (fs : List ParseFault),
    tier.Admits t → y.token.tier ≤ t →
    YieldsIff (levels ≤ n) (expression n tier ⟨w ++ y :: rest, m, fs⟩)
      (chain (n - 1 - links) tier e ⟨y :: rest, m, fs⟩)

/-- If the chain does not go on, the expression is all that is read. -/
theorem Heads.yieldsIff {t tier : Tier} {w : List Lexeme} {e : Expr} {k l : Nat}
    (h : Heads t w e k l) (n : Nat) {y : Lexeme} (rest : List Lexeme) (m : Lexeme)
    (fs : List ParseFault) (adm : tier.Admits t) (le : y.token.tier ≤ tier)
    (le' : y.token.tier ≤ t) :
    YieldsIff (l ≤ n) (expression n tier ⟨w ++ y :: rest, m, fs⟩) (.ok e, ⟨y :: rest, m, fs⟩) := by
  have := h n tier y rest m fs adm le'
  rwa [chain_of_tier_le _ _ _ _ _ le] at this

/-- An operand stands at the head of a chain without links. -/
theorem heads_of_operand {w : List Lexeme} {e : Expr} {l : Nat}
    (h : ∀ (n : Nat) (y : Lexeme) (rest : List Lexeme) (m : Lexeme) (fs : List ParseFault),
      YieldsIff (l ≤ n) (operand (expression n) ⟨w ++ y :: rest, m, fs⟩)
        (.ok e, ⟨y :: rest, m, fs⟩)) :
    Heads .negation w e 0 (l + 1) := by
  intro n tier y rest m fs _ _
  cases n with
  | zero => exact .of_tooDeep (Nat.not_succ_le_zero l) (.inl ⟨_, rfl⟩)
  | succ n =>
    rw [expression_succ]
    exact ((h n y rest m fs).bind_eq rfl
      fun left => advances_chain n tier left).congr Nat.succ_le_succ_iff.symm

theorem heads_leaf {x : Lexeme} {e : Expr} (h : x.leaf? = some e) :
    Heads .negation [x] e 0 1 := by
  apply heads_of_operand
  intro n y rest m fs
  refine .of_eq (Nat.zero_le n) ?_
  rcases x with ⟨t, text, span⟩
  unfold operand
  rw [List.singleton_append, bind_eq_of_eq_ok (peek_cons _ _ m fs)]
  cases t with
  | ident name => cases h; rfl
  | int value => cases h; rfl
  | str value => cases h; rfl
  | word k => cases k <;> cases h <;> rfl
  | _ => simp [Lexeme.leaf?] at h

theorem heads_parens {x y : Lexeme} {w : List Lexeme} {e : Expr} {k l : Nat}
    (hx : x.token = .leftParen) (h : Heads .lowest w e k l) (hy : y.token = .rightParen) :
    Heads .negation (x :: (w ++ [y])) e 0 (l + 1) := by
  apply heads_of_operand
  intro n z rest m fs
  have low : y.token.tier = .lowest := by rw [hy]; rfl
  have stop : y.token.tier ≤ .lowest := by
    rw [low]
    exact Tier.le_refl _
  have inner := h.yieldsIff n (z :: rest) m fs Tier.admits_lowest stop stop
  unfold operand
  rw [List.cons_append, bind_eq_of_eq_ok (peek_cons _ _ m fs)]
  simp only [hx]
  rw [bind_eq_of_eq_ok (step_cons _ _ m fs), List.append_assoc, List.singleton_append]
  refine inner.bind_eq ?_ fun e => (advances_expect _ _).bind fun _ => advances_pure _
  rw [bind_eq_of_eq_ok (expect_cons _ m fs hy _)]
  rfl

theorem heads_negate {x : Lexeme} {w : List Lexeme} {e : Expr} {k l : Nat}
    (hx : x.token = .op .subtract) (h : Heads .negation w e k l) :
    Heads .negation (x :: w) (.negate e (x.span.upTo e.span)) 0 (l + 1) := by
  apply heads_of_operand
  intro n y rest m fs
  have inner := h.yieldsIff n rest m fs (Tier.admits_negation .negation) (Tier.le_negation _)
    (Tier.le_negation y.token.tier)
  unfold operand negation
  rw [List.cons_append, bind_eq_of_eq_ok (peek_cons _ _ m fs)]
  simp only [hx]
  rw [bind_eq_of_eq_ok (take_cons _ _ m fs)]
  simp only [hx]
  exact inner.bind_pure

theorem heads_binary {o : Operator} {x : Lexeme} {u v : List Lexeme} {l r : Expr} {j k a b : Nat}
    (hl : Heads o.tier u l j a) (hx : x.token = .op o) (hr : Heads o.tier.above v r k b)
    (pos : 0 < b) :
    Heads o.tier (u ++ x :: v) (.binary o l r x.span (l.span.upTo r.span)) (j + 1)
      (max a (j + 2 + b)) := by
  intro n tier y rest m fs adm le
  have lt : tier < o.tier := adm o (Tier.le_refl _)
  have left := hl n tier x (v ++ y :: rest) m fs adm (by rw [hx]; exact Tier.le_refl _)
  have right := fun n => hr.yieldsIff n rest m fs (Tier.admits_above o.tier) le
    (Tier.le_trans le (Tier.le_above _))
  have link : YieldsIff (j + 2 + b ≤ n)
      (chain (n - 1 - j) tier l ⟨x :: (v ++ y :: rest), m, fs⟩)
      (chain (n - 1 - (j + 1)) tier (.binary o l r x.span (l.span.upTo r.span))
        ⟨y :: rest, m, fs⟩) := by
    -- what is left after the links before decides whether there may be one more
    rcases eq : n - 1 - j with _ | i
    · exact .of_tooDeep (by omega) (tooDeep_chain_zero _ m fs l hx lt)
    · have next : n - 1 - (j + 1) = i := by omega
      rw [chain_succ_cons i _ m fs l hx lt, next]
      exact ((right i).bind_eq rfl fun r => advances_chain i tier _).congr
        (by omega)
  rw [List.append_assoc, List.cons_append]
  exact (left.trans link).congr Nat.max_le.symm

/-- A derived expression is read to its end if there are enough levels, and reading then goes on
with the chain that it heads; if there are too few, too deep nesting is reported. -/
theorem Expression.heads {t : Tier} {w : List Lexeme} {e : Expr} {k l : Nat}
    (h : Expression t w e k l) : Heads t w e k l := by
  induction h with
  | leaf h => exact heads_leaf h
  | parens hx _ hy ih => exact heads_parens hx ih hy
  | negate hx _ ih => exact heads_negate hx ih
  | binary _ hx h ihl ihr => exact heads_binary ihl hx ihr h.levels_pos
  | @up t _ _ _ _ _ ih =>
    intro n tier y rest m fs adm le
    exact ih n tier y rest m fs (adm.mono t.le_above) (Tier.le_trans le t.le_above)

/-- What a statement, a block or a condition takes as its expression. -/
theorem Expression.yieldsIff {w : List Lexeme} {e : Expr} {k l : Nat}
    (h : Expression .lowest w e k l) (n : Nat) {y : Lexeme} (hy : y.token.tier = .lowest)
    (rest : List Lexeme) (m : Lexeme) (fs : List ParseFault) :
    YieldsIff (l ≤ n) (expression n .lowest ⟨w ++ y :: rest, m, fs⟩)
      (.ok e, ⟨y :: rest, m, fs⟩) := by
  have stop : y.token.tier ≤ .lowest := by
    rw [hy]
    exact Tier.le_refl _
  exact h.heads.yieldsIff n rest m fs Tier.admits_lowest stop stop

end Grammar

/-! ## Sequences of statements -/

section Sequence

variable {ends : Token → Bool} {r : Reading Stmt} {c d : Cursor} {s : Stmt}

/-- What was read before only stands before what is read from here on. -/
theorem statements_eq_append (ends : Token → Bool) (r : Reading Stmt) (read : List Stmt)
    (c : Cursor) :
    statements ends r read c =
      (read.reverse ++ (statements ends r [] c).1, (statements ends r [] c).2) := by
  -- by the lexemes ahead: an attempt that takes none of them ends the sequence
  induction len : c.ahead.length using Nat.strongRecOn generalizing read c with
  | ind n ih =>
    rw [statements_eq, statements_eq ends r [] c]
    by_cases hs : ends c.current.token = true
    · rw [if_pos hs, if_pos hs]
      simp
    · rw [if_neg hs, if_neg hs]
      rcases attempt r c with ⟨s, d⟩
      by_cases lt : d.ahead.length < c.ahead.length
      · simp only [if_pos lt]
        rw [ih _ (len ▸ lt) (s.toList ++ read) d rfl, ih _ (len ▸ lt) (s.toList ++ []) d rfl]
        simp
      · simp only [if_neg lt]
        simp

/-- A statement that is read is the first of the sequence. -/
theorem sequence_of_eq_ok (hs : ends c.current.token = false) (h : r c = (.ok s, d))
    (lt : d.ahead.length < c.ahead.length) :
    sequence ends r c = (sequence ends r >>= fun body => pure (s :: body)) d := by
  have first : attempt r c = (some s, d) := attempt_of_eq_ok h
  rw [bind_apply]
  unfold sequence
  rw [statements_eq, hs, if_neg Bool.false_ne_true, first]
  simp only [if_pos lt]
  rw [statements_eq_append]
  rfl

/-- Too deep nesting in the first statement is not forgotten. -/
theorem tooDeep_sequence (hs : ends c.current.token = false) (h : TooDeep (r c))
    (adv : r.Advances) : TooDeep (sequence ends r c) := by
  -- it is the fault that the statement ends with, or one that was met on the way
  have first : ∃ fault ∈ (attempt r c).2.faults, fault.cause = .nestingTooDeep maxNesting := by
    rcases eq : r c with ⟨fault | s, d⟩
    · rw [attempt_of_eq_error eq]
      rw [eq] at h
      have after := Cursor.leadsTo_recover (d.report fault) c
      rcases h with ⟨span, h⟩ | ⟨fault', mem, h⟩
      · cases h
        exact ⟨_, after.faults.subset (List.mem_append_right _ List.mem_cons_self), rfl⟩
      · exact ⟨fault', after.faults.subset (List.mem_append_left _ mem), h⟩
    · rw [attempt_of_eq_ok eq]
      rw [eq] at h
      rcases h with ⟨span, h⟩ | h
      · cases h
      · exact h
  obtain ⟨fault, mem, cause⟩ := first
  refine .inr ⟨fault, ?_, cause⟩
  unfold sequence
  rw [statements_eq, hs, if_neg Bool.false_ne_true]
  rcases eq : attempt r c with ⟨s, d⟩
  rw [eq] at mem
  by_cases lt : d.ahead.length < c.ahead.length
  · simp only [if_pos lt]
    exact (leadsTo_statements adv ends _ d).faults.subset mem
  · simp only [if_neg lt]
    exact mem

end Sequence

/-! ## Statements -/

namespace Grammar

section Statements

variable {w : List Lexeme} {e : Expr} {k l : Nat} (n : Nat) (inLoop : Bool) {x y : Lexeme}
  (rest : List Lexeme) (mark : Lexeme) (fs : List ParseFault)

/-- A reader of blocks reads the lexemes `w` as the block `b`, if there are enough levels. -/
def YieldsBlock (r : String → Reading Block) (p : Prop) (w : List Lexeme) (b : Block) : Prop :=
  ∀ after rest mark fs, YieldsIff p (r after ⟨w ++ rest, mark, fs⟩) (.ok b, ⟨rest, mark, fs⟩)

theorem yieldsIff_printing (h : Expression .lowest w e k l) (hy : y.token.tier = .lowest) :
    YieldsIff (l ≤ n) (printing n ⟨x :: (w ++ y :: rest), mark, fs⟩)
      (.ok (.print e (x.span.upTo e.span)), ⟨y :: rest, mark, fs⟩) := by
  unfold printing
  rw [bind_eq_of_eq_ok (take_cons _ _ mark fs)]
  exact (h.yieldsIff n hy rest mark fs).bind_pure

theorem yieldsIff_assignment {x z : Lexeme} {name : String} (hx : x.token = .ident name)
    (hz : z.token = .word .che) (h : Expression .lowest w e k l) (hy : y.token.tier = .lowest) :
    YieldsIff (l ≤ n) (assignment n ⟨x :: z :: (w ++ y :: rest), mark, fs⟩)
      (.ok (.assign ⟨name, x.span⟩ e (x.span.upTo e.span)), ⟨y :: rest, mark, fs⟩) := by
  unfold assignment
  rw [bind_eq_of_eq_ok (expectName_cons _ mark fs hx),
    bind_eq_of_eq_ok (expect_cons _ mark fs hz _)]
  exact (h.yieldsIff n hy rest mark fs).bind_pure

theorem yieldsIff_declaration {z a : Lexeme} {name : String} (hz : z.token = .ident name)
    (ha : a.token = .word .che) (h : Expression .lowest w e k l) (hy : y.token.tier = .lowest) :
    YieldsIff (l ≤ n) (declaration n ⟨x :: z :: a :: (w ++ y :: rest), mark, fs⟩)
      (.ok (.declare ⟨name, z.span⟩ e (x.span.upTo e.span)), ⟨y :: rest, mark, fs⟩) := by
  unfold declaration
  rw [bind_eq_of_eq_ok (take_cons _ _ mark fs), bind_eq_of_eq_ok (expectName_cons _ mark fs hz),
    bind_eq_of_eq_ok (expect_cons _ mark fs ha _)]
  exact (h.yieldsIff n hy rest mark fs).bind_pure

theorem yieldsIff_conditional {r : String → Reading Block} (adv : ∀ after, (r after).Advances)
    {v : List Lexeme} {yes : Block} {m : Nat} {p : Prop} (h : Expression .lowest w e k l)
    (hv : Braced v yes m) (hb : YieldsBlock r p v yes) (hy : y.token ≠ .word .nahiTo) :
    YieldsIff (l ≤ n ∧ p) (conditional n r ⟨x :: (w ++ (v ++ y :: rest)), mark, fs⟩)
      (.ok (.branch e yes none (x.span.upTo yes.span)), ⟨y :: rest, mark, fs⟩) := by
  obtain ⟨z, u, rfl, hz⟩ := hv.exists_cons
  unfold conditional
  rw [bind_eq_of_eq_ok (take_cons _ _ mark fs)]
  refine (h.yieldsIff n (by rw [hz]; rfl) _ mark fs).bind ?_ fun e =>
    (adv _).bind fun yes => advances_conditional_tail adv x e yes
  refine (hb _ (y :: rest) mark fs).bind_eq ?_ fun yes => advances_conditional_tail adv x e yes
  rw [bind_eq_of_eq_ok (at?_cons y rest mark fs _), beq_false_of_ne hy]
  rfl

theorem yieldsIff_conditional_else {r : String → Reading Block}
    (adv : ∀ after, (r after).Advances) {z : Lexeme} {v u : List Lexeme} {yes no : Block} {m : Nat}
    {p q : Prop} (h : Expression .lowest w e k l) (hv : Braced v yes m) (hb : YieldsBlock r p v yes)
    (hz : z.token = .word .nahiTo) (hc : YieldsBlock r q u no) :
    YieldsIff (l ≤ n ∧ p ∧ q) (conditional n r ⟨x :: (w ++ (v ++ z :: (u ++ rest))), mark, fs⟩)
      (.ok (.branch e yes (some no) (x.span.upTo no.span)), ⟨rest, mark, fs⟩) := by
  obtain ⟨a, t, rfl, ha⟩ := hv.exists_cons
  unfold conditional
  rw [bind_eq_of_eq_ok (take_cons _ _ mark fs)]
  refine (h.yieldsIff n (by rw [ha]; rfl) _ mark fs).bind ?_ fun e =>
    (adv _).bind fun yes => advances_conditional_tail adv x e yes
  refine (hb _ (z :: (u ++ rest)) mark fs).bind ?_ fun yes => advances_conditional_tail adv x e yes
  rw [bind_eq_of_eq_ok (at?_cons z _ mark fs _), beq_iff_eq.2 hz]
  simp only [if_true]
  rw [bind_eq_of_eq_ok (step_cons _ _ mark fs)]
  exact (hc _ rest mark fs).bind_pure

theorem yieldsIff_repetition {r : String → Reading Block} {z : Lexeme} {v : List Lexeme}
    {body : Block} {p : Prop} (hb : YieldsBlock r p v body) (hz : z.token = .word .jyaSudhi)
    (h : Expression .lowest w e k l) (hy : y.token.tier = .lowest) :
    YieldsIff (p ∧ l ≤ n) (repetition n r ⟨x :: (v ++ z :: (w ++ y :: rest)), mark, fs⟩)
      (.ok (.loop body e (x.span.upTo e.span)), ⟨y :: rest, mark, fs⟩) := by
  unfold repetition
  rw [bind_eq_of_eq_ok (take_cons _ _ mark fs)]
  refine (hb _ _ mark fs).bind ?_ fun body => (advances_expect _ _).bind fun _ =>
    (advances_expression n _).bind fun _ => advances_pure _
  rw [bind_eq_of_eq_ok (expect_cons _ mark fs hz _)]
  exact (h.yieldsIff n hy rest mark fs).bind_pure

/-- A reader of statements reads the lexemes `w` as the statement `s` before any token that ends
statements, if there are enough levels. -/
def YieldsStmt (r : Reading Stmt) (p : Prop) (w : List Lexeme) (s : Stmt) : Prop :=
  ∀ (y : Lexeme) rest mark fs, Ends y.token →
    YieldsIff p (r ⟨w ++ y :: rest, mark, fs⟩) (.ok s, ⟨y :: rest, mark, fs⟩)

end Statements

/-! ## Statements, blocks and sequences together -/

/-- The reader of statements with `n` levels left. -/
abbrev reader (n : Nat) (inLoop : Bool) : Reading Stmt := statement n inLoop (block n)

/-- The token `t` ends statements, and none begins with a token that does. -/
structure StopsAt (ends : Token → Bool) (t : Token) : Prop where
  opens : ∀ u, Opens u → ends u = false
  at_ : ends t = true

theorem stopsAt_rightBrace : StopsAt Token.endsBlock .rightBrace where
  opens u h := by
    obtain ⟨brace, fence, eof⟩ := h.ne_close
    simp [Token.endsBlock, brace, fence, eof]
  at_ := rfl

theorem stopsAt_aavjoBhai : StopsAt Token.endsProgram (.word .aavjoBhai) where
  opens u h := by
    obtain ⟨-, fence, eof⟩ := h.ne_close
    simp [Token.endsProgram, fence, eof]
  at_ := rfl

/-- The first statement of a sequence, and then the others. -/
theorem yieldsIff_sequence_cons {ends : Token → Bool} {r : Reading Stmt} {s : Stmt}
    {body : List Stmt} {p q : Prop} {c d e : Cursor} (adv : r.Advances)
    (hs : ends c.current.token = false) (lt : d.ahead.length < c.ahead.length)
    (h : YieldsIff p (r c) (.ok s, d))
    (h' : YieldsIff q (sequence ends r d) (.ok body, e)) :
    YieldsIff (p ∧ q) (sequence ends r c) (.ok (s :: body), e) := by
  refine ⟨fun ⟨hp, hq⟩ => ?_, fun no => ?_⟩
  · rw [sequence_of_eq_ok hs (h.eq_of hp) lt, bind_eq_of_eq_ok (h'.eq_of hq)]
    rfl
  · by_cases hp : p
    · rw [sequence_of_eq_ok hs (h.eq_of hp) lt]
      exact (h'.tooDeep_of fun hq => no ⟨hp, hq⟩).bind fun _ => advances_pure _
    · exact tooDeep_sequence hs (h.tooDeep_of hp) adv

mutual

/-- A derived statement is read to its end if there are enough levels and its loop control is
placed; if there are too few levels, too deep nesting is reported. -/
theorem Statement.yieldsIff {w : List Lexeme} {s : Stmt} {l : Nat} (n : Nat) (inLoop : Bool)
    (h : Statement w s l) (hp : s.placed inLoop = true) :
    YieldsStmt (reader n inLoop) (l ≤ n) w s := by
  intro y rest mark fs hy
  unfold reader statement
  -- the first lexeme of the statement tells which reader goes on
  match h with
  | .print hx he =>
    rw [List.cons_append, bind_eq_of_eq_ok (peek_cons _ _ mark fs)]
    simp only [hx]
    exact yieldsIff_printing n rest mark fs he hy.1
  | .declare hx hz ha he =>
    rw [List.cons_append, bind_eq_of_eq_ok (peek_cons _ _ mark fs)]
    simp only [hx]
    exact yieldsIff_declaration n rest mark fs hz ha he hy.1
  | .assign hx hz he =>
    rw [List.cons_append, bind_eq_of_eq_ok (peek_cons _ _ mark fs)]
    simp only [hx]
    exact yieldsIff_assignment n rest mark fs hx hz he hy.1
  | .branch hx he hb =>
    rw [List.cons_append, bind_eq_of_eq_ok (peek_cons _ _ mark fs), List.append_assoc]
    simp only [hx]
    exact (yieldsIff_conditional n rest mark fs (advances_block n inLoop) he hb
      (hb.yieldsIff n inLoop hp) hy.2).congr Nat.max_le.symm
  | .branchElse hx he hb hz hc =>
    rw [Stmt.placed, Bool.and_eq_true] at hp
    rw [List.cons_append, bind_eq_of_eq_ok (peek_cons _ _ mark fs), List.append_assoc,
      List.append_assoc, List.cons_append]
    simp only [hx]
    refine (yieldsIff_conditional_else n (y :: rest) mark fs (advances_block n inLoop) he hb
      (hb.yieldsIff n inLoop hp.1) hz (hc.yieldsIff n inLoop hp.2)).congr ?_
    rw [Nat.max_le, Nat.max_le]
  | .loop hx hb hz he =>
    rw [List.cons_append, bind_eq_of_eq_ok (peek_cons _ _ mark fs), List.append_assoc,
      List.cons_append]
    simp only [hx]
    exact (yieldsIff_repetition n rest mark fs (hb.yieldsIff n true hp) hz he hy.1).congr
      Nat.max_le.symm
  | .leave hx =>
    rw [List.singleton_append, bind_eq_of_eq_ok (peek_cons _ _ mark fs)]
    simp only [hx]
    rw [control_eq, if_pos (show inLoop = true from hp)]
    exact .of_eq (Nat.zero_le n) rfl
  | .again hx =>
    rw [List.singleton_append, bind_eq_of_eq_ok (peek_cons _ _ mark fs)]
    simp only [hx]
    rw [control_eq, if_pos (show inLoop = true from hp)]
    exact .of_eq (Nat.zero_le n) rfl
  | .block hb =>
    have read := hb.yieldsIff n inLoop hp "statement start" (y :: rest) mark fs
    obtain ⟨x, v, rfl, hx⟩ := hb.exists_cons
    rw [List.cons_append] at read ⊢
    rw [bind_eq_of_eq_ok (peek_cons _ _ mark fs)]
    simp only [hx]
    exact read.bind_pure

/-- The same for a block, whatever follows it. -/
theorem Braced.yieldsIff {w : List Lexeme} {b : Block} {l : Nat} (n : Nat) (inLoop : Bool)
    (h : Braced w b l) (hp : b.placed inLoop = true) :
    YieldsBlock (block n inLoop) (l ≤ n) w b := by
  intro after rest mark fs
  match h, n with
  | .intro _ _ _, 0 => exact .of_tooDeep (Nat.not_succ_le_zero _) (.inl ⟨_, rfl⟩)
  | .intro (y := y) hx hs hy, n + 1 =>
    rw [block_succ, List.cons_append, bind_eq_of_eq_ok (expect_cons _ mark fs hx after),
      List.append_assoc, List.singleton_append]
    refine ((hs.yieldsIff n inLoop hp stopsAt_rightBrace ⟨rfl, by simp⟩ hy rest mark fs).bind_eq ?_
      fun body => (advances_expect _ _).bind fun _ => advances_pure _).congr
        Nat.succ_le_succ_iff.symm
    rw [bind_eq_of_eq_ok (expect_cons _ mark fs hy _)]
    rfl

/-- The same for statements in sequence, before a token at which no statement begins. -/
theorem Sequence.yieldsIff {w : List Lexeme} {body : List Stmt} {l : Nat} (n : Nat) (inLoop : Bool)
    (h : Sequence w body l) (hp : allPlaced inLoop body = true) {ends : Token → Bool} {t : Token}
    (hs : StopsAt ends t) (ht : Ends t) {y : Lexeme} (hy : y.token = t) (rest : List Lexeme)
    (mark : Lexeme) (fs : List ParseFault) :
    YieldsIff (l ≤ n) (sequence ends (reader n inLoop) ⟨w ++ y :: rest, mark, fs⟩)
      (.ok body, ⟨y :: rest, mark, fs⟩) := by
  match h with
  | .nil => exact .of_eq (Nat.zero_le n) (sequence_of_stop (hy ▸ hs.at_))
  | .cons (u := u) (v := v) hu hv =>
    rw [allPlaced, Bool.and_eq_true] at hp
    have later := hv.yieldsIff n inLoop hp.2 hs ht hy rest mark fs
    -- what comes next ends the first statement, be it the next one or the token after all of them
    obtain ⟨z, v', eq, hz⟩ := hv.exists_ends rest (hy ▸ ht)
    rw [List.append_assoc]
    rw [eq] at later ⊢
    have first := hu.yieldsIff n inLoop hp.1 z v' mark fs hz
    obtain ⟨x, u', rfl, hx⟩ := hu.exists_cons
    have shorter : (z :: v').length < (x :: u' ++ z :: v').length := by
      rw [List.length_append, List.length_cons (a := x)]
      omega
    have goes : ends x.token = false := hs.opens _ hx
    exact (yieldsIff_sequence_cons (advances_statement n inLoop) goes shorter first later).congr
      Nat.max_le.symm

end

end Grammar

end GujaratiScript
