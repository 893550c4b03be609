import GujaratiScript.Proofs.Reading.Ensures
import GujaratiScript.Proofs.Grammar.Completeness

/-!
# What is read is derived by the grammar

A reading that ends without any fault has taken lexemes that the grammar derives, as the tree that
it gives and with no more levels than it had.

* `sound_expression` : expressions, by an invariant of the chain that is being climbed;
* `sound_statement`, `sound_block`, `sound_sequence` : statements; a dropped statement leaves a
  fault behind, so none is dropped where no fault is met.
-/

namespace GujaratiScript

open Reading Grammar

/-! ## Expressions -/

/-- Whatever the reader of a tier reads is an expression that needs at most `n` levels, and no
operator that the reader could go on with follows. -/
def SoundTiers (n : Nat) (r : Tier → Reading Expr) : Prop :=
  ∀ (t : Tier) (c : Cursor), c.Closed → Ensures c (r t) fun e d =>
    ∃ w k l, c.Takes w d ∧ Expression t.above w e k l ∧ l ≤ n ∧ d.current.token.tier ≤ t

theorem ensures_unexpected {α : Type} {c : Cursor} (x : Lexeme) (post : α → Cursor → Prop) :
    Ensures c (unexpected x) post := by
  unfold unexpected
  split <;> exact ensures_fail _ _ _

theorem ensures_literal {c : Cursor} (hc : c.Closed) :
    Ensures c literal fun e d => c.Takes [c.current] d ∧ c.current.leaf? = some e := by
  refine ensures_take.bind ?_
  rintro x d ⟨rfl, rfl⟩
  have leaf : ∀ e, c.current.leaf? = some e → c.current.token ≠ .eof →
      Ensures c.step (pure e) fun e d => c.Takes [c.current] d ∧ c.current.leaf? = some e :=
    fun e eq ne => ensures_pure ⟨hc.takes_step ne, eq⟩
  cases eq : c.current.token with
  | int value => exact leaf _ (by simp only [Lexeme.leaf?, eq]) (by simp [eq])
  | str value => exact leaf _ (by simp only [Lexeme.leaf?, eq]) (by simp [eq])
  | word k =>
    cases k with
    | bhaiChhe => exact leaf _ (by simp only [Lexeme.leaf?, eq]) (by simp [eq])
    | bhaiNathi => exact leaf _ (by simp only [Lexeme.leaf?, eq]) (by simp [eq])
    | _ => exact ensures_unexpected _ _
  | _ => exact ensures_unexpected _ _

/-- An operand is read as one. -/
theorem sound_operand {n : Nat} {r : Tier → Reading Expr} (hr : SoundTiers n r) {c : Cursor}
    (hc : c.Closed) :
    Ensures c (operand r) fun e d =>
      ∃ w l, c.Takes w d ∧ Expression .negation w e 0 l ∧ l ≤ n + 1 := by
  -- every leaf is one lexeme and one level
  have single : ∀ e d, c.Takes [c.current] d ∧ c.current.leaf? = some e →
      ∃ w l, c.Takes w d ∧ Expression .negation w e 0 l ∧ l ≤ n + 1 :=
    fun e d ⟨take, eq⟩ => ⟨_, 1, take, .leaf eq, Nat.succ_le_succ (Nat.zero_le n)⟩
  have literals : Ensures c literal fun e d =>
      ∃ w l, c.Takes w d ∧ Expression .negation w e 0 l ∧ l ≤ n + 1 :=
    fun e d h => single e d (ensures_literal hc e d h)
  refine ensures_peek.bind ?_
  rintro x d ⟨rfl, rfl⟩
  cases eq : d.current.token with
  | ident name =>
    refine ensures_step.bind ?_
    rintro - d rfl
    exact ensures_pure (single _ _ ⟨hc.takes_step (by simp [eq]),
      by simp only [Lexeme.leaf?, eq]⟩)
  | int value => exact literals
  | str value => exact literals
  | word k =>
    cases k with
    | bhaiChhe => exact literals
    | bhaiNathi => exact literals
    | bapuTameBolo =>
      refine ensures_step.bind ?_
      rintro - d rfl
      exact ensures_pure (single _ _ ⟨hc.takes_step (by simp [eq]),
        by simp only [Lexeme.leaf?, eq]⟩)
    | _ => exact ensures_unexpected _ _
  | op o =>
    cases o with
    | subtract =>
      refine ensures_take.bind ?_
      rintro x d ⟨rfl, rfl⟩
      split
      · rename_i eq
        have first := hc.takes_step (by simp [eq])
        refine (hr .negation _ (first.closed hc)).bind ?_
        rintro e d ⟨w, k, l, take, expr, le, -⟩
        exact ensures_pure ⟨_, l + 1, first.cons take, .negate eq expr, Nat.succ_le_succ le⟩
      · exact ensures_fail _ _ _
    | _ => exact ensures_unexpected _ _
  | leftParen =>
    have first := hc.takes_step (by simp [eq])
    refine ensures_step.bind ?_
    rintro - d rfl
    refine (hr .lowest _ (first.closed hc)).bind ?_
    rintro e d ⟨w, k, l, take, expr, le, -⟩
    refine (ensures_expect (take.closed (first.closed hc)) (by simp) _).bind ?_
    rintro y d ⟨close, last⟩
    exact ensures_pure ⟨_, l + 1, first.cons (take.append last), .parens eq (.up expr) close,
      Nat.succ_le_succ le⟩
  | _ => exact ensures_unexpected _ _

/-- A chain that starts with a good head and has `n` of `n + 1 + k` levels left goes on to a good
expression.

The head is of a class `s` that the reader asks for, and a token that follows it binds no tighter
than `s`: where it is an operator of `s`, the head is its left operand. -/
def SoundChain (n : Nat) : Prop :=
  ∀ (s t : Tier) (c : Cursor) (u : List Lexeme) (left : Expr) (k l : Nat), c.Closed →
    Expression s u left k l → l ≤ n + 1 + k → t.above ≤ s → c.current.token.tier ≤ s →
    Ensures c (chain n t left) fun e d =>
      ∃ w k' l', c.Takes w d ∧ Expression t.above (u ++ w) e k' l' ∧ l' ≤ n + 1 + k ∧
        d.current.token.tier ≤ t

/-- A chain that does not go on ends with its head. -/
theorem sound_chain_end {s t : Tier} {c : Cursor} {u : List Lexeme} {left : Expr} {k l m : Nat}
    (h : Expression s u left k l) (le : l ≤ m) (hs : t.above ≤ s)
    (stop : ¬ t < c.current.token.tier) :
    Ensures c (pure left : Reading Expr) fun e d =>
      ∃ w k' l', c.Takes w d ∧ Expression t.above (u ++ w) e k' l' ∧ l' ≤ m ∧
        d.current.token.tier ≤ t :=
  ensures_pure ⟨[], k, l, .nil c, (List.append_nil u).symm ▸ h.weaken hs, le, Tier.not_lt.1 stop⟩

/-- One more link of a chain. -/
theorem sound_operation {n k l : Nat} {r : Tier → Reading Expr} (hr : SoundTiers n r) {s : Tier}
    {c : Cursor} {u : List Lexeme} {left : Expr} (hc : c.Closed) (h : Expression s u left k l)
    (le : l ≤ n + 2 + k) (next : c.current.token.tier ≤ s) {t : Tier}
    (lt : t < c.current.token.tier) :
    Ensures c (operation r left) fun e d =>
      ∃ (o : Operator) (v : List Lexeme) (l' : Nat), t < o.tier ∧ c.Takes v d ∧
        Expression o.tier (u ++ v) e (k + 1) l' ∧ l' ≤ n + 2 + k ∧
        d.current.token.tier ≤ o.tier := by
  refine ensures_take.bind ?_
  rintro x d ⟨rfl, rfl⟩
  split
  · rename_i o eq
    have first := hc.takes_step (by simp [eq])
    rw [eq] at next lt
    refine (hr o.tier _ (first.closed hc)).bind ?_
    rintro right d ⟨v, j, m, take, expr, le', stop⟩
    exact ensures_pure ⟨o, _, _, lt, first.cons take, .binary (h.weaken next) eq expr,
      Nat.max_le.2 ⟨le, by omega⟩, stop⟩
  · exact ensures_fail _ _ _

theorem sound_expression_chain (n : Nat) : SoundTiers n (expression n) ∧ SoundChain n := by
  induction n with
  | zero =>
    refine ⟨fun t c hc => ensures_peek.bind fun x d _ => ensures_fail _ _ _, ?_⟩
    intro s t c u left k l hc h le hs next
    rw [chain_zero]
    refine ensures_peek.bind ?_
    rintro x d ⟨rfl, rfl⟩
    split
    · exact ensures_fail _ _ _
    · rename_i stop
      exact sound_chain_end h le hs stop
  | succ n ih =>
    obtain ⟨tiers, chains⟩ := ih
    constructor
    -- an operand, and the chain that it is the head of
    · intro t c hc
      rw [expression_succ]
      refine (sound_operand tiers hc).bind ?_
      rintro left d ⟨u, l, take, head, le⟩
      intro e d' h
      obtain ⟨w, k, l', take', expr, le', stop⟩ :=
        chains .negation t d u left 0 l (take.closed hc) head le (Tier.le_negation _)
          (Tier.le_negation _) e d' h
      exact ⟨_, k, l', take.append take', expr, le', stop⟩
    · intro s t c u left k l hc h le hs next
      rw [chain_succ]
      refine ensures_peek.bind ?_
      rintro x d ⟨rfl, rfl⟩
      split
      -- one link more, and one level less for the links that follow
      · rename_i lt
        refine (sound_operation tiers hc h (by omega) next lt).bind ?_
        rintro e d ⟨o, v, l', lt, take, expr, le', stop⟩
        intro e' d' h'
        obtain ⟨w, k', l'', take', expr', le'', stop'⟩ :=
          chains o.tier t d _ e (k + 1) l' (take.closed hc) expr (by omega)
            ((t.above_le_tier_iff o).2 lt) stop e' d' h'
        exact ⟨v ++ w, k', l'', take.append take', by rwa [← List.append_assoc], by omega, stop'⟩
      · rename_i stop
        exact sound_chain_end h le hs stop

/-- Every expression that is read is derived, with no more levels than were left. -/
theorem sound_expression {n : Nat} {c : Cursor} (hc : c.Closed) :
    Ensures c (expression n .lowest) fun e d =>
      ∃ w k l, c.Takes w d ∧ Expression .lowest w e k l ∧ l ≤ n := by
  intro e d h
  obtain ⟨w, k, l, take, expr, le, -⟩ := (sound_expression_chain n).1 .lowest c hc e d h
  exact ⟨w, k, l, take, .up expr, le⟩

/-! ## Statements -/

/-- Whatever the reader of blocks reads without fault is a block that needs at most `n` levels, with
its loop control in place. -/
def SoundBlocks (n : Nat) (r : Bool → String → Reading Block) : Prop :=
  ∀ (inLoop : Bool) (after : String) (c : Cursor), c.Closed →
    Clean c (r inLoop after) fun b d =>
      ∃ w l, c.Takes w d ∧ Braced w b l ∧ l ≤ n ∧ b.placed inLoop = true

/-- The statement `s` stands between the cursors, needs at most `n` levels and has its loop control
in place. -/
def SoundStmt (n : Nat) (inLoop : Bool) (c : Cursor) (s : Stmt) (d : Cursor) : Prop :=
  ∃ w l, c.Takes w d ∧ Statement w s l ∧ l ≤ n ∧ s.placed inLoop = true

section Statements

variable {n : Nat} {inLoop : Bool} {c : Cursor} (hc : c.Closed)
include hc

theorem sound_printing (eq : c.current.token = .word .bhaiBol) :
    Ensures c (printing n) (SoundStmt n inLoop c) := by
  have first := hc.takes_step (by simp [eq])
  refine ensures_take.bind ?_
  rintro x d ⟨rfl, rfl⟩
  refine (sound_expression (first.closed hc)).bind ?_
  rintro e d ⟨w, k, l, take, expr, le⟩
  exact ensures_pure ⟨_, l, first.cons take, .print eq expr, le, rfl⟩

theorem sound_assignment : Ensures c (assignment n) (SoundStmt n inLoop c) := by
  refine (ensures_expectName hc).bind ?_
  rintro ident d ⟨x, name, span, first⟩
  have hd := first.closed hc
  refine (ensures_expect hd (by simp) _).bind ?_
  rintro y d ⟨che, second⟩
  refine (sound_expression (second.closed hd)).bind ?_
  rintro e d ⟨w, k, l, take, expr, le⟩
  have rule := Statement.assign name che expr
  rw [span] at rule
  exact ensures_pure ⟨_, l, first.cons (second.cons take), rule, le, rfl⟩

theorem sound_declaration (eq : c.current.token = .word .aa) :
    Ensures c (declaration n) (SoundStmt n inLoop c) := by
  have first := hc.takes_step (by simp [eq])
  refine ensures_take.bind ?_
  rintro x d ⟨rfl, rfl⟩
  have hd := first.closed hc
  refine (ensures_expectName hd).bind ?_
  rintro ident d ⟨y, name, span, second⟩
  have hd := second.closed hd
  refine (ensures_expect hd (by simp) _).bind ?_
  rintro z d ⟨che, third⟩
  refine (sound_expression (third.closed hd)).bind ?_
  rintro e d ⟨w, k, l, take, expr, le⟩
  have rule := Statement.declare eq name che expr
  rw [span] at rule
  exact ensures_pure ⟨_, l, first.cons (second.cons (third.cons take)), rule, le, rfl⟩

theorem sound_conditional {r : String → Reading Block} (adv : ∀ after, (r after).Advances)
    (hr : ∀ after c, c.Closed → Clean c (r after) fun b d =>
      ∃ w l, c.Takes w d ∧ Braced w b l ∧ l ≤ n ∧ b.placed inLoop = true)
    (eq : c.current.token = .word .jo) : Clean c (conditional n r) (SoundStmt n inLoop c) := by
  have first := hc.takes_step (by simp [eq])
  -- no reader forgets the faults of those before it, so each of them has met none
  have tail := advances_conditional_tail adv
  refine ensures_take.clean.bind advances_take (fun _ => (advances_expression n _).bind fun _ =>
    (adv _).bind fun _ => tail _ _ _) ?_
  rintro x d ⟨rfl, rfl⟩
  have hd := first.closed hc
  refine (sound_expression hd).clean.bind (advances_expression n _)
    (fun _ => (adv _).bind fun _ => tail _ _ _) ?_
  rintro e d ⟨u, k, l, take, expr, le⟩
  have hd := take.closed hd
  refine (hr _ d hd).bind (adv _) (fun _ => tail _ _ _) ?_
  rintro yes d ⟨v, m, take', braced, le', placed⟩
  have hd := take'.closed hd
  refine (ensures_at? _).clean.bind (advances_at? _) ?_ ?_
  · rintro (_ | _)
    · exact advances_pure _
    · exact advances_step.bind fun _ => (adv _).bind fun _ => advances_pure _
  rintro other d ⟨rfl, rfl⟩
  split
  · rename_i nahi
    have nahi := beq_iff_eq.1 nahi
    have third := hd.takes_step (by simp [nahi])
    refine ensures_step.clean.bind advances_step
      (fun _ => (adv _).bind fun _ => advances_pure _) ?_
    rintro - d rfl
    refine (hr _ _ (third.closed hd)).bind (adv _) (fun _ => advances_pure _) ?_
    rintro no d ⟨w, j, take'', braced', le'', placed'⟩
    exact (ensures_pure ⟨_, _, first.cons (take.append (take'.append (third.cons take''))),
      .branchElse eq expr braced nahi braced', Nat.max_le.2 ⟨le, Nat.max_le.2 ⟨le', le''⟩⟩,
      Bool.and_eq_true_iff.2 ⟨placed, placed'⟩⟩).clean
  · exact (ensures_pure ⟨_, _, first.cons (take.append take'), .branch eq expr braced,
      Nat.max_le.2 ⟨le, le'⟩, placed⟩).clean

theorem sound_repetition {r : String → Reading Block} (adv : ∀ after, (r after).Advances)
    (hr : ∀ after c, c.Closed → Clean c (r after) fun b d =>
      ∃ w l, c.Takes w d ∧ Braced w b l ∧ l ≤ n ∧ b.placed true = true)
    (eq : c.current.token = .word .farvu) : Clean c (repetition n r) (SoundStmt n inLoop c) := by
  have first := hc.takes_step (by simp [eq])
  have value {make : Expr → Stmt} :
      Advances (do
        let e ← expression n .lowest
        pure (make e)) :=
    (advances_expression n _).bind fun _ => advances_pure _
  refine ensures_take.clean.bind advances_take (fun _ => (adv _).bind fun _ =>
    (advances_expect _ _).bind fun _ => value) ?_
  rintro x d ⟨rfl, rfl⟩
  have hd := first.closed hc
  refine (hr _ _ hd).bind (adv _) (fun _ => (advances_expect _ _).bind fun _ => value) ?_
  rintro body d ⟨u, m, take, braced, le, placed⟩
  have hd := take.closed hd
  refine (ensures_expect hd (by simp) _).clean.bind (advances_expect _ _) (fun _ => value) ?_
  rintro y d ⟨sudhi, second⟩
  refine ((sound_expression (second.closed hd)).bind ?_).clean
  rintro e d ⟨w, k, l, take', expr, le'⟩
  exact ensures_pure ⟨_, _, first.cons (take.append (second.cons take')),
    .loop eq braced sudhi expr, Nat.max_le.2 ⟨le, le'⟩, placed⟩

/-- A statement that is read without fault is derived. -/
theorem sound_statement {r : Bool → String → Reading Block} (adv : ∀ b after, (r b after).Advances)
    (hr : SoundBlocks n r) : Clean c (statement n inLoop r) (SoundStmt n inLoop c) := by
  have controls : ∀ {k : Keyword} {s : Stmt}, c.current.token = .word k →
      Statement [c.current] s 0 → s.placed inLoop = inLoop →
      Clean c (control inLoop c.current s) (SoundStmt n inLoop c) := by
    intro k s eq rule placed
    rw [control_eq]
    split
    · rename_i yes
      refine (ensures_step.bind ?_).clean
      rintro - d rfl
      exact ensures_pure ⟨_, 0, hc.takes_step (by simp [eq]), rule, Nat.zero_le n,
        placed.trans yes⟩
    · exact (ensures_fail _ _ _).clean
  refine Clean.peek_bind ?_
  split
  · rename_i eq
    exact (sound_printing hc eq).clean
  · rename_i eq
    exact (sound_declaration hc eq).clean
  · rename_i eq
    exact sound_conditional hc (adv inLoop) (hr inLoop) eq
  · rename_i eq
    exact sound_repetition hc (adv true) (hr true) eq
  · rename_i eq
    exact controls eq (.leave eq) rfl
  · rename_i eq
    exact controls eq (.again eq) rfl
  · refine (hr inLoop _ c hc).bind (adv _ _) (fun _ => advances_pure _) ?_
    rintro b d ⟨w, l, take, braced, le, placed⟩
    exact (ensures_pure ⟨w, l, take, .block braced, le, placed⟩).clean
  · exact (sound_assignment hc).clean
  · exact (ensures_unexpected _ _).clean

end Statements

/-! ## Sequences and blocks -/

section Sequences

variable {n : Nat} {inLoop : Bool} {r : Reading Stmt} {ends : Token → Bool} {c d : Cursor}

/-- A statement that is dropped leaves a fault behind. -/
theorem eq_ok_of_attempt (adv : r.Advances) (same : (attempt r c).2.faults = c.faults) :
    ∃ s, r c = (.ok s, (attempt r c).2) := by
  have first := adv c
  rcases h : r c with ⟨fault | s, d⟩
  · rw [attempt_of_eq_error h] at same
    rw [h] at first
    have more := (Cursor.leadsTo_recover (d.report fault) c).faults.length_le
    have least : c.faults.length ≤ d.faults.length := first.faults.length_le
    have same : ((d.report fault).recover c).faults = c.faults := same
    rw [same] at more
    have longer : (d.report fault).faults.length = d.faults.length + 1 := List.length_append
    omega
  · exact ⟨s, by rw [attempt_of_eq_ok h]⟩

/-- A sequence that is read without fault begins with a statement read without fault. -/
theorem eq_ok_of_sequence (adv : r.Advances) (hs : ends c.current.token = false) {body : List Stmt}
    (h : sequence ends r c = (.ok body, d)) (same : d.faults = c.faults) :
    ∃ s e, r c = (.ok s, e) ∧ e.faults = c.faults := by
  have first := leadsTo_attempt adv c
  have later : (attempt r c).2.LeadsTo d := by
    unfold sequence at h
    rw [statements_eq, hs, if_neg Bool.false_ne_true] at h
    rcases eq : attempt r c with ⟨s, e⟩
    rw [eq] at h
    by_cases lt : e.ahead.length < c.ahead.length
    · simp only [if_pos lt] at h
      cases h
      exact leadsTo_statements adv ends _ e
    · simp only [if_neg lt] at h
      cases h
      exact .refl _
  have none := first.faults_eq later same
  obtain ⟨s, read⟩ := eq_ok_of_attempt adv none
  exact ⟨s, _, read, none⟩

/-- Statements that are read without fault are derived, up to the last of them. -/
theorem sound_sequence (adv : r.Advances)
    (hr : ∀ c : Cursor, c.Closed → Clean c r (SoundStmt n inLoop c)) (hc : c.Closed) :
    Clean c (sequence ends r) fun body d =>
      ∃ w l, c.Takes w d ∧ Sequence w body l ∧ l ≤ n ∧ allPlaced inLoop body = true := by
  -- every statement takes a lexeme, so fewer are ahead of the next one
  induction len : c.ahead.length using Nat.strongRecOn generalizing c with
  | ind m ih =>
    intro body d h same
    rcases hs : ends c.current.token with _ | _
    · obtain ⟨s, e, read, first⟩ := eq_ok_of_sequence adv hs h same
      obtain ⟨u, k, take, stmt, le, placed⟩ := hr c hc s e read first
      have lt : e.ahead.length < c.ahead.length := by
        obtain ⟨x, v, rfl, -⟩ := stmt.exists_cons
        rw [take.ahead, List.length_append, List.length_cons]
        omega
      rw [sequence_of_eq_ok hs read lt] at h
      obtain ⟨rest, d', h', last⟩ := bind_eq_ok_iff.1 h
      cases last
      obtain ⟨v, l, take', tail, le', placed'⟩ :=
        ih _ (len ▸ lt) (take.closed hc) rfl rest d h' (same.trans first.symm)
      exact ⟨u ++ v, max k l, take.append take', .cons stmt tail, Nat.max_le.2 ⟨le, le'⟩,
        Bool.and_eq_true_iff.2 ⟨placed, placed'⟩⟩
    · rw [sequence_of_stop hs] at h
      cases h
      exact ⟨[], 0, .nil c, .nil, Nat.zero_le n, rfl⟩

end Sequences

/-- A block that is read without fault is derived. -/
theorem sound_block (n : Nat) : SoundBlocks n (block n) := by
  induction n with
  | zero => exact fun inLoop after c hc => (ensures_peek.bind fun x d _ => ensures_fail _ _ _).clean
  | succ n ih =>
    intro inLoop after c hc
    have adv := advances_statement n inLoop
    rw [block_succ]
    refine (ensures_expect hc (by simp) _).clean.bind (advances_expect _ _) (fun _ =>
      (advances_sequence adv _).bind fun _ => (advances_expect _ _).bind fun _ =>
        advances_pure _) ?_
    rintro x d ⟨left, first⟩
    have hd := first.closed hc
    refine (sound_sequence adv (fun c hc => sound_statement hc (advances_block n) ih) hd).bind
      (advances_sequence adv _) (fun _ => (advances_expect _ _).bind fun _ => advances_pure _) ?_
    rintro body d ⟨w, l, take, seq, le, placed⟩
    refine ((ensures_expect (take.closed hd) (by simp) _).bind ?_).clean
    rintro y d ⟨right, last⟩
    exact ensures_pure ⟨_, l + 1, first.cons (take.append last), .intro left seq right,
      Nat.succ_le_succ le, placed⟩

end GujaratiScript
