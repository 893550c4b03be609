import GujaratiScript.Proofs.Grammar.Soundness

/-!
# Which sequences of lexemes are programs

A sequence is read as a program iff the grammar derives it as that program, the loop control stands
inside loops and the derivation needs no more levels than there are.

* `Grammar.Fenced.unique` : the grammar derives at most one program, with one number of levels;
* `ofLexemes_of_fenced` : what is derived is read, or too deep nesting is reported;
* `ofLexemes_eq_ok_iff_fenced` : the sequences that are read, and what they are read as.
-/

namespace GujaratiScript

open Reading

/-! ## Loop control inside a loop -/

mutual

/-- Inside a loop all loop control is placed. -/
theorem Stmt.placed_true (s : Stmt) : s.placed true = true := by
  match s with
  | .print _ _ => rfl
  | .declare _ _ _ => rfl
  | .assign _ _ _ => rfl
  | .branch _ yes none _ => exact yes.placed_true
  | .branch _ yes (some no) _ =>
    exact Bool.and_eq_true_iff.2 ⟨yes.placed_true, no.placed_true⟩
  | .loop body _ _ => exact body.placed_true
  | .leave _ => rfl
  | .again _ => rfl
  | .block b => exact b.placed_true

theorem Block.placed_true (b : Block) : b.placed true = true := by
  match b with
  | ⟨body, _⟩ => exact allPlaced_true body

theorem allPlaced_true (body : List Stmt) : allPlaced true body = true := by
  match body with
  | [] => rfl
  | s :: rest => exact Bool.and_eq_true_iff.2 ⟨s.placed_true, allPlaced_true rest⟩

end

/-- Whether a token may stand between the fences: the last of them and the end mark may not. -/
def Token.isInner : Token → Bool
  | eof | word .aavjoBhai => false
  | _ => true

/-- What is an expression by itself is inner. -/
theorem Lexeme.isInner_of_leaf? {x : Lexeme} {e : Expr} (h : x.leaf? = some e) :
    x.token.isInner = true := by
  unfold Lexeme.leaf? at h
  unfold Token.isInner
  split
  case h_1 eof => simp only [eof, reduceCtorEq] at h
  case h_2 bye => simp only [bye, reduceCtorEq] at h
  case h_3 => rfl

namespace Grammar

/-! ## Derived lexemes -/

/-- Only inner tokens are part of an expression. -/
theorem Expression.inner {t : Tier} {w : List Lexeme} {e : Expr} {k l : Nat}
    (h : Expression t w e k l) : ∀ x ∈ w, x.token.isInner = true := by
  induction h with
  | @leaf x e h =>
    intro y mem
    rw [List.mem_singleton.1 mem]
    exact Lexeme.isInner_of_leaf? h
  | parens hx _ hy ih => simpa [Token.isInner, hx, hy, or_imp, forall_and] using ih
  | negate hx _ ih => simpa [Token.isInner, hx] using ih
  | binary _ hx _ ihl ihr => simpa [Token.isInner, hx, or_imp, forall_and] using ⟨ihl, ihr⟩
  | up _ ih => exact ih

mutual

/-- Only inner tokens are part of a statement. -/
theorem Statement.inner {w : List Lexeme} {s : Stmt} {l : Nat} (h : Statement w s l) :
    ∀ x ∈ w, x.token.isInner = true := by
  match h with
  | .print hx he => simpa [Token.isInner, hx] using he.inner
  | .declare hx hy hz he => simpa [Token.isInner, hx, hy, hz] using he.inner
  | .assign hy hz he => simpa [Token.isInner, hy, hz] using he.inner
  | .branch hx he hb =>
    simpa [Token.isInner, hx, or_imp, forall_and] using ⟨he.inner, hb.inner⟩
  | .branchElse hx he hb hy hc =>
    simpa [Token.isInner, hx, hy, or_imp, forall_and] using ⟨he.inner, hb.inner, hc.inner⟩
  | .loop hx hb hy he =>
    simpa [Token.isInner, hx, hy, or_imp, forall_and] using ⟨hb.inner, he.inner⟩
  | .leave hx => simp [Token.isInner, hx]
  | .again hx => simp [Token.isInner, hx]
  | .block hb => exact hb.inner

theorem Braced.inner {w : List Lexeme} {b : Block} {l : Nat} (h : Braced w b l) :
    ∀ x ∈ w, x.token.isInner = true := by
  match h with
  | .intro hx hs hy => simpa [Token.isInner, hx, hy, or_imp, forall_and] using hs.inner

theorem Sequence.inner {w : List Lexeme} {body : List Stmt} {l : Nat} (h : Sequence w body l) :
    ∀ x ∈ w, x.token.isInner = true := by
  match h with
  | .nil => exact List.forall_mem_nil _
  | .cons hs hv => simpa [or_imp, forall_and] using ⟨hs.inner, hv.inner⟩

end

/-! ## One program at most -/

/-- Two derivations that start at one place end at one place, with one result: both are what the
reader reads if it has the levels of the one and the other. -/
theorem Sequence.unique {u v : List Lexeme} {body body' : List Stmt} {l m : Nat} {x y : Lexeme}
    {rest rest' : List Lexeme} (h : Sequence u body l) (h' : Sequence v body' m)
    (hx : x.token = .word .aavjoBhai) (hy : y.token = .word .aavjoBhai)
    (eq : u ++ x :: rest = v ++ y :: rest') : body = body' ∧ x :: rest = y :: rest' ∧ m ≤ l := by
  have ends : Ends (.word .aavjoBhai) := ⟨rfl, by decide⟩
  have first := fun n =>
    h.yieldsIff n true (allPlaced_true body) stopsAt_aavjoBhai ends hx rest x []
  have second := fun n =>
    h'.yieldsIff n true (allPlaced_true body') stopsAt_aavjoBhai ends hy rest' x []
  rw [eq] at first
  -- with levels for both, one reading gives both results
  have same := ((first (max l m)).eq_of (Nat.le_max_left l m)).symm.trans
    ((second (max l m)).eq_of (Nat.le_max_right l m))
  simp only [Prod.mk.injEq, Except.ok.injEq, Cursor.mk.injEq, and_true] at same
  refine ⟨same.1, same.2, ?_⟩
  -- with levels for the first only, that reading meets no fault, so they are enough for the second
  by_cases le : m ≤ l
  · exact le
  · have deep := (second l).tooDeep_of le
    rw [(first l).eq_of (Nat.le_refl l)] at deep
    rcases deep with ⟨span, no⟩ | ⟨fault, mem, -⟩
    · cases no
    · cases mem

/-- The grammar derives a sequence as one program at most, and its levels are determined. -/
theorem Fenced.unique {w : List Lexeme} {p q : Program} {l m : Nat} (h : Fenced w p l)
    (h' : Fenced w q m) : p = q ∧ l = m := by
  rcases h with ⟨hx, hs, hy⟩
  generalize eq : _ :: _ = w at h'
  rcases h' with ⟨hx', hs', hy'⟩
  obtain ⟨rfl, tail⟩ := List.cons.inj eq
  obtain ⟨rfl, last, le⟩ := hs.unique hs' hy hy' tail
  obtain ⟨-, -, le'⟩ := hs'.unique hs hy' hy tail.symm
  obtain ⟨rfl, -⟩ := List.cons.inj last
  exact ⟨rfl, Nat.le_antisymm le' le⟩

/-- What follows the last fence does not matter, also if it is cut off at an end mark. -/
theorem Fenced.append {w : List Lexeme} {p : Program} {l : Nat} (h : Fenced w p l)
    (more : List Lexeme) : Fenced (w ++ more) p l := by
  rcases h with ⟨hx, hs, hy⟩
  rw [List.cons_append, List.append_assoc, List.cons_append]
  exact .intro hx hs hy

theorem Fenced.takeWhile {w : List Lexeme} {p : Program} {l : Nat} (h : Fenced w p l) :
    Fenced (w.takeWhile fun x => x.token ≠ .eof) p l := by
  rcases h with @⟨_, _, w, _, _, _, hx, hs, hy⟩
  have passed : ∀ x ∈ w, decide (x.token ≠ .eof) = true := by
    intro x mem
    rw [decide_eq_true_iff]
    intro eq
    have inner := hs.inner x mem
    rw [eq] at inner
    cases inner
  rw [List.takeWhile_cons_of_pos (by simp [hx]), List.takeWhile_append_of_pos passed,
    List.takeWhile_cons_of_pos (by simp [hy])]
  exact .intro hx hs hy

/-- A derived program is read if there are enough levels and its loop control is placed; if there
are too few levels, too deep nesting is reported. -/
theorem Fenced.yieldsIff {w : List Lexeme} {p : Program} {l : Nat} (n : Nat) (inLoop : Bool)
    (h : Fenced w p l) (hp : allPlaced inLoop p.body = true) (mark : Lexeme)
    (fs : List ParseFault) :
    ∃ rest,
      YieldsIff (l ≤ n) (program n inLoop (Cursor.mk w mark fs)) (.ok p, ⟨rest, mark, fs⟩) := by
  rcases h with @⟨x, y, w, rest, body, l, hx, hs, hy⟩
  refine ⟨rest, ?_⟩
  have inner := hs.yieldsIff n inLoop hp stopsAt_aavjoBhai ⟨rfl, by simp⟩ hy rest mark fs
  unfold program
  rw [bind_eq_of_eq_ok (peek_cons _ _ mark fs), if_pos (beq_iff_eq.2 hx),
    bind_eq_of_eq_ok (step_cons _ _ mark fs)]
  refine inner.bind_eq ?_ fun body => advances_program_tail x.span body
  rw [bind_eq_of_eq_ok (peek_cons _ _ mark fs), if_pos (beq_iff_eq.2 hy)]
  rfl

end Grammar

open Grammar

/-- A program that is read without fault is derived. -/
theorem sound_program (n : Nat) (inLoop : Bool) {c : Cursor} (hc : c.Closed) :
    Clean c (program n inLoop) fun p _ =>
      ∃ l, Fenced c.ahead p l ∧ l ≤ n ∧ allPlaced inLoop p.body = true := by
  -- no fault may be met on the way either, so every reader behind a statement must go forward
  have adv := advances_statement n inLoop
  have tail := advances_program_tail c.current.span
  refine Clean.peek_bind ?_
  split
  · rename_i first
    have first := beq_iff_eq.1 first
    have take := hc.takes_step (by simp [first])
    refine ensures_step.clean.bind advances_step
      (fun _ => (advances_sequence adv _).bind tail) ?_
    rintro - d rfl
    have hd := take.closed hc
    refine (sound_sequence adv (fun c hc => sound_statement hc (advances_block n)
      (sound_block n)) hd).bind (advances_sequence adv _) tail ?_
    rintro body d ⟨w, l, take', seq, le, placed⟩
    refine Clean.peek_bind ?_
    split
    · rename_i last
      have last := beq_iff_eq.1 last
      have take'' := (take'.closed hd).takes_step (by simp [last])
      refine (ensures_step.bind ?_).clean
      rintro - d rfl
      refine ensures_pure ⟨l, ?_, le, placed⟩
      rw [take.ahead, take'.ahead, take''.ahead]
      exact .intro first seq last
    · exact (ensures_fail _ _ _).clean
  · exact (ensures_fail _ _ _).clean

/-! ## Whole sequences -/

namespace Cursor

variable (xs : List Lexeme)

theorem ahead_ofLexemes :
    (ofLexemes xs).ahead =
      (xs.filter fun x => x.token ≠ .newline).takeWhile fun x => x.token ≠ .eof := by
  unfold ofLexemes
  simp only
  split <;> rfl

theorem faults_ofLexemes : (ofLexemes xs).faults = [] := by
  unfold ofLexemes
  simp only
  split <;> rfl

theorem closed_ofLexemes : (ofLexemes xs).Closed := by
  unfold Closed ofLexemes
  simp only
  split
  · unfold impliedEnd
    split <;> rfl
  · rename_i stop rest eq
    have := List.head?_dropWhile_not (fun x : Lexeme => decide (x.token ≠ .eof))
      (xs.filter fun x => x.token ≠ .newline)
    rw [eq] at this
    simpa using this

end Cursor

/-- A sequence is a program iff its reader gives one and has met no fault. -/
theorem ofLexemes_eq_ok_iff (xs : List Lexeme) (p : Program) :
    Program.ofLexemes xs = .ok p ↔
      ∃ d, program maxNesting false (Cursor.ofLexemes xs) = (.ok p, d) ∧ d.faults = [] := by
  rcases eq : program maxNesting false (Cursor.ofLexemes xs) with ⟨fault | q, d⟩
  · rw [ofLexemes_of_error eq]
    constructor
    · intro eq
      cases eq
    · rintro ⟨d, eq, -⟩
      cases eq
  · rw [ofLexemes_of_ok eq]
    split
    · rename_i none
      constructor
      · intro eq
        cases eq
        exact ⟨_, rfl, none⟩
      · rintro ⟨d, eq, -⟩
        cases eq
        rfl
    · rename_i some
      constructor
      · intro eq
        cases eq
      · rintro ⟨d, eq, none⟩
        cases eq
        exact absurd none some

/-- The faults of a sequence that is no program. -/
theorem ofLexemes_of_tooDeep {xs : List Lexeme}
    (h : TooDeep (program maxNesting false (Cursor.ofLexemes xs))) :
    ∃ faults, Program.ofLexemes xs = .error faults ∧
      ∃ fault ∈ faults, fault.cause = .nestingTooDeep maxNesting := by
  rcases eq : program maxNesting false (Cursor.ofLexemes xs) with ⟨fault | q, d⟩
  · rw [eq] at h
    refine ⟨_, ofLexemes_of_error eq, ?_⟩
    rcases h with ⟨span, h⟩ | ⟨fault', mem, h⟩
    · cases h
      exact ⟨_, List.mem_append_right _ List.mem_cons_self, rfl⟩
    · exact ⟨fault', List.mem_append_left _ mem, h⟩
  · rw [eq] at h
    rcases h with ⟨span, h⟩ | ⟨fault, mem, h⟩
    · cases h
    · have read := ofLexemes_of_ok eq
      rw [if_neg (List.ne_nil_of_mem mem)] at read
      exact ⟨_, read, fault, mem, h⟩

/-- A derived program with its loop control placed is read if it does not need more levels than
there are; if it does, too deep nesting is reported. -/
theorem ofLexemes_of_fenced {xs : List Lexeme} {p : Program} {l : Nat} (h : Fenced (solid xs) p l)
    (hp : allPlaced false p.body = true) :
    (l ≤ maxNesting → Program.ofLexemes xs = .ok p) ∧
      (¬ l ≤ maxNesting → ∃ faults, Program.ofLexemes xs = .error faults ∧
        ∃ fault ∈ faults, fault.cause = .nestingTooDeep maxNesting) := by
  have h := h.takeWhile
  unfold solid at h
  rw [← Cursor.ahead_ofLexemes] at h
  obtain ⟨rest, read⟩ := h.yieldsIff maxNesting false hp (Cursor.ofLexemes xs).endMark
    (Cursor.ofLexemes xs).faults
  constructor
  · intro le
    exact (ofLexemes_eq_ok_iff xs p).2 ⟨_, read.eq_of le, Cursor.faults_ofLexemes xs⟩
  · intro gt
    exact ofLexemes_of_tooDeep (read.tooDeep_of gt)

/-- A sequence that is read as a program is derived, with its loop control placed. -/
theorem fenced_of_ofLexemes {xs : List Lexeme} {p : Program} (h : Program.ofLexemes xs = .ok p) :
    ∃ l, Fenced (solid xs) p l ∧ l ≤ maxNesting ∧ allPlaced false p.body = true := by
  obtain ⟨d, read, none⟩ := (ofLexemes_eq_ok_iff xs p).1 h
  obtain ⟨l, derived, le, placed⟩ := sound_program maxNesting false (Cursor.closed_ofLexemes xs) p d
    read (none.trans (Cursor.faults_ofLexemes xs).symm)
  refine ⟨l, ?_, le, placed⟩
  have whole := derived.append ((solid xs).dropWhile fun x => x.token ≠ .eof)
  rw [Cursor.ahead_ofLexemes] at whole
  unfold solid at whole ⊢
  rwa [List.takeWhile_append_dropWhile] at whole

/-- The sequences that are programs, and which programs they are: the grammar derives them, apart
from line breaks, with no more levels than there are and the loop control inside loops. The program
and its levels are determined. -/
theorem ofLexemes_eq_ok_iff_fenced (xs : List Lexeme) :
    (∀ p, Program.ofLexemes xs = .ok p ↔
      ∃ levels, Fenced (xs.filter fun x => x.token ≠ .newline) p levels ∧
        levels ≤ maxNesting ∧ allPlaced false p.body = true) ∧
    ∀ p q l m, Fenced (xs.filter fun x => x.token ≠ .newline) p l →
      Fenced (xs.filter fun x => x.token ≠ .newline) q m → p = q ∧ l = m := by
  constructor
  · intro p
    constructor
    · exact fenced_of_ofLexemes
    · rintro ⟨l, derived, le, placed⟩
      exact (ofLexemes_of_fenced derived placed).1 le
  · intro p q l m h h'
    exact h.unique h'

end GujaratiScript
