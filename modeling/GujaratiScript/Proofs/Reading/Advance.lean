import GujaratiScript.Proofs.Reading.Built

/-!
# Reading only goes forward

Whatever a reader does, the tokens it leaves are an end of those it met, the end mark is the same
and no fault is forgotten.

* `Cursor.LeadsTo` : this relation between the cursor before a reading and the one after it;
* `Reading.Advances` : a reader that keeps to it from every cursor; `Built.advances` : the readers
  of the grammar do;
* `expression_succ`, `chain_succ`, `block_succ` : a cursor is told how many levels are left, and
  nothing has to be set back.
-/

namespace GujaratiScript

/-! ## Cursors -/

namespace Cursor

/-- A cursor that reading from `c` may lead to. -/
structure LeadsTo (c d : Cursor) : Prop where
  ahead : d.ahead <:+ c.ahead
  endMark : d.endMark = c.endMark
  faults : c.faults <+: d.faults

namespace LeadsTo

/-- A cursor leads to itself. -/
theorem refl (c : Cursor) : c.LeadsTo c :=
  ⟨List.suffix_rfl, rfl, List.prefix_rfl⟩

/-- Readers in sequence lead as far as both do. -/
theorem trans {c d e : Cursor} (h : c.LeadsTo d) (h' : d.LeadsTo e) : c.LeadsTo e :=
  ⟨h'.ahead.trans h.ahead, h'.endMark.trans h.endMark, h.faults.trans h'.faults⟩

/-- If no fault was met on the way to `e`, none was met on the way to a cursor before it. -/
theorem faults_eq {c d e : Cursor} (h : c.LeadsTo d) (h' : d.LeadsTo e)
    (eq : e.faults = c.faults) : d.faults = c.faults := by
  have back : d.faults <+: c.faults := eq ▸ h'.faults
  exact (h.faults.eq_of_length (Nat.le_antisymm h.faults.length_le back.length_le)).symm

end LeadsTo

/-- Stepping over a lexeme leads forward. -/
theorem leadsTo_step (c : Cursor) : c.LeadsTo c.step :=
  ⟨List.tail_suffix _, rfl, List.prefix_rfl⟩

/-- Skipping to a place to go on leads forward. -/
theorem leadsTo_skip (c : Cursor) : c.LeadsTo c.skip :=
  ⟨List.dropWhile_suffix _, rfl, List.prefix_rfl⟩

/-- A reported fault is added behind the earlier ones. -/
theorem leadsTo_report (c : Cursor) (fault : ParseFault) : c.LeadsTo (c.report fault) :=
  ⟨List.suffix_rfl, rfl, List.prefix_append _ _⟩

/-- Recovery leads forward, with a step of its own or without. -/
theorem leadsTo_recover (c start : Cursor) : c.LeadsTo (c.recover start) := by
  unfold recover
  split
  · exact c.leadsTo_step.trans c.step.leadsTo_skip
  · exact c.leadsTo_skip

end Cursor

/-! ## Readers and their composition -/

namespace Reading

variable {α β : Type}

/-- A reader that goes forward from every cursor. -/
def Advances (r : Reading α) : Prop := ∀ c : Cursor, c.LeadsTo (r c).2

/-- Once the cursor `c` is passed, reading stays behind it. -/
theorem matching_leadsTo (c : Cursor) :
    Matching.Trials (fun _ => True) fun d e : Cursor => c.LeadsTo d ∧ e = d where
  current := by
    rintro _ d ⟨-, rfl⟩
    rfl
  seen _ := trivial
  step := by
    rintro _ d ⟨h, rfl⟩
    exact ⟨h.trans d.leadsTo_step, rfl⟩
  nest := by
    rintro _ d (_ | levels) span ⟨h, rfl⟩ <;> exact ⟨rfl, h, rfl⟩
  restore _ h := h
  enterLoop h := h
  exitLoop h := h
  insideLoop _ _ := rfl
  trial h := h
  resume := by
    rintro _ _ d d' fault ⟨-, rfl⟩ ⟨h, rfl⟩ -
    exact ⟨(h.trans (d'.leadsTo_report fault)).trans (Cursor.leadsTo_recover _ _), rfl⟩
  left := by
    rintro _ _ d d' ⟨-, rfl⟩ ⟨-, rfl⟩
    exact Iff.rfl

/-- Going forward is a way to match oneself. -/
theorem advances_iff {r : Reading α} : r.Advances ↔
    ∀ c : Cursor, Matches (fun _ => True) (fun d e : Cursor => c.LeadsTo d ∧ e = d) r r
      fun _ => True := by
  constructor
  · rintro h c _ d ⟨led, rfl⟩
    exact ⟨rfl, ⟨led.trans (h d), rfl⟩, fun _ _ => trivial, fun _ _ => trivial⟩
  · exact fun h c => ((h c) c c ⟨.refl c, rfl⟩).rel.1

/-- The readers of the grammar go forward. -/
theorem Built.advances {r : Reading α} {post : α → Prop}
    (h : Built (fun _ _ => True) (fun _ => True) r r post) : r.Advances :=
  fun c => (h.matches (matching_leadsTo c) c c ⟨.refl c, rfl⟩).rel.1

/-- A reader that reads nothing stays where it is. -/
theorem advances_pure (a : α) : Advances (pure a) := fun c => .refl c

/-- A look at the token ahead stays where it is. -/
theorem advances_at? (t : Token) : Advances (at? t) := fun c => .refl c

/-- Taking a lexeme leads one step forward. -/
theorem advances_take : Advances take := fun c => c.leadsTo_step

/-- Passing over a lexeme leads one step forward. -/
theorem advances_step : Advances step := fun c => c.leadsTo_step

/-- A token that is expected is passed over or blamed, never put back. -/
theorem advances_expect (t : Token) (after : String) : Advances (expect t after) :=
  (built_expect t after).advances

/-- Readers in sequence lead forward if each of them does. -/
theorem Advances.bind {x : Reading α} {f : α → Reading β} (hx : x.Advances)
    (hf : ∀ a, (f a).Advances) : (x >>= f).Advances :=
  advances_iff.2 fun c => (advances_iff.1 hx c).bind fun a _ => advances_iff.1 (hf a) c

section

variable {r : Reading Stmt} (h : r.Advances)

include h

/-- An attempt goes forward also when it ends with a fault. -/
theorem leadsTo_attempt (c : Cursor) : c.LeadsTo (attempt r c).2 :=
  ((advances_iff.1 h c).attempt (matching_leadsTo c) ⟨.refl c, rfl⟩).2.1.1

/-- Reading statement after statement leads forward, also over those given up. -/
theorem leadsTo_statements (ends : Token → Bool) (read : List Stmt) (c : Cursor) :
    c.LeadsTo (statements ends r read c).2 :=
  ((advances_iff.1 h c).statements (matching_leadsTo c) ends (fun _ _ => trivial)
    ⟨.refl c, rfl⟩).2.1.1

/-- Statements in sequence lead forward if the single one does. -/
theorem advances_sequence (ends : Token → Bool) : Advances (sequence ends r) :=
  fun c => leadsTo_statements h ends [] c

end

end Reading

/-! ## The readers of the grammar -/

open Reading

/-- Expressions of every tier lead forward. -/
theorem advances_expression (n : Nat) (t : Tier) : Advances (expression n t) :=
  (built_expression closedUnderUpTo_true n t).advances

/-- A chain of operators leads forward from behind its first operand. -/
theorem advances_chain (n : Nat) (t : Tier) (left : Expr) : Advances (chain n t left) :=
  ((built_expression_chain closedUnderUpTo_true n).2 t left fun _ _ => trivial).advances

/-- Blocks lead forward. -/
theorem advances_block (n : Nat) (inLoop : Bool) (after : String) :
    Advances (block n inLoop after) :=
  (built_block closedUnderUpTo_true (fun _ _ => trivial) n inLoop after).advances

/-- Statements lead forward. -/
theorem advances_statement (n : Nat) (inLoop : Bool) : Advances (statement n inLoop (block n)) :=
  (built_statement closedUnderUpTo_true n inLoop
    (built_block closedUnderUpTo_true (fun _ _ => trivial) n)).advances

/-- The part of a conditional behind its first block. -/
theorem advances_conditional_tail {r : String → Reading Block} (adv : ∀ after, (r after).Advances)
    (x : Lexeme) (e : Expr) (yes : Block) :
    Advances (do
      if ← at? (.word .nahiTo) then
        step
        let no ← r "'nahi to'"
        pure (.branch e yes (some no) (x.span.upTo no.span))
      else pure (.branch e yes none (x.span.upTo yes.span)) : Reading Stmt) := by
  refine (advances_at? _).bind fun other => ?_
  cases other
  · exact advances_pure _
  · exact advances_step.bind fun _ => (adv _).bind fun _ => advances_pure _

/-- The part of a program behind its statements. -/
theorem advances_program_tail (start : Span) (body : List Stmt) :
    Advances (do
      let last ← peek
      if last.token == .word .aavjoBhai then
        step
        pure ⟨body, start.upTo last.span⟩
      else fail .expectedEnd last.span : Reading Program) := by
  intro c
  show c.LeadsTo ((if c.current.token == .word .aavjoBhai then _ else _ : Reading Program) c).2
  split
  · exact c.leadsTo_step
  · exact .refl c

/-! ## Readers that are told about levels -/

/-- With no level left, no expression is read. -/
theorem expression_zero (t : Tier) :
    (expression 0 t : Reading Expr) = (do
      let x ← peek
      fail (.nestingTooDeep maxNesting) x.span) := rfl

/-- A cursor counts no levels, so there are none to set back. -/
theorem expression_succ (n : Nat) (t : Tier) :
    (expression (n + 1) t : Reading Expr) = (do
      let left ← operand (expression n)
      chain n t left) := rfl

/-- With no level left, no chain goes on. -/
theorem chain_zero (t : Tier) (left : Expr) :
    (chain 0 t left : Reading Expr) = (do
      let x ← peek
      if t < x.token.tier then fail (.nestingTooDeep maxNesting) x.span else pure left) := rfl

/-- With a level left, a chain goes on at an operator of a tighter tier. -/
theorem chain_succ (n : Nat) (t : Tier) (left : Expr) :
    (chain (n + 1) t left : Reading Expr) = (do
      let x ← peek
      if t < x.token.tier then do
        let e ← operation (expression n) left
        chain n t e
      else pure left) := rfl

/-- With no level left, no block is read. -/
theorem block_zero (inLoop : Bool) (after : String) :
    (block 0 inLoop after : Reading Block) = (do
      let x ← peek
      fail (.nestingTooDeep maxNesting) x.span) := rfl

/-- With a level left, a block is read from brace to brace. -/
theorem block_succ (n : Nat) (inLoop : Bool) (after : String) :
    (block (n + 1) inLoop after : Reading Block) = (do
      let first ← expect .leftBrace after
      let body ← sequence Token.endsBlock (statement n inLoop (block n))
      let last ← expect .rightBrace "block"
      pure ⟨body, first.span.upTo last.span⟩) := rfl

/-- A cursor notes no trial, and the tokens ahead of it show whether one was taken. -/
theorem statements_eq (ends : Token → Bool) (r : Reading Stmt) (read : List Stmt) (c : Cursor) :
    statements ends r read c =
      if ends c.current.token then (read.reverse, c)
      else
        let (x, d) := attempt r c
        let read := x.toList ++ read
        if d.ahead.length < c.ahead.length then statements ends r read d else (read.reverse, d) := by
  rw [statements]
  rfl

/-- A cursor takes what it is told about loops. -/
theorem control_eq (inLoop : Bool) (x : Lexeme) (s : Stmt) :
    (control inLoop x s : Reading Stmt) =
      if inLoop then do
        step
        pure s
      else fail (.controlOutsideLoop x.token) x.span := rfl

end GujaratiScript
