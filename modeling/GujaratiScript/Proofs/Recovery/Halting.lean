import GujaratiScript.Proofs.Grammar.Completeness
import GujaratiScript.Proofs.Reading.Careful

/-!
# Where a failing statement stops

An expression never takes the first token of a statement, a brace or the last fence. So a statement
without blocks that cannot be read stops before the first such token behind its own first one, and
recovery goes on just there.

* `Cursor.Resumes` : a place where recovery goes on; `Cursor.Nears` : plain tokens before it;
* `Careful.halts` : a careful reader of plain tokens does not pass such a place;
* `block_of_nears`, `startsAt_statement` : what the readers of blocks and statements do;
* `attempt_of_error` : a failing statement is skipped.
-/

namespace GujaratiScript

/-! ## Places where recovery goes on -/

namespace Cursor

/-- A statement begins here, or the program ends. -/
def Resumes (e : Cursor) : Prop :=
  ∃ y w, e.ahead = y :: w ∧ (y.token.opensStatement = true ∨ y.token = .word .aavjoBhai)

/-- There are only plain tokens before the place `e`. -/
def Nears (c e : Cursor) : Prop :=
  ∃ u, c = ⟨u ++ e.ahead, e.endMark, e.faults⟩ ∧ ∀ x ∈ u, x.token.isPlain = true

variable {c e : Cursor}

/-- A place is near itself. -/
theorem Nears.refl (e : Cursor) : e.Nears e := ⟨[], rfl, List.forall_mem_nil _⟩

/-- Reporting a fault at both keeps them near. -/
theorem Nears.report (h : c.Nears e) (fault : ParseFault) :
    (c.report fault).Nears (e.report fault) := by
  obtain ⟨u, rfl, plain⟩ := h
  exact ⟨u, rfl, plain⟩

/-- At such a place, no block begins and no expression goes on. -/
theorem Resumes.current (h : e.Resumes) :
    e.current.token ≠ .leftBrace ∧ e.current.token.isPlain = false := by
  obtain ⟨y, w, eq, here⟩ := h
  have current : e.current = y := by rw [Cursor.current, eq]
  rw [current]
  rcases here with opens | fence
  · refine ⟨?_, by simp [Token.isPlain, opens]⟩
    intro brace
    rw [brace] at opens
    cases opens
  · rw [fence]
    exact ⟨Token.noConfusion, rfl⟩

section

variable (he : e.Resumes)

include he

/-- Before such a place, a plain token is one of those before it. -/
theorem Nears.exists_cons (h : c.Nears e) (plain : c.current.token.isPlain = true) :
    ∃ x u, c = ⟨x :: (u ++ e.ahead), e.endMark, e.faults⟩ ∧ ∀ y ∈ u, y.token.isPlain = true := by
  obtain ⟨_ | ⟨x, u⟩, rfl, all⟩ := h
  · rw [show current ⟨[] ++ e.ahead, e.endMark, e.faults⟩ = e.current from rfl,
      he.current.2] at plain
    cases plain
  · exact ⟨x, u, rfl, fun y mem => all y (List.mem_cons_of_mem x mem)⟩

/-- Over a plain token a step comes nearer. -/
theorem Nears.step (h : c.Nears e) (plain : c.current.token.isPlain = true) : c.step.Nears e := by
  obtain ⟨x, u, rfl, all⟩ := h.exists_cons he plain
  exact ⟨u, rfl, all⟩

/-- No block opens before the place: an opening brace is not plain. -/
theorem Nears.ne_leftBrace (h : c.Nears e) : c.current.token ≠ .leftBrace := by
  obtain ⟨_ | ⟨x, u⟩, rfl, all⟩ := h
  · exact he.current.1
  · intro brace
    have plain := all x List.mem_cons_self
    rw [show x.token = .leftBrace from brace] at plain
    cases plain

/-- Skipping leads just there. -/
theorem Nears.skip (h : c.Nears e) : c.skip = e := by
  obtain ⟨u, rfl, all⟩ := h
  obtain ⟨y, w, eq, here⟩ := he
  have goes : ∀ x ∈ u, (!(x.token.opensStatement || x.token == .rightBrace ||
      x.token == .word .aavjoBhai)) = true := by
    intro x mem
    have plain := all x mem
    simp only [Token.isPlain, Bool.not_eq_true', Bool.or_eq_false_iff] at plain ⊢
    exact ⟨⟨plain.1.1.1, plain.1.2⟩, plain.2⟩
  have stops : ¬ (!(y.token.opensStatement || y.token == .rightBrace ||
      y.token == .word .aavjoBhai)) = true := by
    rcases here with opens | fence
    · simp [opens]
    · simp [fence]
  have here : e.ahead.dropWhile (fun x => !(x.token.opensStatement || x.token == .rightBrace ||
      x.token == .word .aavjoBhai)) = e.ahead := by
    rw [eq]
    exact List.dropWhile_cons_of_neg stops
  unfold Cursor.skip
  dsimp only
  rw [List.dropWhile_append_of_pos goes, here]

end

end Cursor

/-! ## Readers that do not pass such a place -/

namespace Reading

variable {α β : Type} {c e : Cursor}

/-- If there are only plain tokens from `c` to `e`, the reader `r` stops before `e` or there. -/
def HaltsAt (e c : Cursor) (r : Reading α) : Prop := c.Nears e → (r c).2.Nears e

/-- Readers in sequence halt if each of them does. -/
theorem HaltsAt.bind {r : Reading α} {f : α → Reading β} (hr : HaltsAt e c r)
    (hf : ∀ a d, HaltsAt e d (f a)) : HaltsAt e c (r >>= f) := by
  intro h
  have first := hr h
  rw [bind_apply]
  generalize r c = out at first ⊢
  rcases out with ⟨fault | a, d⟩
  · exact first
  · exact hf a d first

/-- A reader that takes none but plain tokens stops before such a place or there. -/
theorem Careful.halts {taken : Prop} {r : Reading α} (he : e.Resumes)
    (h : Careful (fun t => t.isPlain = true) taken c r) : HaltsAt e c r := by
  induction h with
  | pure a _ => exact fun nears => nears
  | fail cause => exact fun nears => nears
  | take plain => exact fun nears => nears.step he plain
  | take_bind plain _ ih => exact fun nears => ih (nears.step he plain)
  | step_bind plain _ ih => exact fun nears => ih (nears.step he plain)
  | peek_bind _ ih => exact ih
  | at?_bind t _ ih => exact ih
  | insideLoop_bind told _ ih => exact ih
  | nest_bind levels _ ih =>
    cases levels with
    | zero => exact fun nears => nears
    | succ n => exact ih _ rfl
  | restoring _ ih => exact ih
  | looping _ ih => exact ih
  | bind _ _ first last => exact first.bind last
  | sequence _ any _ _ _ =>
    -- a brace is not plain, so that a sequence is not careful in this way
    have brace : Token.leftBrace.isPlain = true := any _ Token.noConfusion
    cases brace

end Reading

open Reading

section

variable {e : Cursor} (he : e.Resumes)

include he

/-! ## Statements -/

/-- Where there is no brace, no block is read. -/
theorem block_of_nears {c : Cursor} (h : c.Nears e) (n : Nat) (inLoop : Bool) (after : String) :
    ∃ fault, block n inLoop after c = (.error fault, c) := by
  cases n with
  | zero => exact ⟨_, rfl⟩
  | succ n =>
    have missing : expect .leftBrace after c =
        (.error ⟨.expectedToken .leftBrace after, c.current.span⟩, c) := by
      show (if c.current.token == .leftBrace then _ else _ : Reading Lexeme) c = _
      rw [if_neg fun here => h.ne_leftBrace he (beq_iff_eq.1 here)]
      rfl
    refine ⟨⟨.expectedToken .leftBrace after, c.current.span⟩, ?_⟩
    rw [block_succ, bind_apply, missing]

/-- A block cannot begin before such a place or there, so what comes behind it is not reached. -/
theorem haltsAt_block_bind {β : Type} {c : Cursor} (n : Nat) (inLoop : Bool) (after : String)
    (f : Block → Reading β) : HaltsAt e c (block n inLoop after >>= f) := by
  intro nears
  obtain ⟨fault, failed⟩ := block_of_nears he nears n inLoop after
  rw [bind_apply, failed]
  exact nears

/-- From `c`, the reader `r` takes nothing, or stops before `e` or there. -/
def StartsAt (e c : Cursor) {α : Type} (r : Reading α) : Prop := (r c).2 = c ∨ (r c).2.Nears e

section

variable {u : List Lexeme} (plain : ∀ z ∈ u, z.token.isPlain = true)

omit he

/-- A look takes nothing. -/
theorem startsAt_peek_bind {α : Type} {c : Cursor} {f : Lexeme → Reading α}
    (h : StartsAt e c (f c.current)) : StartsAt e c (peek >>= f) := h

include plain

/-- What is read behind the first token meets plain tokens only. -/
theorem startsAt_take_bind {α : Type} {x : Lexeme} {f : Lexeme → Reading α}
    (h : HaltsAt e ⟨u ++ e.ahead, e.endMark, e.faults⟩ (f x)) :
    StartsAt e ⟨x :: (u ++ e.ahead), e.endMark, e.faults⟩ (take >>= f) :=
  .inr (h ⟨u, rfl, plain⟩)

/-- A name is plain, so reading may go on behind it. -/
theorem startsAt_expectName_bind {α : Type} {name text : String} {span : Span}
    {f : Ident → Reading α} (h : HaltsAt e ⟨u ++ e.ahead, e.endMark, e.faults⟩ (f ⟨name, span⟩)) :
    StartsAt e ⟨⟨.ident name, text, span⟩ :: (u ++ e.ahead), e.endMark, e.faults⟩
      (expectName >>= f) :=
  .inr (h ⟨u, rfl, plain⟩)

include he

/-- A statement outside of loops that has plain tokens between its first token and such a place
takes nothing, or stops before the place or there. -/
theorem startsAt_statement {x : Lexeme} (brace : x.token ≠ .leftBrace) (n m : Nat) :
    StartsAt e ⟨x :: (u ++ e.ahead), e.endMark, e.faults⟩ (statement n false (block m)) := by
  have allowed : ∀ t : Token, t.isPlain = true → t ≠ .eof → t.isPlain = true := fun _ h _ => h
  have value (c : Cursor) : Careful (fun t => t.isPlain = true) True c (expression n .lowest) :=
    careful_expression allowed n _
  have che (c : Cursor) :
      Careful (fun t => t.isPlain = true) True c (expect (.word .che) "variable name") :=
    careful_expect (show Token.isPlain _ = true from rfl) _
  have halts {α : Type} {c : Cursor} {r : Reading α}
      (h : Careful (fun t => t.isPlain = true) True c r) : HaltsAt e c r := h.halts he
  apply startsAt_peek_bind
  rcases x with ⟨t, text, span⟩
  cases t with
  | word k =>
    cases k with
    | bhaiBol =>
      exact startsAt_take_bind plain (halts ((value _).bind fun _ _ => .pure _ trivial))
    | aa =>
      exact startsAt_take_bind plain (halts ((careful_expectName allowed).bind
        fun _ d => (che d).bind fun _ d => (value d).bind fun _ _ => .pure _ trivial))
    | jo =>
      exact startsAt_take_bind plain ((halts (value _)).bind fun _ _ =>
        haltsAt_block_bind he m _ _ _)
    | farvu => exact startsAt_take_bind plain (haltsAt_block_bind he m _ _ _)
    | tameJao => exact .inl rfl
    | aagalVado => exact .inl rfl
    | _ => exact .inl rfl
  | leftBrace => exact absurd rfl brace
  | ident name =>
    exact startsAt_expectName_bind plain (halts ((che _).bind fun _ d =>
      (value d).bind fun _ _ => .pure _ trivial))
  | _ => exact .inl rfl

end

/-- If the statement cannot be read, it is skipped up to the place, with its fault reported. -/
theorem attempt_of_error {x : Lexeme} {u : List Lexeme} (plain : ∀ z ∈ u, z.token.isPlain = true)
    (brace : x.token ≠ .leftBrace) {n m : Nat} {fault : ParseFault}
    (failed : (statement n false (block m)
      (Cursor.mk (x :: (u ++ e.ahead)) e.endMark e.faults)).1 = .error fault) :
    attempt (statement n false (block m)) (Cursor.mk (x :: (u ++ e.ahead)) e.endMark e.faults) =
      (none, e.report fault) := by
  have stops := startsAt_statement he plain brace n m
  have he' : (e.report fault).Resumes := he
  have behind : Cursor.Nears ⟨u ++ e.ahead, e.endMark, e.faults ++ [fault]⟩ (e.report fault) :=
    ⟨u, rfl, plain⟩
  unfold StartsAt at stops
  -- the reading has stopped at its start, at the place `e`, or before it
  obtain ⟨d, eq⟩ : ∃ d, statement n false (block m)
      (Cursor.mk (x :: (u ++ e.ahead)) e.endMark e.faults) = (.error fault, d) :=
    ⟨_, Prod.ext failed rfl⟩
  rw [eq] at stops
  refine (attempt_of_eq_error eq).trans (congrArg (Prod.mk none) ?_)
  show (d.report fault).recover _ = _
  unfold Cursor.recover
  rcases stops with rfl | nears
  · exact (if_pos rfl).trans (behind.skip he')
  · have there := nears.report fault
    split
    · -- as much is left as before, so that the place is not reached yet
      rename_i same
      obtain ⟨_ | ⟨z, v⟩, rfl, all⟩ := nears
      · simp at same
        omega
      · have next : Cursor.Nears ⟨v ++ e.ahead, e.endMark, e.faults ++ [fault]⟩ (e.report fault) :=
          ⟨v, rfl, fun y mem => all y (List.mem_cons_of_mem z mem)⟩
        exact next.skip he'
    · exact there.skip he'

end

end GujaratiScript
