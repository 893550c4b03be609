import GujaratiScript.Proofs.Reading.Depth

/-!
# Earlier faults change nothing

No reader looks at the faults that were met before. So whatever is read with more faults behind is
read as without them, and they come before those that are met on the way.

* `Cursor.behind` : a cursor with more faults met before;
* `matching_behind` : the basic readers do the same there, and so all readers do;
* `Cursor.remainder` : the faults from a place to the end of a program.
-/

namespace GujaratiScript

open Reading

/-! ## Cursors -/

namespace Cursor

/-- The cursor with the faults `fs` met before all others. -/
def behind (fs : List ParseFault) (c : Cursor) : Cursor := ⟨c.ahead, c.endMark, fs ++ c.faults⟩

variable (fs : List ParseFault) (c : Cursor)

/-- Earlier faults have no part in the lexemes ahead. -/
@[simp] theorem ahead_behind : (c.behind fs).ahead = c.ahead := rfl

/-- Earlier faults have no part in the current lexeme. -/
@[simp] theorem current_behind : (c.behind fs).current = c.current := rfl

/-- A fault is reported behind the earlier ones. -/
theorem report_behind (fault : ParseFault) :
    (c.behind fs).report fault = (c.report fault).behind fs := by
  unfold report behind
  rw [List.append_assoc]

/-- Recovery looks at positions alone. -/
theorem recover_behind (start : Cursor) :
    (c.behind fs).recover (start.behind fs) = (c.recover start).behind fs := by
  unfold recover
  rw [ahead_behind, ahead_behind]
  split <;> rfl

end Cursor

/-- With more faults behind, reading does what it does without them. -/
theorem matching_behind (fs : List ParseFault) :
    Matching.Trials (fun _ => True) (fun c d : Cursor => d = c.behind fs) where
  current := by
    rintro c _ rfl
    rfl
  seen _ := trivial
  step := by
    rintro c _ rfl
    rfl
  nest := by
    rintro c _ (_ | levels) span rfl <;> exact ⟨rfl, rfl⟩
  restore _ h := h
  enterLoop h := h
  exitLoop h := h
  insideLoop _ _ := rfl
  trial h := h
  resume := by
    rintro c c' _ _ fault rfl rfl -
    show ((c'.behind fs).report fault).recover (c.behind fs) = _
    rw [Cursor.report_behind, Cursor.recover_behind]
    rfl
  left := by
    rintro c c' _ _ rfl rfl
    exact Iff.rfl

/-! ## Whole programs -/

namespace Cursor

/-- The faults from here to the end of the program, with those met before. -/
def remainder (c : Cursor) : List ParseFault :=
  let d := (sequence Token.endsProgram (statement maxNesting false (block maxNesting)) c).2
  if d.current.token == .word .aavjoBhai then d.faults
  else d.faults ++ [⟨.expectedEnd, d.current.span⟩]

/-- What is left behind a program depends on where its statements end only. -/
theorem remainder_congr {c d : Cursor}
    (h : (sequence Token.endsProgram (statement maxNesting false (block maxNesting)) c).2 =
      (sequence Token.endsProgram (statement maxNesting false (block maxNesting)) d).2) :
    c.remainder = d.remainder := by
  unfold remainder
  rw [h]

/-- Faults that were met before stand before those that are met from here on. -/
theorem remainder_behind (fs : List ParseFault) (c : Cursor) :
    (c.behind fs).remainder = fs ++ c.remainder := by
  have statement := matches_statement (matching_behind fs) closedUnderUpTo_true maxNesting false
  have after := (statement.sequence (matching_behind fs) Token.endsProgram c _ rfl).rel
  unfold remainder
  rw [after]
  dsimp only
  rw [current_behind]
  split
  · rfl
  · exact List.append_assoc _ _ _

/-- The faults of a program are those behind its first fence. -/
theorem faults_readProgram {xs : List Lexeme} {x : Lexeme} {w : List Lexeme} {mark : Lexeme}
    (seen : ofLexemes xs = ⟨x :: w, mark, []⟩) (fence : x.token = .word .kemBhai) :
    (Parser.ofLexemes xs).readProgram.2.faults = remainder ⟨w, mark, []⟩ := by
  have passed : sequence Token.endsProgram (statement maxNesting false (block maxNesting))
      (Cursor.mk w mark []) = (.ok _, _) := rfl
  unfold Parser.readProgram
  rw [show (Parser.ofLexemes xs).source = ⟨x :: w, mark, []⟩ from seen, program,
    bind_eq_of_eq_ok (peek_cons _ _ mark []), if_pos (beq_iff_eq.2 fence),
    bind_eq_of_eq_ok (step_cons _ _ mark []), bind_eq_of_eq_ok passed]
  unfold remainder sequence
  generalize statements Token.endsProgram (statement maxNesting false (block maxNesting)) []
    (Cursor.mk w mark []) = out
  obtain ⟨body, d⟩ := out
  rw [bind_eq_of_eq_ok (show peek d = (.ok d.current, d) from rfl)]
  dsimp only
  by_cases here : (d.current.token == .word .aavjoBhai) = true
  · rw [if_pos here, if_pos here]
    rcases d with ⟨ahead, mark', _ | ⟨first, fs⟩⟩ <;> rfl
  · rw [if_neg here, if_neg here]
    rfl

end Cursor

end GujaratiScript
