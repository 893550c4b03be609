import GujaratiScript.Proofs.Grammar.Acceptance
import GujaratiScript.Proofs.Recovery.Halting
import GujaratiScript.Proofs.Recovery.Progress

/-!
# A fault stays in its statement

Valid statements are read without a trace in the faults. A failing statement without blocks leaves
one fault, and recovery goes on with the next statement. What is read then does not depend on the
faults that were met before. So the faults of the whole are that one and those of the rest.

* `snd_sequence_append` : valid statements before others are only passed;
* `snd_sequence_of_attempt` : a failing statement is only passed as well;
* `Cursor.remainder_of_error` : a failing statement adds its own fault to them;
* `fault_stays_contained` : the main statement.
-/

namespace GujaratiScript

open Reading Grammar

/-! ## Sequences that go on -/

/-- A sequence that goes on after its first statement ends where the others end. -/
theorem snd_sequence_of_eq_ok {ends : Token → Bool} {r : Reading Stmt} {c d : Cursor} {s : Stmt}
    (goes : ends c.current.token = false) (read : r c = (.ok s, d))
    (took : d.ahead.length < c.ahead.length) : (sequence ends r c).2 = (sequence ends r d).2 := by
  rw [sequence_of_eq_ok goes read took, bind_apply]
  rfl

/-- Valid statements before a token that ends statements are only passed. -/
theorem snd_sequence_append {stop : Token → Bool} {t : Token} (stops : StopsAt stop t) {n : Nat}
    {inLoop : Bool} {w : List Lexeme} {body : List Stmt} {l : Nat} (h : Sequence w body l)
    (le : l ≤ n) (placed : allPlaced inLoop body = true) {y : Lexeme} (ends : Ends y.token)
    (rest : List Lexeme) (mark : Lexeme) (fs : List ParseFault) :
    (sequence stop (reader n inLoop) (.mk (w ++ y :: rest) mark fs)).2 =
      (sequence stop (reader n inLoop) (.mk (y :: rest) mark fs)).2 := by
  match h with
  | .nil => rfl
  | @Sequence.cons u v s body k m hs hv =>
    rw [allPlaced, Bool.and_eq_true] at placed
    obtain ⟨z, more, follows, endsHere⟩ := hv.exists_ends rest ends
    obtain ⟨x, u', rfl, opens⟩ := hs.exists_cons
    have read := (hs.yieldsIff n inLoop placed.1 z more mark fs endsHere).eq_of
      (Nat.le_trans (Nat.le_max_left k m) le)
    have took : (z :: more).length < (x :: (u' ++ z :: more)).length := by
      simp only [List.length_cons, List.length_append]
      omega
    rw [List.append_assoc, follows]
    refine (snd_sequence_of_eq_ok (stops.opens x.token opens) read took).trans ?_
    rw [← follows]
    exact snd_sequence_append stops hv (Nat.le_trans (Nat.le_max_right k m) le) placed.2 ends rest
      mark fs

/-! ## Whole programs -/

namespace Cursor

/-- Behind valid statements, a failing one leaves its fault, and what comes behind is read as if it
were there alone. -/
theorem remainder_of_error {w u ahead : List Lexeme} {x mark : Lexeme} {body : List Stmt}
    {levels : Nat} {fault : ParseFault} (derived : Grammar.Sequence w body levels)
    (shallow : levels ≤ maxNesting) (placed : allPlaced false body = true) (ends : Ends x.token)
    (flat : x.token ≠ .leftBrace ∧ x.token ≠ .word .aavjoBhai ∧ x.token ≠ .eof)
    (plain : ∀ y ∈ u, y.token.isPlain = true) (resumes : Resumes ⟨ahead, mark, []⟩)
    (failed : (reader maxNesting false ⟨x :: (u ++ ahead), mark, []⟩).1 = .error fault) :
    remainder ⟨w ++ x :: (u ++ ahead), mark, []⟩ = fault :: remainder ⟨ahead, mark, []⟩ := by
  obtain ⟨brace, fence, eof⟩ := flat
  have goes : x.token.endsProgram = false := by
    simp [Token.endsProgram, fence, eof]
  have skipped : attempt (reader maxNesting false) ⟨x :: (u ++ ahead), mark, []⟩ =
      (none, behind [fault] ⟨ahead, mark, []⟩) :=
    attempt_of_error resumes plain brace failed
  have took : ahead.length < (x :: (u ++ ahead)).length := by
    rw [List.length_cons, List.length_append]
    omega
  calc remainder ⟨w ++ x :: (u ++ ahead), mark, []⟩
    _ = remainder ⟨x :: (u ++ ahead), mark, []⟩ :=
      remainder_congr (snd_sequence_append stopsAt_aavjoBhai derived shallow placed ends _ mark [])
    _ = remainder (behind [fault] ⟨ahead, mark, []⟩) :=
      remainder_congr (snd_sequence_of_attempt goes skipped took)
    _ = fault :: remainder ⟨ahead, mark, []⟩ := remainder_behind [fault] _

/-- Lexemes without an end mark before others are what is ahead first. -/
theorem ofLexemes_append (xs ys : List Lexeme) (inner : ∀ x ∈ solid xs, x.token ≠ .eof)
    (some : solid ys ≠ []) : ofLexemes (xs ++ ys) =
      ⟨solid xs ++ (ofLexemes ys).ahead, (ofLexemes ys).endMark, []⟩ := by
  have goes : ∀ x ∈ solid xs, Tally.goesOn x = true := fun x mem => decide_eq_true (inner x mem)
  rw [Tally.seen_ofLexemes, Tally.seen_ofLexemes]
  dsimp only
  rw [solid_append, List.takeWhile_append_of_pos goes, List.dropWhile_append_of_pos goes,
    List.getLast?_append_of_ne_nil _ some]

end Cursor

/-- Where a last fence follows lexemes that are none or begin a statement, recovery goes on. -/
theorem resumes_ofLexemes {more rest : List Lexeme} {ending : Lexeme}
    (last : ending.token = .word .aavjoBhai)
    (starts : ∀ y ∈ (solid more).head?, y.token.opensStatement = true) :
    (Cursor.ofLexemes (more ++ ending :: rest)).Resumes := by
  have solidEnding : solid (ending :: rest) = ending :: solid rest :=
    List.filter_cons_of_pos (by simp [last])
  unfold Cursor.Resumes
  rw [Cursor.ahead_ofLexemes]
  change ∃ y w, (solid (more ++ ending :: rest)).takeWhile _ = y :: w ∧ _
  rw [solid_append, solidEnding]
  rcases eq : solid more with _ | ⟨y, w⟩
  · refine ⟨ending, _, List.takeWhile_cons_of_pos (by simp [last]), .inr last⟩
  · have opens : y.token.opensStatement = true := starts y (by rw [eq]; rfl)
    have goes : y.token ≠ .eof := by
      rintro eof
      rw [eof] at opens
      cases opens
    exact ⟨y, _, List.takeWhile_cons_of_pos (decide_eq_true goes), .inl opens⟩

/-- Take the lexemes of valid statements, then some that begin like no operand of those before, have
no brace, fence or end mark among them and no first token of a statement but for their own first
one, and then none or any that begin with the first token of a statement. If no statement can be
read where the second part begins, then its fault comes first among those of the whole program, and
the others are those of the program that has the third part alone. -/
theorem fault_stays_contained {opening ending x : Lexeme}
    {valid failing later more rest : List Lexeme} {body : List Stmt} {levels : Nat}
    {fault : ParseFault} (first : opening.token = .word .kemBhai)
    (last : ending.token = .word .aavjoBhai) (derived : Sequence (solid valid) body levels)
    (shallow : levels ≤ maxNesting) (placed : allPlaced false body = true)
    (run : solid failing = x :: later)
    (flat : ∀ y ∈ x :: later, y.token ≠ .leftBrace ∧ y.token ≠ .rightBrace ∧
      y.token ≠ .word .aavjoBhai ∧ y.token ≠ .eof)
    (fresh : (∀ o, x.token ≠ .op o) ∧ x.token ≠ .word .nahiTo)
    (inner : ∀ y ∈ later, y.token.opensStatement = false)
    (starts : ∀ y ∈ (solid more).head?, y.token.opensStatement = true)
    (failed : ((Parser.ofLexemes (failing ++ more ++ ending :: rest)).readPart .statement).1 =
      .error fault) :
    (Parser.ofLexemes
        (opening :: valid ++ failing ++ more ++ ending :: rest)).readProgram.2.faults =
      fault :: (Parser.ofLexemes (opening :: more ++ ending :: rest)).readProgram.2.faults := by
  have resumes : (Cursor.ofLexemes (more ++ ending :: rest)).Resumes :=
    resumes_ofLexemes last starts
  have none := Cursor.faults_ofLexemes (more ++ ending :: rest)
  have some : solid (more ++ ending :: rest) ≠ [] := by
    simp [solid, last]
  -- what lies behind the failing lexemes is seen by all readings; from here on it is a cursor `e`
  have seen := fun xs inner => Cursor.ofLexemes_append xs (more ++ ending :: rest) inner some
  generalize Cursor.ofLexemes (more ++ ending :: rest) = e at resumes none seen
  obtain ⟨ahead, mark, _⟩ := e
  cases none
  have flatValid : ∀ y ∈ solid valid, y.token ≠ .eof := by
    intro y mem eof
    have inner := derived.inner y mem
    rw [eof] at inner
    cases inner
  have flatFailing : ∀ y ∈ solid failing, y.token ≠ .eof := fun y mem =>
    (flat y (run ▸ mem)).2.2.2
  have solidOpening (xs : List Lexeme) : solid (opening :: xs) = opening :: solid xs :=
    List.filter_cons_of_pos (by simp [first])
  -- the three readings to compare: of the whole, of the program without the run, of the run
  have whole : Cursor.ofLexemes (opening :: valid ++ failing ++ more ++ ending :: rest) =
      ⟨opening :: (solid valid ++ x :: (later ++ ahead)), mark, []⟩ := by
    have parts :
        solid (opening :: (valid ++ failing)) = opening :: (solid valid ++ x :: later) := by
      rw [solidOpening, solid_append, run]
    have cut := seen (opening :: (valid ++ failing)) (by
      rw [solidOpening, solid_append]
      exact List.forall_mem_cons.2
        ⟨by simp [first], List.forall_mem_append.2 ⟨flatValid, flatFailing⟩⟩)
    rw [parts] at cut
    simpa only [List.cons_append, List.append_assoc] using cut
  have alone : Cursor.ofLexemes (opening :: more ++ ending :: rest) =
      ⟨opening :: ahead, mark, []⟩ := by
    have parts : solid [opening] = [opening] := solidOpening []
    have cut := seen [opening] (by
      rw [parts]
      exact List.forall_mem_singleton.2 (by simp [first]))
    rwa [parts] at cut
  have start : Cursor.ofLexemes (failing ++ more ++ ending :: rest) =
      ⟨x :: (later ++ ahead), mark, []⟩ := by
    have cut := seen failing flatFailing
    rwa [run, ← List.append_assoc] at cut
  have ends : Ends x.token := by
    refine ⟨?_, fresh.2⟩
    cases eq : x.token with
    | op o => exact absurd eq (fresh.1 o)
    | _ => rfl
  have plain : ∀ y ∈ later, y.token.isPlain = true := by
    intro y mem
    obtain ⟨left, right, fence, -⟩ := flat y (List.mem_cons_of_mem x mem)
    simp [Token.isPlain, inner y mem, left, right, fence]
  obtain ⟨brace, -, fence, eof⟩ := flat x List.mem_cons_self
  rw [Cursor.faults_readProgram whole first, Cursor.faults_readProgram alone first]
  refine Cursor.remainder_of_error derived shallow placed ends ⟨brace, fence, eof⟩ plain resumes ?_
  rw [← start]
  exact failed

/-- A stray parenthesis behind a printing, and another one in the statement behind it. -/
theorem fault_stays_contained_printing :
    let opening := ⟨.word .kemBhai, "kem bhai", ⟨0, 8, 1, 1⟩⟩
    let valid := [⟨.word .bhaiBol, "bhai bol", ⟨9, 17, 2, 1⟩⟩, ⟨.int 1, "1", ⟨18, 19, 2, 10⟩⟩]
    let failing := [⟨.word .bhaiBol, "bhai bol", ⟨20, 28, 3, 1⟩⟩,
      ⟨.rightParen, ")", ⟨29, 30, 3, 10⟩⟩]
    let more := [⟨.word .aa, "aa", ⟨31, 33, 4, 1⟩⟩, ⟨.rightParen, ")", ⟨34, 35, 4, 4⟩⟩]
    let ending := ⟨.word .aavjoBhai, "aavjo bhai", ⟨36, 46, 5, 1⟩⟩
    (Parser.ofLexemes (opening :: valid ++ failing ++ more ++ [ending])).readProgram.2.faults =
      ⟨.unexpectedToken ")", ⟨29, 30, 3, 10⟩⟩ ::
        (Parser.ofLexemes (opening :: more ++ [ending])).readProgram.2.faults := by
  intro opening valid failing more ending
  have one : Grammar.Expression .lowest [⟨.int 1, "1", ⟨18, 19, 2, 10⟩⟩]
      (.int 1 ⟨18, 19, 2, 10⟩) 0 1 :=
    (Grammar.Expression.leaf rfl).weaken (Tier.lowest_le _)
  have printing : Grammar.Statement valid
      (.print (.int 1 ⟨18, 19, 2, 10⟩) (Span.upTo ⟨9, 17, 2, 1⟩ ⟨18, 19, 2, 10⟩)) 1 :=
    .print rfl one
  have derived : Grammar.Sequence (solid valid) _ _ := .cons printing .nil
  exact fault_stays_contained rfl rfl derived (by decide) rfl rfl (by decide) ⟨nofun, nofun⟩
    (by decide) (by decide) rfl

end GujaratiScript
