import GujaratiScript.Proofs.Counting.Restoring

/-!
# Reading in any order

Between two readings, the loops and the nesting may be set to anything, tokens may be taken one by
one, and parts may be read wherever one is. No reading, whether it succeeds or fails, leaves a trace
in the counters.

* `Move` : what may be done with a parser, and `Tally.after`, `Parser.after` : a list of moves;
* `parser_after` : the parser without a history of its counters moves as the tally does;
* `Tally.Restored` : what a reading leaves as it was;
* `readings_restore` : the main statement.
-/

namespace GujaratiScript

/-! ## Moves -/

/-- What may be done with a parser, apart from looking at it. -/
inductive Move where
  | step
  | next
  | expectOne (t : Token) (after : String)
  | expectName
  | enterLoop
  | exitLoop
  | nest (span : Span)
  | restoreNesting (n : Nat)
  | read (part : Part)
  | parse

namespace Parser

/-- Reads a part from the place reached. -/
def readPart (p : Parser) (part : Part) : Except ParseFault part.Node × Parser :=
  p.read (part.reading p.levels p.inLoop)

/-- The parser after a move. -/
def move (p : Parser) : Move → Parser
  | .step => (p.read Reading.step).2
  | .next => (p.read Reading.take).2
  | .expectOne t after => (p.read (Reading.expect t after)).2
  | .expectName => (p.read Reading.expectName).2
  | .enterLoop => p.enterLoop
  | .exitLoop => p.exitLoop
  | .nest span => (p.nest span).2
  | .restoreNesting n => p.restoreNesting n
  | .read part => (p.readPart part).2
  | .parse => p.readProgram.2

/-- The parser after moves, one after the other. -/
def after (p : Parser) (moves : List Move) : Parser := moves.foldl move p

/-- Reading a statement whose fault is reported is reading a part. -/
theorem readPart_attempt (p : Parser) :
    p.readPart .attempt = (.ok p.tryStatement.1, p.tryStatement.2) := rfl

/-- Reading a program does not change the tokens. -/
theorem source_readProgram (p : Parser) : p.readProgram.2.source = p.source := by
  unfold readProgram
  rcases program maxNesting false p.source with ⟨fault | t, ahead, mark, _ | ⟨first, rest⟩⟩ <;> rfl

/-- The whole sequence stays at hand. -/
theorem source_move (p : Parser) (m : Move) : (p.move m).source = p.source := by
  cases m with
  | nest span =>
    show (p.nest span).2.source = p.source
    unfold nest
    split <;> rfl
  | parse => exact p.source_readProgram
  | _ => rfl

/-- No move changes the tokens. -/
theorem source_after (p : Parser) (moves : List Move) : (p.after moves).source = p.source := by
  induction moves generalizing p with
  | nil => rfl
  | cons m moves ih => exact (ih (p.move m)).trans (p.source_move m)

/-- Reading from the beginning depends on the sequence alone. -/
theorem readProgram_congr {p q : Parser} (h : p.source = q.source) :
    p.readProgram = q.readProgram := by
  unfold readProgram
  rw [h]

end Parser

namespace Tally

/-- The tally before the first token, with its counters and faults put back to none. -/
def fresh (s : Tally) : Tally :=
  ⟨s.tokens, 0, 0, 0 :: s.nestings, [], Nat.zero_lt_of_lt s.inside, s.closed⟩

/-- Reads the whole sequence from its beginning: a program, or else the first of the faults. -/
def parse (s : Tally) : Except ParseFault Program × Tally :=
  match program maxNesting false s.fresh with
  | (.ok t, s') =>
    match s'.faults with
    | [] => (.ok t, s')
    | first :: _ => (.error first, s')
  | (.error fault, s') =>
    (.error ((s'.faults ++ [fault]).head (by simp)), s'.report fault)

/-- The tally after a move. -/
def move (s : Tally) : Move → Tally
  | .step => s.step
  | .next => (Reading.take s).2
  | .expectOne t after => (Reading.expect t after s).2
  | .expectName => (Reading.expectName s).2
  | .enterLoop => s.enterLoop
  | .exitLoop => s.exitLoop
  | .nest span => (s.nest span).2
  | .restoreNesting n => s.restoreNesting n
  | .read part => (part.counting s).2
  | .parse => s.parse.2

/-- The tally after moves, one after the other. -/
def after (s : Tally) (moves : List Move) : Tally := moves.foldl move s

/-! ## The parser of a tally -/

/-- What the tally is without the history of its counters. -/
def parser (s : Tally) : Parser := ⟨s.fresh.cursor, s.cursor, s.loopDepth, s.nesting⟩

/-- What a fresh reader sees is determined by the tokens. -/
theorem cursor_fresh_congr {s t : Tally} (h : t.tokens = s.tokens) :
    t.fresh.cursor = s.fresh.cursor := by
  unfold cursor fresh
  dsimp only
  rw [h]

/-- Before any move, the tally stands for the parser of the same lexemes. -/
theorem parser_ofLexemes (xs : List Lexeme) : (ofLexemes xs).parser = Parser.ofLexemes xs := by
  have start : (ofLexemes xs).fresh.cursor = (ofLexemes xs).cursor := by
    unfold ofLexemes
    split <;> rfl
  have counters : (ofLexemes xs).loopDepth = 0 ∧ (ofLexemes xs).nesting = 0 := by
    unfold ofLexemes
    split <;> exact ⟨rfl, rfl⟩
  rw [parser, start, counters.1, counters.2, cursor_ofLexemes]
  rfl

/-- Reading with counters is reading by the parser, with the same result. -/
theorem parser_read {α : Type} {r : Counting α} {q : Reading α} {s : Tally}
    (h : Counting.Restores s.nesting s.loopDepth r q) :
    s.parser.read q = ((r s).1, (r s).2.parser) := by
  have out := h s rfl rfl
  have back := out.nesting trivial
  unfold Parser.read parser
  dsimp only
  rw [out.eq, cursor_fresh_congr out.led.tokens, out.led.loopDepth, back]

/-- A part is read by the parser as by the counting reader. -/
theorem parser_readPart (s : Tally) (part : Part) :
    s.parser.readPart part = ((part.counting s).1, (part.counting s).2.parser) :=
  parser_read (part.restores s.nesting s.loopDepth)

/-- A fault is reported to the parser as to the tally. -/
theorem parser_report (s : Tally) (fault : ParseFault) : (s.report fault).parser =
    ⟨s.parser.source, s.cursor.report fault, s.parser.loopDepth, s.parser.nesting⟩ := rfl

/-- So is reading the whole sequence. -/
theorem parser_readProgram (s : Tally) :
    s.parser.readProgram = (s.parse.1, s.parse.2.parser) := by
  have out := Counting.restores_program (k := 0) 0 (Nat.le_refl maxNesting) false s.fresh rfl rfl
  have same : program maxNesting false s.fresh.cursor = _ := out.eq
  have ended : (program maxNesting false s.fresh).2.parser =
      ⟨s.fresh.cursor, (program maxNesting false s.fresh).2.cursor, 0, 0⟩ := by
    rw [parser, out.led.loopDepth, out.nesting trivial, cursor_fresh_congr out.led.tokens]
    rfl
  unfold Parser.readProgram parse
  rw [show s.parser.source = s.fresh.cursor from rfl, same]
  generalize program maxNesting false s.fresh = o at ended ⊢
  rcases o with ⟨fault | t, s'⟩
  · dsimp only at ended ⊢
    rw [parser_report, ended]
    rfl
  · dsimp only at ended ⊢
    rw [show s'.cursor.faults = s'.faults from rfl]
    rcases s'.faults with _ | ⟨first, rest⟩ <;> exact congrArg (Prod.mk _) ended.symm

/-- A move of the tally is a move of its parser. -/
theorem parser_move (s : Tally) (m : Move) : (s.move m).parser = s.parser.move m := by
  cases m with
  | step => exact (congrArg Prod.snd (parser_read (s := s) Counting.restores_step)).symm
  | next => exact (congrArg Prod.snd (parser_read (s := s) Counting.restores_take)).symm
  | expectOne t after =>
    exact (congrArg Prod.snd (parser_read (s := s) (Counting.restores_expect t after))).symm
  | expectName => exact (congrArg Prod.snd (parser_read (s := s) Counting.restores_expectName)).symm
  | enterLoop => rfl
  | exitLoop => rfl
  | nest span =>
    show (s.nest span).2.parser = (s.parser.nest span).2
    unfold nest Parser.nest
    rw [show s.parser.nesting = s.nesting from rfl]
    split <;> rfl
  | restoreNesting n => rfl
  | read part => exact (congrArg Prod.snd (s.parser_readPart part)).symm
  | parse => exact (congrArg Prod.snd s.parser_readProgram).symm

/-- The tally stands for the parser after any moves. -/
theorem parser_after (s : Tally) (moves : List Move) :
    (s.after moves).parser = s.parser.after moves := by
  induction moves generalizing s with
  | nil => rfl
  | cons m moves ih =>
    refine (ih (s.move m)).trans ?_
    rw [parser_move]
    rfl

/-! ## What readings leave as it was -/

/-- What a reading leaves as it was between `s` and `t`. The counters are the same, and if the
nesting was within its bound, it has stayed there all the way; the tokens are the same; the place is
that of a token, no earlier one, and no end mark is passed; the faults are only added to. -/
structure Restored (s t : Tally) : Prop where
  nesting : t.nesting = s.nesting
  loopDepth : t.loopDepth = s.loopDepth
  within : s.nesting ≤ maxNesting →
    ∃ way, t.nestings = way ++ s.nestings ∧ ∀ n ∈ way, n ≤ maxNesting
  tokens : t.tokens = s.tokens
  inside : ∃ x, t.tokens[t.place]? = some x
  place_le : s.place ≤ t.place
  le_of_eof : ∀ i x, s.place ≤ i → s.tokens[i]? = some x → x.token = .eof → t.place ≤ i
  faults : s.faults <+: t.faults

/-- No end mark stands before the next one. -/
theorem stop_le {s : Tally} {i : Nat} {x : Lexeme} (le : s.place ≤ i)
    (found : s.tokens[i]? = some x) (eof : x.token = .eof) : s.stop ≤ i := by
  refine Nat.le_of_not_lt fun lt => ?_
  unfold stop at lt
  have bound : i - s.place < s.cursor.ahead.length := by omega
  have here : s.cursor.ahead[i - s.place]? = some x := by
    obtain ⟨rest, cut⟩ : s.cursor.ahead <+: s.tokens.drop s.place := List.takeWhile_prefix goesOn
    rw [← Nat.add_sub_cancel' le, ← List.getElem?_drop, ← cut] at found
    rwa [List.getElem?_append_left bound] at found
  have goes : goesOn x = true :=
    List.all_eq_true.1 List.all_takeWhile x (List.mem_of_getElem? here)
  simp [goesOn, eof] at goes

/-- Where the nesting is what it was, the tally is as before but for place and faults. -/
theorem Led.restored {s t : Tally} (h : s.Led t) (back : t.nesting = s.nesting) :
    s.Restored t := by
  refine ⟨back, h.loopDepth, ?_, h.tokens, ⟨_, List.getElem?_eq_getElem t.inside⟩, h.place, ?_,
    h.faults⟩
  · intro within
    obtain ⟨way, eq, le⟩ := h.nestings
    rw [Nat.max_eq_right within] at le
    exact ⟨way, eq, le⟩
  · intro i x le found eof
    have here : t.place ≤ t.stop := Nat.le_add_right _ _
    rw [h.stop] at here
    exact Nat.le_trans here (stop_le le found eof)

/-- Reading a part, with or without success, sets both counters back. -/
theorem restored_read (s : Tally) (part : Part) : s.Restored (part.counting s).2 := by
  have out := part.restores s.nesting s.loopDepth s rfl rfl
  exact out.led.restored (out.nesting trivial)

end Tally

/-- Take any lexemes and any moves. With and without a history of the counters, the parser is in the
same state. Any part that is read there, whether it succeeds or fails, is read alike, and leaves the
counters, the tokens and the earlier faults as they were. And the whole sequence, read from its
beginning, gives what it gives to a parser that has not been moved. -/
theorem readings_restore (xs : List Lexeme) (moves : List Move) :
    let s := (Tally.ofLexemes xs).after moves
    let p := (Parser.ofLexemes xs).after moves
    s.parser = p ∧
    (∀ part : Part, s.Restored (part.counting s).2 ∧
      p.readPart part = ((part.counting s).1, (part.counting s).2.parser)) ∧
    p.readProgram = (s.parse.1, s.parse.2.parser) ∧
    p.readProgram = (Parser.ofLexemes xs).readProgram ∧
    s.parse.1 = (Tally.ofLexemes xs).parse.1 ∧
    s.parse.2.faults = (Tally.ofLexemes xs).parse.2.faults := by
  intro s p
  have state : s.parser = p := by
    rw [Tally.parser_after, Tally.parser_ofLexemes]
  have program := s.parser_readProgram
  rw [state] at program
  have fresh := (Tally.ofLexemes xs).parser_readProgram
  rw [Tally.parser_ofLexemes] at fresh
  have same : p.readProgram = (Parser.ofLexemes xs).readProgram :=
    Parser.readProgram_congr ((Parser.ofLexemes xs).source_after moves)
  have alike := (program.symm.trans same).trans fresh
  obtain ⟨result, ended⟩ := Prod.mk.inj alike
  refine ⟨state, fun part => ⟨s.restored_read part, ?_⟩, program, same, result,
    congrArg Parser.faults ended⟩
  rw [← state]
  exact s.parser_readPart part

end GujaratiScript
