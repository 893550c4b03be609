import GujaratiScript.Proofs.Reading.Frame
import GujaratiScript.Proofs.Recovery.Faults

/-!
# Recovery makes progress

Trying a statement takes a token, whether there is one or not. So the readers of sequences of
statements end by themselves, and what they check against standing still never comes about.

* `Tally.trial` : trying a statement with a journal, and `parser_tryStatement` : what the parser
  does;
* `trial_advances` : one trial;
* `Repeats` : a sequence that tries statements until it has to stop, with no other way to end;
* `repeats_sequence` : how sequences are read;
* `trials_advance` : the main statement.
-/

namespace GujaratiScript

/-! ## One trial -/

namespace Tally

/-- Tries a statement and keeps a journal. -/
def trial (s : Tally) : Option Stmt × Journal :=
  attempt (statement maxNesting false (block maxNesting)) (Journal.blank s)

/-- The journal changes nothing of what is tried. -/
theorem attempt_eq_trial (s : Tally) :
    attempt (statement maxNesting false (block maxNesting)) s =
      (s.trial.1, s.trial.2.tally) := by
  have alike := Reading.matches_statement matching_tally closedUnderUpTo_true maxNesting false
  obtain ⟨same, rel, -⟩ := alike.attempt matching_tally (s := .blank s) rfl
  exact Prod.ext same rel

/-- Trying a statement is what the parser does. -/
theorem parser_tryStatement (s : Tally) :
    s.parser.tryStatement = (s.trial.1, s.trial.2.tally.parser) := by
  have read := s.parser_readPart .attempt
  rw [Parser.readPart_attempt] at read
  unfold Part.counting Part.reader at read
  dsimp only at read
  rw [attempt_eq_trial] at read
  obtain ⟨result, state⟩ := Prod.mk.inj read
  exact Prod.ext (Except.ok.inj result) state

/-- Unless at an end mark, a trial goes forward, and tries other statements only behind its first
token, one behind the other. -/
theorem trial_advances {s : Tally} (more : s.atEnd = false) : s.place < s.trial.2.place ∧
    ∃ nested, s.trial.2.tried = s.place :: nested ∧ (s.place :: nested).Pairwise (· < ·) := by
  have ne : s.current.token ≠ .eof := ne_of_beq_false more
  obtain ⟨nested, met, leads, -⟩ := Noting.attempt_leads (s := .blank s)
    (orderly_trial maxNesting false) ne
  exact ⟨(leads.between _ List.mem_cons_self).2, nested, leads.tried_eq, leads.rising⟩

end Tally

/-! ## Sequences -/

/-- `Repeats ends reader c body d` : from `c`, statements are tried by `reader` until `ends` holds
of the token at `d`, and `body` are those that could be read. -/
inductive Repeats (ends : Token → Bool) (reader : Reading Stmt) :
    Cursor → List Stmt → Cursor → Prop
  | done {c : Cursor} : ends c.current.token = true → Repeats ends reader c [] c
  | more {c d e : Cursor} {x : Option Stmt} {body : List Stmt} :
      ends c.current.token = false → attempt reader c = (x, d) → Repeats ends reader d body e →
      Repeats ends reader c (x.toList ++ body) e

/-- The reader of a statement at a tally. -/
def Parser.statement (p : Parser) : Reading Stmt :=
  GujaratiScript.statement p.levels p.inLoop (block p.levels)

namespace Tally

/-- With a token passed, fewer are left. -/
theorem Led.left_lt {s t : Tally} (h : s.Led t) (went : s.place < t.place) : t.left < s.left := by
  have inside := t.inside
  rw [h.tokens] at inside
  rw [left, left, h.tokens]
  omega

/-- What the parser attempts here is the trial, and there the parser reads statements as here. -/
theorem attempt_follows_trial (s : Tally) :
    attempt s.parser.statement s.cursor = (s.trial.1, s.trial.2.tally.cursor) ∧
      s.Led s.trial.2.tally ∧ s.trial.2.tally.parser.statement = s.parser.statement := by
  have out := Counting.follows_attempt (Part.statement.restores s.nesting s.loopDepth) rfl rfl
  have eq : attempt Part.statement.counting s = (s.trial.1, s.trial.2.tally) :=
    s.attempt_eq_trial
  rw [eq] at out
  have levels : s.trial.2.tally.parser.levels = s.parser.levels :=
    congrArg (maxNesting - ·) (out.nesting trivial)
  have inLoop : s.trial.2.tally.parser.inLoop = s.parser.inLoop :=
    congrArg (fun d => decide (0 < d)) out.led.loopDepth
  refine ⟨out.eq, out.led, ?_⟩
  unfold Parser.statement
  rw [levels, inLoop]

end Tally

/-- A sequence that ends at an end mark tries statements until it ends. -/
theorem repeats_statements {ends : Token → Bool} (eof : ends .eof = true) (read : List Stmt)
    (s : Tally) :
    ∃ body d, statements ends s.parser.statement read s.cursor = (read.reverse ++ body, d) ∧
      Repeats ends s.parser.statement s.cursor body d := by
  -- by the tokens that are left: a trial takes one of them
  induction len : s.left using Nat.strongRecOn generalizing s read with
  | ind n ih =>
    by_cases stopped : ends s.cursor.current.token = true
    · refine ⟨[], s.cursor, ?_, .done stopped⟩
      rw [statements_eq, if_pos stopped, List.append_nil]
    · have goes : ends s.cursor.current.token = false := Bool.eq_false_iff.2 stopped
      have more : s.atEnd = false := by
        refine Bool.eq_false_iff.2 fun atEnd => stopped ?_
        rw [s.current_cursor, show s.current.token = .eof from beq_iff_eq.1 atEnd]
        exact eof
      obtain ⟨step, led, same⟩ := s.attempt_follows_trial
      have took : s.trial.2.tally.cursor.ahead.length < s.cursor.ahead.length :=
        led.left_lt_iff.1 (led.left_lt (Tally.trial_advances more).1)
      obtain ⟨body, d, eq, rest⟩ :=
        ih _ (len ▸ led.left_lt_iff.2 took) (s.trial.1.toList ++ read) s.trial.2.tally rfl
      rw [same] at eq rest
      refine ⟨s.trial.1.toList ++ body, d, ?_, .more goes step rest⟩
      rw [statements_eq, if_neg stopped, step]
      dsimp only
      rw [if_pos took, eq, List.reverse_append]
      rcases s.trial.1 with _ | x <;> simp

/-- A sequence is read statement by statement until it ends. -/
theorem repeats_sequence {ends : Token → Bool} (eof : ends .eof = true) (s : Tally) :
    ∃ body d, sequence ends s.parser.statement s.cursor = (.ok body, d) ∧
      Repeats ends s.parser.statement s.cursor body d := by
  obtain ⟨body, d, eq, repeated⟩ := repeats_statements eof [] s
  refine ⟨body, d, ?_, repeated⟩
  rw [sequence, eq]
  rfl

/-! ## All token sequences -/

/-- Take any state of a parser. If it is at no end mark, trying a statement goes forward, whether it
is read or ends with a fault; each statement that is tried inside it begins behind the one tried
before. The statements of a block or a program are then tried one by one until the block or the
program ends. And the reading of any lexemes reports at most one fault for each token. -/
theorem trials_advance :
    (∀ s : Tally, s.atEnd = false →
      s.parser.tryStatement = (s.trial.1, s.trial.2.tally.parser) ∧
      s.place < s.trial.2.place ∧
      s.parser.tryStatement.2.cursor.ahead.length < s.parser.cursor.ahead.length ∧
      ∃ nested, s.trial.2.tried = s.place :: nested ∧ (s.place :: nested).Pairwise (· < ·)) ∧
    (∀ s : Tally, ∀ ends ∈ [Token.endsBlock, Token.endsProgram],
      ∃ body d, sequence ends s.parser.statement s.parser.cursor = (.ok body, d) ∧
        Repeats ends s.parser.statement s.parser.cursor body d) ∧
    ∀ xs, (Parser.ofLexemes xs).readProgram.2.faults.length ≤
      (Tally.ofLexemes xs).tokens.length := by
  refine ⟨fun s more => ?_, fun s ends mem => ?_, fun xs => ?_⟩
  · obtain ⟨went, nested⟩ := Tally.trial_advances more
    have led := s.attempt_follows_trial.2.1
    refine ⟨s.parser_tryStatement, went, ?_, nested⟩
    rw [s.parser_tryStatement]
    exact led.left_lt_iff.1 (led.left_lt went)
  · rcases List.mem_pair.1 mem with rfl | rfl
    · exact repeats_sequence rfl s
    · exact repeats_sequence rfl s
  · rw [← Tally.parser_ofLexemes, Tally.parser_readProgram]
    show (Tally.ofLexemes xs).parse.2.faults.length ≤ _
    rw [Tally.faults_parse, List.length_map]
    exact Tally.length_placedFaults_le _

/-- A block with a stray parenthesis in it: two trials, one inside the other. -/
theorem trials_advance_nested :
    let s := Tally.ofLexemes [⟨.leftBrace, "\x7b", ⟨0, 1, 1, 1⟩⟩, ⟨.rightParen, ")", ⟨1, 2, 1, 2⟩⟩,
      ⟨.rightBrace, "\x7d", ⟨2, 3, 1, 3⟩⟩]
    s.atEnd = false ∧
      s.parser.tryStatement = (s.trial.1, s.trial.2.tally.parser) ∧
      s.place < s.trial.2.place ∧
      s.parser.tryStatement.2.cursor.ahead.length < s.parser.cursor.ahead.length ∧
      ∃ nested, s.trial.2.tried = s.place :: nested ∧ (s.place :: nested).Pairwise (· < ·) :=
  ⟨by decide, trials_advance.1 _ (by decide)⟩

end GujaratiScript
