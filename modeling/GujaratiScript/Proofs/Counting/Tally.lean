import GujaratiScript.Proofs.Reading.Advance
import GujaratiScript.Proofs.Grammar.Basic

/-!
# Reading with counters

The readers of the grammar are told how many levels of nesting are left and whether they are inside
a loop. A `Tally` keeps both as counters beside the place reached in the whole sequence of tokens,
so that whoever changes a counter has to set it back.

* `Tally` : the state, which is read from as it is; `Tally.cursor` is what is ahead in it;
* `cursor_step`, `cursor_skip`, `cursor_recover`, `cursor_ofLexemes` : both move alike;
* `Tally.Led` : what a reading leaves as it is, and where it may go.
-/

namespace GujaratiScript

/-- Skipping stays where a statement may begin, and goes on with the next lexeme elsewhere. -/
theorem Cursor.skip_cons (x : Lexeme) (w : List Lexeme) (m : Lexeme) (fs : List ParseFault) :
    skip ⟨x :: w, m, fs⟩ =
      if x.token.opensStatement || x.token == .rightBrace || x.token == .word .aavjoBhai then
        ⟨x :: w, m, fs⟩
      else skip ⟨w, m, fs⟩ := by
  unfold skip
  split
  · rename_i here
    rw [List.dropWhile_cons_of_neg (by rw [here]; decide)]
  · rename_i away
    rw [List.dropWhile_cons_of_pos (by rw [Bool.eq_false_iff.2 away]; rfl)]

/-! ## Tallies -/

/-- A token sequence that is being read: all tokens, the last of them an end mark; the place of the
token that comes next; the loops entered; every value the nesting was given, last first; the faults
met so far. -/
structure Tally where
  tokens : List Lexeme
  place : Nat
  loopDepth : Nat
  nestings : List Nat
  faults : List ParseFault
  inside : place < tokens.length
  closed : tokens.getLast?.map Lexeme.token = some .eof

namespace Tally

/-- The levels of nesting in use. -/
def nesting (s : Tally) : Nat := s.nestings.headD 0

/-- How many tokens are left, with those behind the next end mark. -/
def left (s : Tally) : Nat := s.tokens.length - s.place

/-- The lexeme at the place reached. -/
def current (s : Tally) : Lexeme := s.tokens.get ⟨s.place, s.inside⟩

/-- Whether the token at the place reached is `t`. -/
def at? (s : Tally) (t : Token) : Bool := s.current.token == t

/-- Whether an end mark is reached. -/
def atEnd (s : Tally) : Bool := s.at? .eof

/-- The tokens from here on are the one reached and those behind it. -/
theorem drop_place (s : Tally) :
    s.tokens.drop s.place = s.current :: s.tokens.drop (s.place + 1) :=
  List.drop_eq_getElem_cons s.inside

/-- Behind a lexeme that is no end mark there is another one. -/
theorem succ_place_lt (s : Tally) (h : s.current.token ≠ .eof) :
    s.place + 1 < s.tokens.length := by
  apply Nat.lt_of_le_of_ne s.inside
  intro eq
  have last : s.tokens.getLast? = some s.current := by
    rw [List.getLast?_eq_getElem?, ← eq]
    exact List.getElem?_eq_getElem s.inside
  have closed := s.closed
  rw [last] at closed
  exact h (Option.some.inj closed)

/-- The next place; an end mark is never passed. -/
def step (s : Tally) : Tally :=
  if h : s.current.token = .eof then s
  else ⟨s.tokens, s.place + 1, s.loopDepth, s.nestings, s.faults, s.succ_place_lt h, s.closed⟩

/-- Enters a loop. -/
def enterLoop (s : Tally) : Tally :=
  ⟨s.tokens, s.place, s.loopDepth + 1, s.nestings, s.faults, s.inside, s.closed⟩

/-- Leaves a loop, if in one. -/
def exitLoop (s : Tally) : Tally :=
  ⟨s.tokens, s.place, s.loopDepth - 1, s.nestings, s.faults, s.inside, s.closed⟩

/-- Sets the levels of nesting in use. -/
def restoreNesting (s : Tally) (n : Nat) : Tally :=
  ⟨s.tokens, s.place, s.loopDepth, n :: s.nestings, s.faults, s.inside, s.closed⟩

/-- Goes one level deeper, or fails at `span` if none is left. -/
def nest (s : Tally) (span : Span) : Except ParseFault Unit × Tally :=
  if maxNesting ≤ s.nesting then (.error ⟨.nestingTooDeep maxNesting, span⟩, s)
  else (.ok (), s.restoreNesting (s.nesting + 1))

/-- The tally with one more fault met. -/
def report (s : Tally) (fault : ParseFault) : Tally :=
  ⟨s.tokens, s.place, s.loopDepth, s.nestings, s.faults ++ [fault], s.inside, s.closed⟩

/-- An end mark is not passed. -/
theorem step_of_eof {s : Tally} (h : s.current.token = .eof) : s.step = s := dif_pos h

/-- A token that is no end mark is passed. -/
theorem place_step {s : Tally} (h : s.current.token ≠ .eof) : s.step.place = s.place + 1 := by
  rw [step, dif_neg h]

/-- Stepping keeps all tokens. -/
theorem tokens_step (s : Tally) : s.step.tokens = s.tokens := by
  unfold step
  split <;> rfl

/-- Skips to the next token that opens a statement, closes a block or ends the program. -/
def skip (s : Tally) : Tally :=
  if _h : s.current.token = .eof then s
  else if s.current.token.opensStatement || s.current.token == .rightBrace ||
      s.current.token == .word .aavjoBhai then s
  else s.step.skip
termination_by s.left
decreasing_by
  have inside := s.inside
  rw [left, left, tokens_step, place_step _h]
  omega

/-- Goes on after a fault of the statement that began at `start`. -/
def recover (s : Tally) (start : Nat) : Tally :=
  if s.place = start then s.step.skip else s.skip

/-- With an end mark at the end there is a token to be at. -/
theorem length_pos_of_closed {xs : List Lexeme}
    (h : xs.getLast?.map Lexeme.token = some .eof) : 0 < xs.length := by
  apply List.length_pos_iff.2
  rintro rfl
  cases h

/-- With the end mark that is implied, lexemes are closed. -/
theorem closed_concat (xs : List Lexeme) :
    (xs ++ [Cursor.impliedEnd xs.getLast?]).getLast?.map Lexeme.token = some .eof := by
  rw [List.getLast?_concat]
  rcases xs.getLast? with _ | x <;> rfl

/-- A tally before the first of the lexemes `xs` that is no line break. If the last of them is no
end mark, one is put behind it. -/
def ofLexemes (xs : List Lexeme) : Tally :=
  if h : (solid xs).getLast?.map Lexeme.token = some .eof then
    ⟨solid xs, 0, 0, [], [], length_pos_of_closed h, h⟩
  else
    ⟨solid xs ++ [Cursor.impliedEnd (solid xs).getLast?], 0, 0, [], [],
      length_pos_of_closed (closed_concat _), closed_concat _⟩

/-- A tally counts the levels and the loops itself, whatever it is told about them. -/
instance siteTally : Site Tally where
  current := current
  step := step
  left := left
  nest _ span s := s.nest span
  restore start s := s.restoreNesting start.nesting
  enterLoop := enterLoop
  exitLoop := exitLoop
  insideLoop _ s := decide (0 < s.loopDepth)
  trial s := s
  resume start fault s := (s.report fault).recover start.place
  nest_eq_error {_ span s _} h := by
    unfold nest at h
    split at h <;> cases h
    rfl

/-! ## What readers see -/

/-- Whether a lexeme is no end mark. -/
def goesOn (x : Lexeme) : Bool := decide (x.token ≠ .eof)

/-- What is left up to the next end mark, the end mark, and the faults. -/
def cursor (s : Tally) : Cursor :=
  let left := s.tokens.drop s.place
  ⟨left.takeWhile goesOn, (left.dropWhile goesOn).headD (Cursor.impliedEnd none), s.faults⟩

/-- The place of the next end mark. -/
def stop (s : Tally) : Nat := s.place + s.cursor.ahead.length

/-- At an end mark there is nothing ahead. -/
theorem cursor_of_eof {s : Tally} (h : s.current.token = .eof) :
    s.cursor = ⟨[], s.current, s.faults⟩ := by
  have last : goesOn s.current = false := by simp [goesOn, h]
  unfold cursor
  rw [drop_place]
  dsimp only
  rw [List.takeWhile_cons_of_neg (by simp [last]), List.dropWhile_cons_of_neg (by simp [last])]
  rfl

/-- Before an end mark, the token reached is ahead, and then what is ahead of the next place. -/
theorem cursor_of_ne_eof {s : Tally} (h : s.current.token ≠ .eof) :
    s.cursor = ⟨s.current :: s.step.cursor.ahead, s.step.cursor.endMark, s.faults⟩ := by
  have more : goesOn s.current = true := by simp [goesOn, h]
  unfold cursor
  rw [drop_place, step, dif_neg h]
  dsimp only
  rw [List.takeWhile_cons_of_pos more, List.dropWhile_cons_of_pos more]

/-- A reader sees the token reached. -/
theorem current_cursor (s : Tally) : s.cursor.current = s.current := by
  by_cases h : s.current.token = .eof
  · rw [cursor_of_eof h, Cursor.current]
  · rw [cursor_of_ne_eof h, Cursor.current]

/-- A reader that looks for a token sees the one reached. -/
theorem at?_cursor (s : Tally) (t : Token) : s.cursor.at? t = s.at? t := by
  rw [Cursor.at?, current_cursor, at?]

/-- Stepping goes no level deeper. -/
theorem nesting_step (s : Tally) : s.step.nesting = s.nesting := by
  unfold step
  split <;> rfl

/-- Stepping reports nothing. -/
theorem faults_step (s : Tally) : s.step.faults = s.faults := by
  unfold step
  split <;> rfl

/-- A reader steps as the tally does. -/
theorem cursor_step (s : Tally) : s.step.cursor = s.cursor.step := by
  by_cases h : s.current.token = .eof
  · rw [step_of_eof h, cursor_of_eof h]
    rfl
  · have faults : s.step.cursor.faults = s.faults := s.faults_step
    rw [cursor_of_ne_eof h, ← faults]
    rfl

/-- Nothing but an end mark is passed over at the end of what is ahead. -/
theorem stop_step (s : Tally) : s.step.stop = s.stop := by
  by_cases h : s.current.token = .eof
  · rw [step_of_eof h]
  · rw [stop, stop, cursor_of_ne_eof h, place_step h, List.length_cons]
    omega

/-- A reader skips as the tally does. -/
theorem cursor_skip (s : Tally) : s.skip.cursor = s.cursor.skip := by
  fun_induction skip s with
  | case1 s h =>
    rw [cursor_of_eof h]
    rfl
  | case2 s h here =>
    rw [cursor_of_ne_eof h, Cursor.skip_cons, if_pos here]
  | case3 s h away ih =>
    rw [ih, cursor_step, cursor_of_ne_eof h, Cursor.skip_cons, if_neg away]
    rfl

/-- An end mark behind lexemes changes nothing before the first one among them. -/
theorem takeWhile_concat {x : Lexeme} (h : x.token = .eof) (xs : List Lexeme) :
    (xs ++ [x]).takeWhile goesOn = xs.takeWhile goesOn := by
  induction xs with
  | nil => exact List.takeWhile_cons_of_neg (by simp [goesOn, h])
  | cons y ys ih => rw [List.cons_append, List.takeWhile_cons, List.takeWhile_cons, ih]

/-- An end mark at the end is where such a search ends. -/
theorem dropWhile_concat {x : Lexeme} (h : x.token = .eof) (xs : List Lexeme) :
    (xs ++ [x]).dropWhile goesOn = xs.dropWhile goesOn ++ [x] := by
  induction xs with
  | nil => exact List.dropWhile_cons_of_neg (by simp [goesOn, h])
  | cons y ys ih =>
    rw [List.cons_append, List.dropWhile_cons, List.dropWhile_cons, ih]
    split <;> rfl

/-- The end mark is the first one among the lexemes, or else the implied one. -/
theorem seen_ofLexemes (xs : List Lexeme) :
    Cursor.ofLexemes xs = ⟨(solid xs).takeWhile goesOn,
      ((solid xs).dropWhile goesOn).headD (Cursor.impliedEnd (solid xs).getLast?), []⟩ := by
  unfold Cursor.ofLexemes
  dsimp only
  split
  · rename_i none
    rw [show (solid xs).dropWhile goesOn = [] from none]
    rfl
  · rename_i stop rest found
    rw [show (solid xs).dropWhile goesOn = stop :: rest from found]
    rfl

/-- Before the first lexeme, both readings see the same. -/
theorem cursor_ofLexemes (xs : List Lexeme) : (ofLexemes xs).cursor = Cursor.ofLexemes xs := by
  rw [seen_ofLexemes]
  unfold ofLexemes
  split
  · rename_i closed
    -- the last lexeme is an end mark, so that one is found
    obtain ⟨x, last, eof⟩ := Option.map_eq_some_iff.1 closed
    obtain ⟨ys, eq⟩ := List.getLast?_eq_some_iff.1 last
    unfold cursor
    dsimp only
    rw [List.drop_zero, eq, dropWhile_concat eof]
    rcases ys.dropWhile goesOn with _ | ⟨stop, rest⟩ <;> rfl
  · have eof : (Cursor.impliedEnd (solid xs).getLast?).token = .eof := by
      rcases (solid xs).getLast? with _ | x <;> rfl
    unfold cursor
    dsimp only
    rw [List.drop_zero, takeWhile_concat eof, dropWhile_concat eof]
    rcases (solid xs).dropWhile goesOn with _ | ⟨stop, rest⟩ <;> rfl

/-- Skipping goes no level deeper. -/
theorem nesting_skip (s : Tally) : s.skip.nesting = s.nesting := by
  fun_induction skip s with
  | case1 s h => rfl
  | case2 s h here => rfl
  | case3 s h away ih => exact ih.trans s.nesting_step

/-- Recovery goes no level deeper. -/
theorem nesting_recover (s : Tally) (start : Nat) : (s.recover start).nesting = s.nesting := by
  unfold recover
  split
  · exact s.step.nesting_skip.trans s.nesting_step
  · exact s.nesting_skip

/-! ## What a reading leaves as it is -/

/-- A tally that reading from `s` may lead to: no token is changed and none taken back, the next end
mark is not passed, the loops are the same and no fault is forgotten. The levels in use have not
gone beyond the largest number of them, unless they were there before. -/
structure Led (s t : Tally) : Prop where
  tokens : t.tokens = s.tokens
  place : s.place ≤ t.place
  stop : t.stop = s.stop
  loopDepth : t.loopDepth = s.loopDepth
  nestings : ∃ way, t.nestings = way ++ s.nestings ∧ ∀ n ∈ way, n ≤ max s.nesting maxNesting
  faults : s.faults <+: t.faults

namespace Led

variable {s t u : Tally}

/-- Nothing read leads nowhere. -/
theorem refl (s : Tally) : s.Led s :=
  ⟨rfl, Nat.le_refl _, rfl, rfl, ⟨[], rfl, List.forall_mem_nil _⟩, List.prefix_rfl⟩

/-- The levels in use stay within the largest number of them. -/
theorem nesting_le (h : s.Led t) : t.nesting ≤ max s.nesting maxNesting := by
  obtain ⟨_ | ⟨n, way⟩, eq, within⟩ := h.nestings
  · rw [nesting, eq]
    exact Nat.le_max_left _ _
  · rw [nesting, eq]
    exact within n List.mem_cons_self

/-- Readers in sequence lead as far as both do. -/
theorem trans (h : s.Led t) (h' : t.Led u) : s.Led u := by
  refine ⟨h'.tokens.trans h.tokens, Nat.le_trans h.place h'.place, h'.stop.trans h.stop,
    h'.loopDepth.trans h.loopDepth, ?_, h.faults.trans h'.faults⟩
  obtain ⟨way, eq, within⟩ := h.nestings
  obtain ⟨way', eq', within'⟩ := h'.nestings
  refine ⟨way' ++ way, by rw [eq', eq, List.append_assoc], ?_⟩
  intro n mem
  rcases List.mem_append.1 mem with mem | mem
  · have le := within' n mem
    have le' := h.nesting_le
    omega
  · exact within n mem

/-- The nesting may be set to what it was before, or to any value that does not go too deep. -/
theorem restoreNesting (h : s.Led t) {n : Nat} (le : n ≤ max s.nesting maxNesting) :
    s.Led (t.restoreNesting n) := by
  refine ⟨h.tokens, h.place, h.stop, h.loopDepth, ?_, h.faults⟩
  obtain ⟨way, eq, within⟩ := h.nestings
  refine ⟨n :: way, congrArg (n :: ·) eq, ?_⟩
  intro m mem
  rcases List.mem_cons.1 mem with rfl | mem
  · exact le
  · exact within m mem

end Led

/-- A reported fault is one more to remember. -/
theorem led_report (s : Tally) (fault : ParseFault) : s.Led (s.report fault) :=
  ⟨rfl, Nat.le_refl _, rfl, rfl, ⟨[], rfl, List.forall_mem_nil _⟩, List.prefix_append _ _⟩

/-- A step stays before the next end mark or at it. -/
theorem led_step (s : Tally) : s.Led s.step := by
  by_cases h : s.current.token = .eof
  · rw [step_of_eof h]
    exact .refl s
  · have place : s.place ≤ s.step.place := Nat.le.intro (place_step h).symm
    have stop := s.stop_step
    rw [step, dif_neg h] at place stop ⊢
    exact ⟨rfl, place, stop, rfl, ⟨[], rfl, List.forall_mem_nil _⟩, List.prefix_rfl⟩

/-- So does skipping. -/
theorem led_skip (s : Tally) : s.Led s.skip := by
  fun_induction skip s with
  | case1 s h => exact .refl s
  | case2 s h here => exact .refl s
  | case3 s h away ih => exact s.led_step.trans ih

/-- So does recovery. -/
theorem led_recover (s : Tally) (start : Nat) : s.Led (s.recover start) := by
  unfold recover
  split
  · exact s.led_step.trans s.step.led_skip
  · exact s.led_skip

namespace Led

variable {s t : Tally}

/-- Whether a token was taken shows in the place. -/
theorem length_ahead_eq_iff (h : s.Led t) :
    t.cursor.ahead.length = s.cursor.ahead.length ↔ t.place = s.place := by
  have stop := h.stop
  unfold Tally.stop at stop
  omega

/-- It shows in the tokens that are left as well. -/
theorem left_lt_iff (h : s.Led t) :
    t.left < s.left ↔ t.cursor.ahead.length < s.cursor.ahead.length := by
  have stop := h.stop
  have inside := s.inside
  unfold Tally.stop at stop
  rw [left, left, h.tokens]
  omega

end Led

/-- Recovery sees from the place alone whether a token was taken. -/
theorem cursor_recover {s t : Tally} (h : s.Led t) :
    (t.recover s.place).cursor = t.cursor.recover s.cursor := by
  have same := h.length_ahead_eq_iff
  unfold recover Cursor.recover
  by_cases none : t.place = s.place
  · rw [if_pos none, if_pos (same.2 none), cursor_skip, cursor_step]
  · rw [if_neg none, if_neg fun eq => none (same.1 eq), cursor_skip]

end Tally

/-- Reads a value from a tally, or meets a fault. -/
abbrev Counting (α : Type) := ReadingFrom Tally α

end GujaratiScript
