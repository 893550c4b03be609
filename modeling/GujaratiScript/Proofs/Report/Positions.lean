import GujaratiScript.Proofs.Layout.Behaviour
import GujaratiScript.Proofs.Run.Places
import GujaratiScript.Proofs.Spelling.Places

/-!
# Reported positions

Every lexeme of a text, every node of its tree and every fault, met while reading or while running,
says the place where it is. So a caret report always finds the line that it names, and its caret
stands under the first character of what the report is about.

* `getElem?_linesOf` : the line of a text on which a piece of it begins;
* `CaretPoints` : what a caret report shows;
* `ArisesFrom` : the failures that reading and running a text may give;
* `positions_are_right` : the main statement.
-/

namespace GujaratiScript

/-! ## Lines of a text -/

/-- Each line break ends one line and begins another. -/
theorem length_splitOn_break (cs : List Char) :
    (cs.splitOn '\n').length = cs.count '\n' + 1 := by
  induction cs with
  | nil => rfl
  | cons c cs ih =>
    rw [List.splitOn_cons_eq_if_modifyHead, List.count_cons]
    split
    · rw [List.length_cons, ih]
    · rw [List.length_modifyHead, ih]

/-- A line goes on at a character that is no line break. -/
theorem takeWhile_cons_visible {c : Char} (h : c ≠ '\n') (cs : List Char) :
    (c :: cs).takeWhile (· != '\n') = c :: cs.takeWhile (· != '\n') :=
  List.takeWhile_cons_of_pos (by simpa using h)

/-- The first line ends at the first line break. -/
theorem getElem?_splitOn_zero (cs : List Char) :
    (cs.splitOn '\n')[0]? = some (cs.takeWhile (· != '\n')) := by
  induction cs with
  | nil => rfl
  | cons c cs ih =>
    rw [List.splitOn_cons_eq_if_modifyHead]
    by_cases line : c = '\n'
    · subst line
      rfl
    · rw [if_neg (by simpa using line), List.getElem?_modifyHead_zero, ih,
        takeWhile_cons_visible line]
      rfl

/-- The line on which a piece of a text begins: what stands before the piece on that line, and the
piece up to its first line break. -/
theorem getElem?_splitOn (before after : List Char) :
    ((before ++ after).splitOn '\n')[before.count '\n']? =
      some (lastLine before ++ after.takeWhile (· != '\n')) := by
  -- the piece grows to the left, by one character at a time
  induction before using List.reverseRecOn generalizing after with
  | nil => exact getElem?_splitOn_zero after
  | append_singleton before c ih =>
    rw [List.append_assoc, List.singleton_append, List.count_append]
    by_cases line : c = '\n'
    · subst line
      have next : before.count '\n' + ['\n'].count '\n' = (before.splitOn '\n').length + 0 := by
        rw [length_splitOn_break]
        rfl
      rw [List.splitOn_append_cons_self, next, List.getElem?_append_right (Nat.le_add_right _ _),
        Nat.add_sub_cancel_left, getElem?_splitOn_zero, lastLine_break]
      rfl
    · have same : [c].count '\n' = 0 := List.count_eq_zero.2 (by simpa using Ne.symm line)
      rw [same, Nat.add_zero, ih, lastLine_concat line, takeWhile_cons_visible line,
        List.append_assoc]
      rfl

/-! ## Carets -/

/-- What stands before the line in a report: its number. -/
def gutter (line : Nat) : String := toString line ++ " | "

/-- The report opens with `head` and the place of the span, shows the line of the text on which the
span begins, and puts a caret on the line below. There, `lead` is what stands on the line before the
span and `rest` all behind that. -/
structure CaretPoints (text : String) (s : Span) (head report : String) (lead rest : List Char) :
    Prop where
  /-- The text has the line. -/
  line : 1 ≤ (s.line : Nat) ∧ (linesOf text)[(s.line : Nat) - 1]? = some (.ofList (lead ++ rest))
  shown : report = head ++ "\n --> line " ++ s.text ++ "\n" ++
    gutter s.line ++ .ofList (lead ++ rest) ++ "\n" ++
    "".pushn ' ' ((gutter s.line).length + lead.length) ++ "^"
  /-- The caret stands under the first character of what the span covers, or else the span is the
  end of the text and the caret stands behind the last line. -/
  under : (∃ c more, rest = c :: more ∧ (slice text s.start s.stop).toList.head? = some c) ∨
    rest = [] ∧ (s.line : Nat) = (linesOf text).length ∧
      (s.start : Nat) = text.utf8ByteSize ∧ (s.stop : Nat) = text.utf8ByteSize

/-- A caret report for a solid span points to the place of the span. -/
theorem Span.Solid.caretPoints {text : String} {s : Span} (h : s.Solid text)
    (small : text.utf8ByteSize < 2 ^ 32 - 1) (message kind : String) :
    ∃ lead rest, CaretPoints text s (kind ++ ": " ++ message)
      (caretReport text s.line s.col message kind) lead rest := by
  obtain ⟨before, piece, after, covers, first, end_⟩ := h
  have cut : text.toList = before ++ (piece ++ after) := covers.cut.trans (List.append_assoc _ _ _)
  -- the line that is shown is the one on which the span begins
  have line : (linesOf text)[before.count '\n']? =
      some (.ofList (lastLine before ++ (piece ++ after).takeWhile (· != '\n'))) := by
    rw [linesOf, List.getElem?_map, cut, getElem?_splitOn]
    rfl
  have number : (s.line : Nat) = before.count '\n' + 1 := by
    rw [covers.line small, Nat.add_comm]
  have small' : text.utf8ByteSize < 2 ^ 32 := by omega
  refine ⟨lastLine before, (piece ++ after).takeWhile (· != '\n'), ?_⟩
  constructor
  case line =>
    rw [number, Nat.add_sub_cancel]
    exact ⟨by omega, line⟩
  case shown =>
    have width : (gutter s.line).length = (toString (s.line : Nat)).length + 3 :=
      String.length_append _ _
    have place : s.text = toString (s.line : Nat) ++ ":" ++ toString (s.col : Nat) := rfl
    have col : (s.col : Nat) - 1 = (lastLine before).length := by
      rw [covers.col small, Nat.add_sub_cancel_left]
    unfold caretReport
    rw [width, ← col]
    simp only [place, number, Nat.add_sub_cancel, line, gutter, String.append_assoc]
  case under =>
    rcases piece with _ | ⟨c, more⟩
    · -- nothing is covered only at the very end, behind the last line
      have none : after = [] := end_ rfl
      rw [none, List.append_nil, List.append_nil] at cut
      refine .inr ⟨by rw [none]; rfl, ?_, ?_, ?_⟩
      · rw [number, linesOf, List.length_map, length_splitOn_break, cut]
      · rw [covers.start small', ← byteLength_toList, cut]
      · rw [covers.stop small', List.append_nil, ← byteLength_toList, cut]
    · have visible : c ≠ '\n' := fun eq => first (congrArg some eq)
      refine .inl ⟨c, (more ++ after).takeWhile (· != '\n'), ?_, ?_⟩
      · exact takeWhile_cons_visible visible _
      · rw [covers.slice_eq small', String.toList_ofList]
        rfl

/-! ## Failures -/

/-- The failures of a text: those of reading it, and those of running the program that it is, with
whatever names, input and output. -/
inductive ArisesFrom (text : String) : Failure → Prop
  | reading {failure : Failure} : Program.ofSource text = .error failure → ArisesFrom text failure
  | running {p : Program} {rounds : Nat} {m m' : Machine} {fault : RunFault} :
      Program.ofSource text = .ok p → p.execute rounds m = some (.error fault, m') →
      ArisesFrom text (.ofFault text (.runtime fault))

/-- All spans of a program that is read are solid, and so are those of all faults that keep a text
from being one. -/
theorem solid_ofSource (text : String) (small : text.utf8ByteSize < 2 ^ 32) :
    match Program.ofSource text with
    | .ok p => ∀ s ∈ p.spans, s.Solid text
    | .error failure => ∃ fault, failure = .ofFault text fault ∧
        ∀ f ∈ fault.findings, f.span.Solid text := by
  have lexemes := placed_tokenize text
  unfold Program.ofSource
  rcases eq : tokenize text with fault | xs
  · rw [eq] at lexemes
    exact ⟨_, rfl, List.forall_mem_singleton.2 lexemes⟩
  · rw [eq] at lexemes
    have closed : ∃ x ∈ xs, x.token = .eof := by
      obtain ⟨init, rfl, -⟩ := (tokenize_eq_ok_iff.1 eq).last
      exact ⟨_, List.mem_append_right _ List.mem_cons_self, rfl⟩
    have spans := spans_ofLexemes (fun _ _ => Span.Solid.upTo small)
      (fun x mem => (lexemes x mem).solid) closed
    dsimp only
    rcases eq' : Program.ofLexemes xs with faults | p
    · rw [eq'] at spans
      exact ⟨_, rfl, List.forall_mem_map.2 spans⟩
    · rw [eq'] at spans
      exact spans

/-- All findings of a failure are about solid spans of the text. -/
theorem ArisesFrom.solid {text : String} {failure : Failure} (h : ArisesFrom text failure)
    (small : text.utf8ByteSize < 2 ^ 32) :
    ∃ fault, failure = .ofFault text fault ∧ ∀ f ∈ fault.findings, f.span.Solid text := by
  have read := solid_ofSource text small
  cases h with
  | reading eq =>
    rw [eq] at read
    exact read
  | @running p rounds m m' fault eq ends =>
    rw [eq] at read
    refine ⟨_, rfl, List.forall_mem_singleton.2 (read _ ?_)⟩
    exact p.faults_execute rounds m _ _ ends fault rfl

/-- In a text of which every line and column fits into 32 bits, the span of every lexeme and of every
fault says where it is, however many lexemes and faults were met before; so do all spans of the
program that the text is. Each finding of a failure, met while reading the text or while running it,
says where it is, and the caret report about it points there. -/
theorem positions_are_right (text : String) (small : text.utf8ByteSize < 2 ^ 32 - 1) :
    (∀ n, match (Lexer.afterAttempts text n).nextLexeme.1 with
      | .ok x => x.span.Located text
      | .error fault => fault.span.Located text) ∧
    (∀ xs, tokenize text = .ok xs → ∀ x ∈ xs, x.span.Located text) ∧
    (∀ p, Program.ofSource text = .ok p → ∀ s ∈ p.spans, s.Located text) ∧
    ∀ failure, ArisesFrom text failure → ∃ fault, failure = .ofFault text fault ∧
      failure.caretText = "\n".intercalate (fault.findings.map fun f =>
        caretReport text f.span.line f.span.col f.message fault.kind) ∧
      ∀ f ∈ fault.findings, f.span.Located text ∧ ∃ lead rest,
        CaretPoints text f.span (fault.kind ++ ": " ++ f.message)
          (caretReport text f.span.line f.span.col f.message fault.kind) lead rest := by
  -- every span of the four kinds is solid or placed, and those are located
  refine ⟨?attempts, ?lexemes, ?nodes, ?failures⟩
  case attempts =>
    intro n
    have next := (Lexer.placed_nextLexeme (Lexer.on_afterAttempts text n)).2
    split
    · rename_i eq
      rw [eq] at next
      exact next.located small
    · rename_i eq
      rw [eq] at next
      exact next.located small
  case lexemes =>
    intro xs read x mem
    have placed := placed_tokenize text
    rw [read] at placed
    exact (placed x mem).located small
  case nodes =>
    intro p read s mem
    have solid := solid_ofSource text (by omega)
    rw [read] at solid
    exact (solid s mem).located small
  case failures =>
    intro failure arises
    obtain ⟨fault, rfl, solid⟩ := arises.solid (by omega)
    refine ⟨fault, rfl, rfl, ?_⟩
    intro f mem
    have pointed := (solid f mem).caretPoints small f.message fault.kind
    exact ⟨(solid f mem).located small, pointed⟩

/-- A remainder that does not exist: the lexemes and the tree of the text, and the fault of its run
with the report about it. -/
theorem positions_are_right_modulo :
    ∃ text xs p span m, text = "kem bhai\nbhai bol 1 % 0\naavjo bhai\n" ∧
      text.utf8ByteSize < 2 ^ 32 - 1 ∧
      (tokenize text = .ok xs ∧ ∀ x ∈ xs, x.span.Located text) ∧
      (Program.ofSource text = .ok p ∧ ∀ s ∈ p.spans, s.Located text) ∧
      p.execute 1 (.start (.ofLines []) .unlimited) = some (.error ⟨.moduloByZero, span⟩, m) ∧
      ∃ lead rest, CaretPoints text span "RuntimeError: Modulo by zero"
        (Failure.ofFault text (.runtime ⟨.moduloByZero, span⟩)).caretText lead rest := by
  have sound : Program.Sound ⟨[.print (.binary .modulo (.int 1 .nowhere) (.int 0 .nowhere) .nowhere
      .nowhere) .nowhere], .nowhere⟩ := by
    refine ⟨?_, rfl⟩
    show ∀ t ∈ [Token.word .kemBhai, .word .bhaiBol, .int 1, .op .modulo, .int 0, .word .aavjoBhai],
      t.Proper
    simp [Token.Proper]
  obtain ⟨p, read, bare⟩ := (ofSource_layout sound).1 (by decide)
  obtain ⟨xs, lexed, -⟩ := ofSource_eq_ok_iff.1 read
  -- the places of the tree are not known, but the run does not depend on them
  have runs := p.execute_bare 1 (.start (.ofLines []) .unlimited)
  rw [bare] at runs
  obtain ⟨⟨r, m⟩, ends, eq⟩ := Option.map_eq_some_iff.1 runs.symm
  obtain ⟨⟨cause, span⟩, rfl⟩ : ∃ fault, r = .error fault := by
    rcases r with fault | _
    · exact ⟨fault, rfl⟩
    · cases eq
  obtain rfl : cause = .moduloByZero := by
    cases eq
    rfl
  have small : "kem bhai\nbhai bol 1 % 0\naavjo bhai\n".utf8ByteSize < 2 ^ 32 - 1 := by decide
  obtain ⟨-, tokens, nodes, failures⟩ := positions_are_right _ small
  obtain ⟨fault, same, report, points⟩ := failures _ (.running read ends)
  cases same
  obtain ⟨lead, rest, caret⟩ := (points _ List.mem_cons_self).2
  refine ⟨_, xs, p, span, m, rfl, small, ⟨lexed, tokens xs lexed⟩, ⟨read, nodes p read⟩, ends, lead,
    rest, ?_⟩
  rw [report]
  exact caret

/-- A text of one blank less than `2 ^ 32` is too wide: its end mark is said to be in column zero. -/
theorem positions_are_right_too_wide :
    (blanks (2 ^ 32 - 1)).utf8ByteSize < 2 ^ 32 ∧ ∃ xs, tokenize (blanks (2 ^ 32 - 1)) = .ok xs ∧
      ∃ x ∈ xs, ¬ x.span.Located (blanks (2 ^ 32 - 1)) := by
  refine ⟨by rw [utf8ByteSize_blanks]; decide, _, tokenize_blanks _, _, List.mem_cons_self, ?_⟩
  exact Span.not_located_of_wide rfl

end GujaratiScript
