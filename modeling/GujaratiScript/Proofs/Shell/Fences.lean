import GujaratiScript.Proofs.Source.Fragments
import GujaratiScript.Proofs.Spelling.Words

/-!
# Fences around snippets

A snippet that begins with the first fence is a program as it stands, and any other one should be
put between the fences. Whether it begins so is a matter of its tokens; the shell asks whether the
words of the fence occur in it, be it in a string or across two names.

* `OpensFenced` : the first token of a snippet, apart from line breaks, is the first fence;
* `opensFenced_iff` : so it is if the words of the fence stand there, behind blanks and line breaks;
* `ofSource_of_not_opensFenced` : a snippet that does not begin so is no program as it stands;
* `withFences_agrees_iff` : when the shell does what the tokens ask for;
* `withFences_words_in_string` : a snippet for which it does not.
-/

namespace GujaratiScript

open Unicode Grammar

/-! ## The first token -/

namespace Lexer

/-- The first lexeme from the cursor on that is no line break, or the fault that is met before. -/
def firstVisible (l : Lexer) : Except LexFault Lexeme :=
  match _h : l.nextLexeme with
  | (.error fault, _) => .error fault
  | (.ok x, l') => if _hx : x.token = .newline then l'.firstVisible else .ok x
termination_by l.rest.length
decreasing_by exact length_rest_nextLexeme _h (by rw [_hx]; nofun)

theorem firstVisible_of_newline {l l' : Lexer} {x : Lexeme} (h : l.nextLexeme = (.ok x, l'))
    (line : x.token = .newline) : l.firstVisible = l'.firstVisible := by
  rw [firstVisible]
  split
  · rename_i eq
    rw [h] at eq
    cases eq
  · rename_i eq
    rw [h] at eq
    cases eq
    rw [dif_pos line]

theorem firstVisible_of_ne_newline {l l' : Lexer} {x : Lexeme} (h : l.nextLexeme = (.ok x, l'))
    (ne : x.token ≠ .newline) : l.firstVisible = .ok x := by
  rw [firstVisible]
  split
  · rename_i eq
    rw [h] at eq
    cases eq
  · rename_i eq
    rw [h] at eq
    cases eq
    rw [dif_neg ne]

end Lexer

/-- In a text that is read, it is the first lexeme that is no line break. -/
theorem Reads.firstVisible {m : Mark} {cs : List Char} {xs : List Lexeme} (h : Reads m cs xs)
    (f : Bool) : ∃ x rest, solid xs = x :: rest ∧ Lexer.firstVisible ⟨cs, m, f⟩ = .ok x := by
  induction h generalizing f with
  | @done m gap blank =>
    refine ⟨_, [], rfl, ?_⟩
    have same := Lexer.nextLexeme_gap blank [] m f
    have last : Lexer.nextLexeme ⟨[], m.advance gap, f⟩ = _ := Lexer.nextLexeme_of_rest_eq_nil rfl
    rw [List.append_nil, last] at same
    exact Lexer.firstVisible_of_ne_newline same nofun
  | @token m gap cs text rest c t xs blank start found _ ih =>
    have read := (Lexer.nextLexeme_gap blank (c :: cs) m f).trans
      (Lexer.nextLexeme_token start found _ f)
    by_cases line : t = .newline
    · subst line
      obtain ⟨x, rest, eq, first⟩ := ih f
      exact ⟨x, rest, eq, (Lexer.firstVisible_of_newline read rfl).trans first⟩
    · refine ⟨_, solid xs, ?_, Lexer.firstVisible_of_ne_newline read line⟩
      simp [solid, line]

/-- The first token of a text, apart from line breaks, is the first fence. -/
def OpensFenced (text : String) : Prop :=
  ∃ x, (Lexer.ofText text).firstVisible = .ok x ∧ x.token = .word .kemBhai

/-! ## The words of the fence -/

/-- Blanks and line breaks. -/
def isGap (c : Char) : Bool := isBlank c || c == '\n'

theorem dropWhile_isGap_append {gap : List Char} (blank : ∀ d ∈ gap, isBlank d = true)
    (cs : List Char) : (gap ++ cs).dropWhile isGap = cs.dropWhile isGap := by
  apply List.dropWhile_append_of_pos
  intro d mem
  rw [isGap, blank d mem, Bool.true_or]

/-- What is neither a blank nor a line break is where the gap ends. -/
theorem dropWhile_isGap_cons {c : Char} (blank : isBlank c = false) (line : c ≠ '\n')
    (cs : List Char) : (c :: cs).dropWhile isGap = c :: cs := by
  apply List.dropWhile_cons_of_neg
  simp [isGap, blank, line]

/-- Which tokens the readers give. -/
theorem scan_token_cases {c : Char} {cs text rest : List Char} {t : Token}
    (h : scan c cs = .token t text rest) :
    single? c = some t ∧ rest = cs ∨ (∃ o, t = .op o) ∨ (∃ s, t = .str s) ∨ (∃ n, t = .int n) ∨
      isIdentStart c = true ∧ ((∃ k, t = .word k) ∨ ∃ name, t = .ident name) := by
  -- one case for each way in which a token may begin
  have reader := scansBy c
  generalize scan c = r at reader h
  cases reader with
  | single single =>
    cases h
    exact .inl ⟨single, rfl⟩
  | pair pair alone =>
    unfold scanPair at h
    split at h <;> cases h <;> exact .inr (.inl ⟨_, rfl⟩)
  | string =>
    unfold scanString at h
    split at h <;> cases h
    exact .inr (.inr (.inl ⟨_, rfl⟩))
  | number =>
    unfold scanNumber at h
    dsimp only at h
    split at h <;> cases h
    exact .inr (.inr (.inr (.inl ⟨_, rfl⟩)))
  | word start =>
    refine .inr (.inr (.inr (.inr ⟨start, ?_⟩)))
    unfold scanWord at h
    split at h
    · cases h
      exact .inl ⟨_, rfl⟩
    · dsimp only at h
      split at h <;> cases h
      · exact .inl ⟨_, rfl⟩
      · exact .inr ⟨_, rfl⟩
  | unknown => cases h

/-- A line break is read where one stands. -/
theorem scan_newline {c : Char} {cs text rest : List Char}
    (h : scan c cs = .token .newline text rest) : c = '\n' ∧ rest = cs := by
  obtain ⟨single, eq⟩ | ⟨_, no⟩ | ⟨_, no⟩ | ⟨_, no⟩ | ⟨-, ⟨_, no⟩ | ⟨_, no⟩⟩ := scan_token_cases h
  · refine ⟨?_, eq⟩
    unfold single? at single
    split at single <;> first | rfl | cases single
  all_goals cases no

/-- A phrase is read if and only if it stands there. -/
theorem scan_phrase_iff {k : Keyword} (hk : k ∈ Keyword.phrases) {c : Char} {cs : List Char} :
    (∃ text rest, scan c cs = .token (.word k) text rest) ↔ k.StandsAt (c :: cs) := by
  constructor
  · rintro ⟨text, rest, found⟩
    have start : isIdentStart c = true := by
      obtain ⟨single, -⟩ | ⟨_, no⟩ | ⟨_, no⟩ | ⟨_, no⟩ | ⟨start, -⟩ := scan_token_cases found
      · unfold single? at single
        split at single <;> cases single
      · cases no
      · cases no
      · cases no
      · exact start
    exact (wordAt_of_scan start found).standsAt
  · rintro ⟨rest, cut, parted⟩
    obtain ⟨d, ds, spelled, start⟩ := k.exists_cons
    have found := phraseAt?_spelling hk ((parted_iff rest).1 parted)
    rw [← cut] at found
    rw [spelled] at cut
    obtain ⟨rfl, -⟩ := List.cons.inj cut
    rw [scan_of_isIdentStart start, scanWord, found]
    exact ⟨_, _, rfl⟩

namespace Lexer

/-- A fault is met behind blanks, where a scan meets it. -/
theorem nextLexeme_fault_cases {l l' : Lexer} {fault : LexFault}
    (h : l.nextLexeme = (.error fault, l')) :
    ∃ gap c cs cause before extent passed rest, (∀ d ∈ gap, isBlank d = true) ∧
      l.rest = gap ++ c :: cs ∧ isBlank c = false ∧
      scan c cs = .fault cause before extent passed rest := by
  have blank : ∀ d ∈ l.rest.takeWhile isBlank, isBlank d = true :=
    List.all_eq_true.1 List.all_takeWhile
  have parts : l.rest.takeWhile isBlank ++ l.rest.dropWhile isBlank = l.rest :=
    List.takeWhile_append_dropWhile
  unfold nextLexeme at h
  dsimp only at h
  split at h
  · cases h
  · rename_i c cs some
    rw [some] at parts
    have first := List.head?_dropWhile_not isBlank l.rest
    rw [some] at first
    split at h
    · cases h
    · rename_i found
      exact ⟨_, c, cs, _, _, _, _, _, blank, parts.symm, by simpa using first, found⟩

/-- The first lexeme that is no line break is the fence if and only if its words stand behind all
blanks and line breaks. -/
theorem firstVisible_kemBhai_iff (l : Lexer) :
    (∃ x, l.firstVisible = .ok x ∧ x.token = .word .kemBhai) ↔
      Keyword.kemBhai.StandsAt (l.rest.dropWhile isGap) := by
  have phrase : Keyword.kemBhai ∈ Keyword.phrases := by decide
  have lineBreak : ∀ cs, scan '\n' cs = .token .newline ['\n'] cs := fun cs => rfl
  -- a fault, a line break and the rest of the text, or another lexeme
  fun_induction firstVisible l with
  | case1 l fault l' eq =>
    obtain ⟨gap, c, cs, _, _, _, _, _, blank, rest, visible, found⟩ := nextLexeme_fault_cases eq
    have line : c ≠ '\n' := by
      rintro rfl
      rw [lineBreak] at found
      cases found
    rw [rest, dropWhile_isGap_append blank, dropWhile_isGap_cons visible line]
    constructor
    · rintro ⟨x, no, -⟩
      cases no
    · intro stands
      obtain ⟨_, _, read⟩ := (scan_phrase_iff phrase).2 stands
      rw [read] at found
      cases found
  | case2 l x l' eq line ih =>
    obtain ⟨gap, blank, ⟨-, rfl⟩ | ⟨c, cs, t, text, rest, -, found, -, rfl⟩⟩ := nextLexeme_cases eq
    · cases line
    · obtain rfl : t = .newline := line
      obtain ⟨rfl, same⟩ := scan_newline found
      refine ih.trans ?_
      rw [rest, dropWhile_isGap_append blank, same]
      exact Iff.rfl
  | case3 l x l' eq ne =>
    obtain ⟨gap, blank, ⟨rest, rfl⟩ | ⟨c, cs, t, text, rest, visible, found, -, rfl⟩⟩ :=
      nextLexeme_cases eq
    · have none : (gap ++ []).dropWhile isGap = [] := dropWhile_isGap_append blank []
      rw [List.append_nil] at none
      rw [rest, none]
      constructor
      · rintro ⟨x, eq, fence⟩
        cases eq
        cases fence
      · rintro ⟨rest, cut, -⟩
        cases cut
    · have line : c ≠ '\n' := by
        rintro rfl
        rw [lineBreak] at found
        cases found
        exact ne rfl
      rw [rest, dropWhile_isGap_append blank, dropWhile_isGap_cons visible line,
        ← scan_phrase_iff phrase]
      constructor
      · rintro ⟨x, eq, fence⟩
        cases eq
        exact ⟨text, l'.rest, by rw [found, ← fence]⟩
      · rintro ⟨text', rest', read⟩
        rw [found] at read
        cases read
        exact ⟨_, rfl, rfl⟩

end Lexer

theorem opensFenced_iff (text : String) :
    OpensFenced text ↔ Keyword.kemBhai.StandsAt (text.toList.dropWhile isGap) :=
  (Lexer.ofText text).firstVisible_kemBhai_iff

/-- The words of the first fence occur somewhere in the text. -/
def HoldsFence (text : String) : Prop := Keyword.kemBhai.spelling.toList <:+: text.toList

theorem occursIn_iff (part cs : List Char) : occursIn part cs = true ↔ part <:+: cs := by
  induction cs with
  | nil =>
    rw [occursIn, List.isEmpty_iff]
    exact List.infix_nil.symm
  | cons c cs ih =>
    rw [occursIn, Bool.or_eq_true, List.isPrefixOf_iff_prefix, ih]
    exact List.infix_cons_iff.symm

theorem withFences_of_holdsFence {snippet : String} (h : HoldsFence snippet) :
    withFences snippet = snippet :=
  if_pos ((occursIn_iff _ _).2 h)

theorem withFences_of_not_holdsFence {snippet : String} (h : ¬ HoldsFence snippet) :
    withFences snippet = fenced snippet :=
  if_neg fun occurs => h ((occursIn_iff _ _).1 occurs)

/-- The words of a fence that the text begins with occur in it. -/
theorem OpensFenced.holdsFence {text : String} (h : OpensFenced text) : HoldsFence text := by
  obtain ⟨rest, cut, -⟩ := (opensFenced_iff text).1 h
  have here : Keyword.kemBhai.spelling.toList <+: text.toList.dropWhile isGap := ⟨rest, cut.symm⟩
  exact here.isInfix.trans (List.dropWhile_suffix _).isInfix

/-! ## Snippets as they stand -/

/-- The reader of a program begins at the first lexeme that is no line break. -/
theorem Cursor.current_ofLexemes {xs rest : List Lexeme} {x : Lexeme} (h : solid xs = x :: rest) :
    (Cursor.ofLexemes xs).current = x := by
  unfold solid at h
  unfold ofLexemes
  rw [h]
  by_cases eof : x.token = .eof
  · simp [current, eof]
  · have first : (x :: rest).takeWhile (fun x => decide (x.token ≠ .eof)) =
        x :: rest.takeWhile fun x => decide (x.token ≠ .eof) :=
      List.takeWhile_cons_of_pos (decide_eq_true eof)
    dsimp only
    rw [first]
    split <;> rfl

/-- Lexemes that do not begin with the first fence are no program, for this reason alone. -/
theorem ofLexemes_of_first_ne {xs rest : List Lexeme} {x : Lexeme} (h : solid xs = x :: rest)
    (ne : x.token ≠ .word .kemBhai) :
    Program.ofLexemes xs = .error [⟨.expectedStart, x.span⟩] := by
  have read : program maxNesting false (Cursor.ofLexemes xs) =
      (.error ⟨.expectedStart, x.span⟩, Cursor.ofLexemes xs) := by
    have first : Reading.peek (Cursor.ofLexemes xs) = (.ok x, Cursor.ofLexemes xs) :=
      congrArg (fun y => (Except.ok y, Cursor.ofLexemes xs)) (Cursor.current_ofLexemes h)
    rw [program, Reading.bind_eq_of_eq_ok first, if_neg (by simpa using ne)]
    rfl
  rw [ofLexemes_of_error read, Cursor.faults_ofLexemes, List.nil_append]

/-- A snippet that does not begin with the first fence is no program as it stands: it has no tokens,
or it is told that the fence is missing. -/
theorem ofSource_of_not_opensFenced {text : String} (h : ¬ OpensFenced text) :
    (∃ fault, tokenize text = .error fault ∧
      Program.ofSource text = .error (.ofFault text (.lexical fault))) ∨
    ∃ x, (Lexer.ofText text).firstVisible = .ok x ∧
      Program.ofSource text =
        .error (.ofFault text (.grammatical [⟨.expectedStart, x.span⟩])) := by
  unfold Program.ofSource
  rcases read : tokenize text with fault | xs
  · exact .inl ⟨fault, rfl, rfl⟩
  · obtain ⟨x, rest, eq, first⟩ := (tokenize_eq_ok_iff.1 read).firstVisible false
    have ne : x.token ≠ .word .kemBhai := fun fence => h ⟨x, first, fence⟩
    refine .inr ⟨x, first, ?_⟩
    dsimp only
    rw [ofLexemes_of_first_ne eq ne]

/-- The failure of a text tells which text it is of. -/
theorem text_of_ofSource_eq_error {text : String} {failure : Failure}
    (h : Program.ofSource text = .error failure) : ∃ fault, failure = .ofFault text fault := by
  unfold Program.ofSource at h
  split at h
  · cases h
    exact ⟨_, rfl⟩
  · split at h
    · cases h
      exact ⟨_, rfl⟩
    · cases h

theorem ne_fenced (text : String) : text ≠ fenced text := by
  intro eq
  have size := congrArg String.length eq
  rw [fenced, String.length_append, String.length_append] at size
  have head : "kem bhai\n".length = 9 := by decide
  omega

/-! ## What the shell does -/

/-- What the loop over snippets shows of a run of the program, and how many lines it reads. -/
def Program.shown (p : Program) (rounds : Nat) (lines : List String) : Option (List Event × Nat) :=
  (p.interpret rounds (.start (.ofLines (lines.map withoutLineEnd)) .unlimited)).map fun (code, m) =>
    (m.log.offered.toList.map (fun line => .out (line ++ "\n")) ++
      (if code = 0 then [] else [.status .failed "Execution failed"]),
      lines.length - m.feed.pending.length)

theorem runSnippet_of_ok {snippet : String} {p : Program}
    (h : Program.ofSource (withFences snippet) = .ok p) (rounds : Nat) (lines : List String) :
    runSnippet rounds snippet lines = p.shown rounds lines := by
  unfold runSnippet Program.shown
  rw [h]
  dsimp only
  rcases p.interpret rounds _ with _ | ⟨code, m⟩ <;> rfl

theorem runSnippet_of_error {snippet : String} {failure : Failure}
    (h : Program.ofSource (withFences snippet) = .error failure) (rounds : Nat)
    (lines : List String) :
    runSnippet rounds snippet lines =
      some ([.note (failure.withPath "<repl>").styled, .status .failed "Execution failed"], 0) := by
  unfold runSnippet
  rw [h]

/-- A snippet that begins with the first fence is left as it is. Any other snippet is read as it is
between the fences if and only if the words of the fence do not occur in it, and then runs if it is
a program there; if they occur, it is read as it stands, and that is no program. -/
theorem withFences_agrees_iff (snippet : String) :
    (OpensFenced snippet → withFences snippet = snippet) ∧
    (¬ OpensFenced snippet →
      (Program.ofSource (withFences snippet) = Program.ofSource (fenced snippet) ↔
        ¬ HoldsFence snippet) ∧
      ∀ p, Program.ofSource (fenced snippet) = .ok p →
        (¬ HoldsFence snippet → ∀ rounds lines,
          runSnippet rounds snippet lines = p.shown rounds lines) ∧
        (HoldsFence snippet → ∃ failure, Program.ofSource snippet = .error failure ∧
          ∀ rounds lines, runSnippet rounds snippet lines =
            some ([.note (failure.withPath "<repl>").styled,
              .status .failed "Execution failed"], 0))) := by
  refine ⟨fun opens => withFences_of_holdsFence opens.holdsFence, fun closed => ?_⟩
  obtain ⟨failure, eq⟩ : ∃ failure, Program.ofSource snippet = .error failure := by
    rcases ofSource_of_not_opensFenced closed with ⟨_, -, eq⟩ | ⟨_, -, eq⟩ <;> exact ⟨_, eq⟩
  constructor
  · constructor
    · intro same holds
      rw [withFences_of_holdsFence holds] at same
      obtain ⟨fault, rfl⟩ := text_of_ofSource_eq_error eq
      obtain ⟨fault', eq'⟩ := text_of_ofSource_eq_error (same.symm.trans eq)
      -- the two failures name different texts
      exact ne_fenced snippet (Failure.program.inj eq').2.1
    · intro free
      rw [withFences_of_not_holdsFence free]
  · intro p accepted
    constructor
    · intro free
      apply runSnippet_of_ok
      rw [withFences_of_not_holdsFence free, accepted]
    · intro holds
      refine ⟨failure, eq, ?_⟩
      apply runSnippet_of_error
      rw [withFences_of_holdsFence holds, eq]

/-- The words of the fence in quotes are one token. -/
theorem Lexes.quotedFence {cs : List Char} {ts : List Token} (h : Lexes cs ts) :
    Lexes ("\"kem bhai\"".toList ++ cs) (.str "kem bhai" :: ts) := by
  have spelled : (Token.str "kem bhai").spelling = "\"kem bhai\"".toList := by
    rw [Token.spelling, toList_escaped]
    decide
  rw [← spelled]
  exact h.spelling trivial trivial (by simp)

/-- The words of the fence in a string: between the fences, where it belongs, the snippet is a
program that prints them, but it is read as it stands and told that the fence is missing. -/
theorem withFences_words_in_string :
    ∃ p failure span, ¬ OpensFenced "bhai bol \"kem bhai\"" ∧
      Program.ofSource (fenced "bhai bol \"kem bhai\"") = .ok p ∧
      p.bare = ⟨[.print (.str "kem bhai" .nowhere) .nowhere], .nowhere⟩ ∧
      failure = .ofFault "bhai bol \"kem bhai\"" (.grammatical [⟨.expectedStart, span⟩]) ∧
      Program.ofSource (withFences "bhai bol \"kem bhai\"") = .error failure ∧
      ∀ rounds lines, runSnippet rounds "bhai bol \"kem bhai\"" lines =
        some ([.note (failure.withPath "<repl>").styled, .status .failed "Execution failed"], 0) := by
  have closed : ¬ OpensFenced "bhai bol \"kem bhai\"" := by
    rw [opensFenced_iff]
    rintro ⟨rest, no, -⟩
    cases no
  have holds : HoldsFence "bhai bol \"kem bhai\"" :=
    ⟨"bhai bol \"".toList, "\"".toList, by decide⟩
  have prints : Lexes "kem bhai\nbhai bol \"kem bhai\"\naavjo bhai".toList
      (Program.tokens ⟨[.print (.str "kem bhai" .nowhere) .nowhere], .nowhere⟩) := by
    have fence : Lexes (Keyword.aavjoBhai.spelling.toList ++ []) [.word .aavjoBhai] :=
      Lexes.nil.keyword (by decide) rfl
    have print : Lexes (Keyword.bhaiBol.spelling.toList ++ _)
        [.word .bhaiBol, .str "kem bhai", .word .aavjoBhai] :=
      fence.line.quotedFence.blank.keyword (by decide) rfl
    have whole : Lexes (Keyword.kemBhai.spelling.toList ++ _) _ :=
      print.line.keyword (k := .kemBhai) (by decide) rfl
    exact whole
  have put : fenced "bhai bol \"kem bhai\"" =
      "kem bhai\nbhai bol \"kem bhai\"\naavjo bhai" := by decide
  rw [← put] at prints
  obtain ⟨p, accepted, bare⟩ := ofSource_of_lexes prints rfl (by decide)
  have words : Lexes "bhai bol \"kem bhai\"".toList [.word .bhaiBol, .str "kem bhai"] := by
    have print : Lexes (Keyword.bhaiBol.spelling.toList ++ _) [.word .bhaiBol, .str "kem bhai"] :=
      Lexes.nil.quotedFence.blank.keyword (by decide) rfl
    exact print
  obtain ⟨xs, read, -⟩ := words.tokenize
  rcases ofSource_of_not_opensFenced closed with ⟨fault, no, -⟩ | ⟨x, -, rejected⟩
  · rw [read] at no
    cases no
  · have refused := rejected
    rw [← withFences_of_holdsFence holds] at refused
    exact ⟨p, _, x.span, closed, accepted, bare, rfl, refused, runSnippet_of_error refused⟩

end GujaratiScript
