import GujaratiScript.Proofs.Source.Located

/-!
# Where lexemes and faults of a text lie

The cursor of a lexer always stands at the mark of the characters it has passed, also behind a
fault. So whatever it reads next is placed where it stands in the text.

* `placed_scan` : the characters that a fault lies on and those that are passed with it;
* `Lexer.On` : the cursor stands where its mark says;
* `Lexer.placed_nextLexeme` : it does after every lexeme and every fault, and these cover what they
  are about;
* `placed_tokenize` : so do all lexemes of a text, or the fault that is met instead of them.
-/

namespace GujaratiScript

/-! ## The extent of a fault -/

/-- A string that is not closed goes on to the end of the text. -/
theorem stringEnd_unclosed {raw value cs raw' : List Char}
    (h : stringEnd raw value cs = .unclosed raw') : raw' = raw.reverse ++ cs := by
  fun_induction stringEnd raw value cs with
  | case1 raw value =>
    cases h
    exact (List.append_nil _).symm
  | case2 | case5 => cases h
  | case3 raw value =>
    cases h
    exact List.reverse_cons
  | case4 raw value e ds d _ _ ih =>
    rw [ih h, List.reverse_cons, List.reverse_cons, List.append_assoc, List.append_assoc]
    rfl
  | case6 raw value c cs _ _ ih =>
    rw [ih h, List.reverse_cons, List.append_assoc]
    rfl

/-- A backslash that means nothing stands behind the characters that were read before it. -/
theorem stringEnd_badEscape {raw value cs raw' rest : List Char} {e : Char}
    (h : stringEnd raw value cs = .badEscape raw' e rest) :
    ∃ more, raw' = raw.reverse ++ more ∧ cs = more ++ '\\' :: rest := by
  fun_induction stringEnd raw value cs with
  | case1 | case2 | case3 => cases h
  | case4 raw value e ds d _ _ ih =>
    obtain ⟨more, eq, rfl⟩ := ih h
    refine ⟨'\\' :: e :: more, ?_, rfl⟩
    rw [eq, List.reverse_cons, List.reverse_cons, List.append_assoc, List.append_assoc]
    rfl
  | case5 raw value e ds _ _ =>
    cases h
    exact ⟨[], (List.append_nil _).symm, rfl⟩
  | case6 raw value c cs _ _ ih =>
    obtain ⟨more, eq, rfl⟩ := ih h
    refine ⟨c :: more, ?_, rfl⟩
    rw [eq, List.reverse_cons, List.append_assoc]
    rfl

/-- A fault that a scan of `c` and `cs` meets lies on characters of these, the first of them `c` or
a backslash, and what is passed is a beginning of them. -/
def Scan.Placed (c : Char) (cs : List Char) : Scan → Prop
  | .token .. => True
  | .fault _ before extent passed rest => c :: cs = passed ++ rest ∧
      ∃ d more after, extent = d :: more ∧ (d = c ∨ d = '\\') ∧
        c :: cs = before ++ extent ++ after

theorem placed_scanPair (c : Char) (pair : Operator) (alone : Option Operator) (cs : List Char) :
    (scanPair c pair alone cs).Placed c cs := by
  unfold scanPair
  split
  · trivial
  · trivial
  · exact ⟨rfl, c, [], cs, rfl, .inl rfl, rfl⟩

/-- A string without an end is blamed at its quote, a wrong escape at its backslash. -/
theorem placed_scanString (cs : List Char) : (scanString cs).Placed '\x22' cs := by
  unfold scanString
  split
  · trivial
  · rename_i unclosed
    rw [stringEnd_unclosed unclosed]
    exact ⟨(List.append_nil _).symm, _, [], cs, rfl, .inl rfl, rfl⟩
  · rename_i bad
    obtain ⟨more, eq, rfl⟩ := stringEnd_badEscape bad
    rw [eq]
    have split : ∀ rest, '\x22' :: (more ++ '\\' :: rest) = '\x22' :: more ++ ['\\'] ++ rest :=
      fun rest => (List.append_assoc ('\x22' :: more) ['\\'] rest).symm
    exact ⟨split _, _, [], _, rfl, .inr rfl, split _⟩

theorem placed_scanNumber (c : Char) (cs : List Char) : (scanNumber c cs).Placed c cs := by
  unfold scanNumber
  dsimp only
  split
  · trivial
  · have split : c :: cs = c :: cs.takeWhile isDigit ++ cs.dropWhile isDigit :=
      congrArg (c :: ·) List.takeWhile_append_dropWhile.symm
    exact ⟨split, c, _, _, rfl, .inl rfl, split⟩

theorem placed_scanWord (c : Char) (cs : List Char) : (scanWord c cs).Placed c cs := by
  unfold scanWord
  split
  · trivial
  · dsimp only
    split <;> trivial

/-- A fault of a scan lies where the scan begins, or at a backslash behind it. -/
theorem placed_scan (c : Char) (cs : List Char) : (scan c cs).Placed c cs := by
  have reader := scansBy c
  generalize scan c = r at reader ⊢
  cases reader with
  | single => trivial
  | pair pair alone => exact placed_scanPair c pair alone cs
  | string quote =>
    rw [quote]
    exact placed_scanString cs
  | number => exact placed_scanNumber c cs
  | word => exact placed_scanWord c cs
  | unknown => exact ⟨rfl, c, [], cs, rfl, .inl rfl, rfl⟩

/-! ## The cursor -/

/-- A lexeme of a text covers a piece of it, and its span is solid unless it is a line break. -/
structure Lexeme.Placed (text : String) (x : Lexeme) : Prop where
  covers : ∃ before piece after, x.span.Covers text before piece after
  solid : x.token ≠ .newline → x.span.Solid text

/-- A placed lexeme is located if lines and columns fit into 32 bits. -/
theorem Lexeme.Placed.located {text : String} {x : Lexeme} (h : x.Placed text)
    (small : text.utf8ByteSize < 2 ^ 32 - 1) : x.span.Located text := by
  obtain ⟨_, _, _, covers⟩ := h.covers
  exact covers.located small

namespace Lexer

variable {text : String} {l : Lexer}

/-- The mark of the cursor is that of the characters before what is left. -/
def On (text : String) (l : Lexer) : Prop :=
  ∃ passed, text.toList = passed ++ l.rest ∧ l.mark = Mark.origin.advance passed

/-- A new cursor is at the beginning of its text. -/
theorem on_ofText (text : String) : (ofText text).On text := ⟨[], rfl, rfl⟩

/-- Blanks are passed before anything is read. -/
theorem On.gap (h : l.On text) :
    ∃ before, text.toList = before ++ l.rest.dropWhile isBlank ∧
      l.mark.advance (l.rest.takeWhile isBlank) = Mark.origin.advance before := by
  obtain ⟨passed, cut, mark⟩ := h
  refine ⟨passed ++ l.rest.takeWhile isBlank, ?_, ?_⟩
  · rw [cut, List.append_assoc, List.takeWhile_append_dropWhile]
  · rw [mark, Mark.advance_append]

/-- What is read next is placed where it stands, and the cursor stands behind what it passes. -/
theorem placed_nextLexeme (h : l.On text) : l.nextLexeme.2.On text ∧
    match l.nextLexeme.1 with
    | .ok x => x.Placed text
    | .error fault => fault.span.Solid text := by
  obtain ⟨before, cut, start⟩ := h.gap
  unfold nextLexeme
  rw [start]
  split
  · rename_i none
    rw [none] at cut
    have cut' : text.toList = before ++ [] ++ [] := cut.trans (List.append_nil _).symm
    have covers := Span.Covers.between rfl cut'
    exact ⟨⟨before, cut, rfl⟩, ⟨_, _, _, covers⟩, fun _ => ⟨_, _, _, covers, nofun, fun _ => rfl⟩⟩
  · rename_i c cs some
    rw [some] at cut
    have fault := placed_scan c cs
    split
    · rename_i t word rest found
      obtain ⟨-, nonempty, eq⟩ := scan_append found
      rw [eq, ← List.append_assoc] at cut
      have covers := Span.Covers.between rfl cut
      refine ⟨⟨before ++ word, cut, (Mark.advance_append _ _ _).symm⟩, ⟨_, _, _, covers⟩,
        fun other => ?_⟩
      refine ⟨_, _, _, covers, fun line => other ?_, fun none => absurd none nonempty⟩
      -- a word that begins with a line break is this line break alone
      obtain ⟨more, rfl⟩ := List.head?_eq_some_iff.1 line
      obtain ⟨rfl, -⟩ := List.cons.inj eq
      cases found
      rfl
    · rename_i cause lead extent passed rest found
      rw [found] at fault
      obtain ⟨eq, d, more, after, rfl, visible, eq'⟩ := fault
      have onward : text.toList = before ++ passed ++ rest := by
        rw [cut, eq, List.append_assoc]
      have cut' : text.toList = before ++ lead ++ d :: more ++ after := by
        rw [cut, eq']
        simp only [List.append_assoc]
      have covers := Span.Covers.between (Mark.advance_append _ _ _).symm cut'
      refine ⟨⟨before ++ passed, onward, (Mark.advance_append _ _ _).symm⟩,
        _, _, _, covers, ?_, nofun⟩
      rintro line
      rcases visible with rfl | rfl
      · cases line
        cases found
      · cases line

/-- The cursor over a text after the first `n` attempts to read a lexeme. -/
def afterAttempts (text : String) (n : Nat) : Lexer :=
  (fun l => l.nextLexeme.2)^[n] (.ofText text)

/-- After any attempts to read, the cursor is on the text still. -/
theorem on_afterAttempts (text : String) (n : Nat) : (afterAttempts text n).On text := by
  induction n with
  | zero => exact on_ofText text
  | succ n ih =>
    rw [afterAttempts, Function.iterate_succ_apply']
    exact (placed_nextLexeme ih).1

/-- The lexemes that are collected are placed, or the fault that is met is. -/
theorem placed_collect {read : List Lexeme} (h : l.On text) (hr : ∀ x ∈ read, x.Placed text) :
    match l.collect read with
    | .ok xs => ∀ x ∈ xs, x.Placed text
    | .error fault => fault.span.Solid text := by
  -- a fault, the end mark, or another lexeme and the rest of the text
  fun_induction Lexer.collect l read with
  | case1 l read fault l' eq =>
    have next := (placed_nextLexeme h).2
    rw [eq] at next
    exact next
  | case2 l read x l' eq eof =>
    have next := (placed_nextLexeme h).2
    rw [eq] at next
    intro y mem
    rcases List.mem_cons.1 (List.mem_reverse.1 mem) with rfl | mem
    · exact next
    · exact hr y mem
  | case3 l read x l' eq ne ih =>
    have next := placed_nextLexeme h
    rw [eq] at next
    exact ih next.1 (List.forall_mem_cons.2 ⟨next.2, hr⟩)

end Lexer

/-- All lexemes of a text are placed, or else the fault is. -/
theorem placed_tokenize (text : String) :
    match tokenize text with
    | .ok xs => ∀ x ∈ xs, x.Placed text
    | .error fault => fault.span.Solid text :=
  Lexer.placed_collect (Lexer.on_ofText text) (List.forall_mem_nil _)

end GujaratiScript
