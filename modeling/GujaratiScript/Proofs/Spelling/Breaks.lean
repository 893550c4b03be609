import GujaratiScript.Proofs.Source.Located

/-!
# Texts joined by a line break

No token but a string goes on behind a line break, and a string that is closed before it does not
either. So what is read of a text is read as well in front of a line break and any other text, and
that text is read as if it stood alone, only further down.

* `scan_append_break` : a scan that gives a token does not look behind a line break;
* `Lexer.collect_moved` : what is read further down is what is read at the top, moved;
* `tokenize_append_break` : the lexemes, or the fault, of two texts joined by a line break;
* `reading_is_local` : the main statement;
* `exists_tokenize_of_append_break` : a text in front of a line break is read by itself if no quote
  stands behind it.
-/

namespace GujaratiScript

open Unicode

/-! ## Runs of characters -/

section Runs

variable {p : Char → Bool} (hp : p '\n' = false) (cs more : List Char)
include hp

theorem takeWhile_append_break : (cs ++ '\n' :: more).takeWhile p = cs.takeWhile p := by
  induction cs with
  | nil => exact List.takeWhile_cons_of_neg (by simp [hp])
  | cons c cs ih => rw [List.cons_append, List.takeWhile_cons, List.takeWhile_cons, ih]

theorem dropWhile_append_break :
    (cs ++ '\n' :: more).dropWhile p = cs.dropWhile p ++ '\n' :: more := by
  induction cs with
  | nil => exact List.dropWhile_cons_of_neg (by simp [hp])
  | cons c cs ih =>
    rw [List.cons_append, List.dropWhile_cons, List.dropWhile_cons, ih]
    split <;> rfl

end Runs

/-- What has no line break in it does not reach over one. -/
theorem isPrefix_append_break_iff {w : List Char} (hw : '\n' ∉ w) (cs more : List Char) :
    w <+: cs ++ '\n' :: more ↔ w <+: cs := by
  constructor
  · rintro ⟨rest, eq⟩
    rcases List.append_eq_append_iff.1 eq with ⟨beyond, rfl, -⟩ | ⟨beyond, rfl, rest_eq⟩
    · exact List.prefix_append w beyond
    · -- `w` would have to go on with the line break
      cases beyond with
      | nil => simp
      | cons d beyond =>
        obtain ⟨rfl, -⟩ := List.cons.inj rest_eq
        simp at hw
  · intro pre
    exact pre.trans (List.prefix_append cs _)

/-! ## One token -/

theorem atWordEnd_append_break (cs more : List Char) :
    atWordEnd (cs ++ '\n' :: more) = atWordEnd cs := by
  cases cs <;> rfl

/-- The spelling of a phrase stays on its line. -/
theorem Keyword.break_not_mem {k : Keyword} : '\n' ∉ k.spelling.toList := by
  cases k <;> decide

/-- No phrase reaches over a line break. -/
theorem phraseAt?_append_break (cs more : List Char) :
    phraseAt? (cs ++ '\n' :: more) = phraseAt? cs := by
  unfold phraseAt?
  congr 1
  funext k
  have same := isPrefix_append_break_iff (w := k.spelling.toList) k.break_not_mem cs more
  by_cases pre : k.spelling.toList <+: cs
  · rw [List.isPrefixOf_iff_prefix.2 pre, List.isPrefixOf_iff_prefix.2 (same.2 pre),
      List.drop_append_of_le_length pre.length_le, atWordEnd_append_break]
  · have no := mt List.isPrefixOf_iff_prefix.1 pre
    have no' := mt List.isPrefixOf_iff_prefix.1 (mt same.1 pre)
    rw [Bool.eq_false_iff.2 no, Bool.eq_false_iff.2 no']
    rfl

/-- A scan with more text behind all that it leaves. -/
def Scan.followedBy (more : List Char) : Scan → Scan
  | .token t text rest => .token t text (rest ++ more)
  | .fault cause before extent passed rest => .fault cause before extent passed (rest ++ more)

theorem scanPair_append_break (c : Char) (pair : Operator) (alone : Option Operator)
    (cs more : List Char) :
    scanPair c pair alone (cs ++ '\n' :: more) =
      (scanPair c pair alone cs).followedBy ('\n' :: more) := by
  cases cs with
  | nil => cases alone <;> rfl
  | cons d cs =>
    by_cases equals : d = '='
    · subst equals
      rfl
    · cases alone <;> simp [scanPair, equals, Scan.followedBy]

theorem scanNumber_append_break (c : Char) (cs more : List Char) :
    scanNumber c (cs ++ '\n' :: more) = (scanNumber c cs).followedBy ('\n' :: more) := by
  have digits : isDigit '\n' = false := rfl
  unfold scanNumber
  rw [takeWhile_append_break digits, dropWhile_append_break digits]
  dsimp only
  split <;> rfl

/-- A phrase takes no more than there is. -/
theorem phraseAt?_isPrefix {cs : List Char} {k : Keyword} (h : phraseAt? cs = some k) :
    k.spelling.toList <+: cs := by
  have found := List.find?_some h
  rw [Bool.and_eq_true] at found
  exact List.isPrefixOf_iff_prefix.1 found.1

theorem scanWord_append_break (c : Char) (cs more : List Char) :
    scanWord c (cs ++ '\n' :: more) = (scanWord c cs).followedBy ('\n' :: more) := by
  have chars : isIdentContinue '\n' = false := rfl
  unfold scanWord
  rw [← List.cons_append, phraseAt?_append_break]
  rcases found : phraseAt? (c :: cs) with _ | k
  · dsimp only
    rw [takeWhile_append_break chars, dropWhile_append_break chars]
    split <;> rfl
  · have le : k.spelling.toList.length - 1 ≤ cs.length := by
      have := (phraseAt?_isPrefix found).length_le
      rw [List.length_cons] at this
      omega
    dsimp only
    rw [List.take_append_of_le_length le, List.drop_append_of_le_length le]
    rfl

/-! ## Strings -/

/-- The end of a string with more text behind all that it leaves. -/
def StringEnd.followedBy (more : List Char) : StringEnd → StringEnd
  | .closed raw value rest => .closed raw value (rest ++ more)
  | .unclosed raw => .unclosed raw
  | .badEscape raw c rest => .badEscape raw c (rest ++ more)

/-- Unless a string is open at the end of a text, more text behind that does not matter to it. -/
theorem stringEnd_append_of_ended {raw value cs : List Char}
    (ended : ∀ raw', stringEnd raw value cs ≠ .unclosed raw') (more : List Char) :
    stringEnd raw value (cs ++ more) = (stringEnd raw value cs).followedBy more := by
  fun_induction stringEnd raw value cs with
  | case1 | case3 => exact absurd rfl (ended _)
  | case2 raw value cs => exact stringEnd_quote raw value (cs ++ more)
  | case4 raw value e ds d escape _ ih =>
    rw [List.cons_append, List.cons_append, stringEnd_backslash, escape]
    exact ih ended
  | case5 raw value e ds escape _ =>
    rw [List.cons_append, List.cons_append, stringEnd_backslash, escape]
    rfl
  | case6 raw value c cs quote slash ih =>
    rw [List.cons_append, stringEnd_plain _ _ _ quote slash]
    exact ih ended

/-- A string is closed by a quote. -/
theorem mem_of_stringEnd_closed {raw value cs raw' value' rest : List Char}
    (h : stringEnd raw value cs = .closed raw' value' rest) : '\x22' ∈ cs := by
  fun_induction stringEnd raw value cs with
  | case1 | case3 | case5 => cases h
  | case2 => exact List.mem_cons_self
  | case4 _ _ _ _ _ _ _ ih => exact List.mem_cons_of_mem _ (List.mem_cons_of_mem _ (ih h))
  | case6 _ _ _ _ _ _ ih => exact List.mem_cons_of_mem _ (ih h)

/-- A string that is open at the end of a text is closed by a quote behind it, if at all. -/
theorem mem_of_stringEnd_append {raw value cs more raw' raw'' value' rest : List Char}
    (opened : stringEnd raw value cs = .unclosed raw')
    (h : stringEnd raw value (cs ++ more) = .closed raw'' value' rest) : '\x22' ∈ more := by
  fun_induction stringEnd raw value cs with
  | case1 => exact mem_of_stringEnd_closed h
  | case2 | case5 => cases opened
  | case3 raw value =>
    -- the backslash at the end goes with the first character behind it
    exact (List.mem_cons.1 (mem_of_stringEnd_closed h)).resolve_left (by decide)
  | case4 raw value e ds d escape _ ih =>
    rw [List.cons_append, List.cons_append, stringEnd_backslash, escape] at h
    exact ih opened h
  | case6 raw value c cs quote slash ih =>
    rw [List.cons_append, stringEnd_plain _ _ _ quote slash] at h
    exact ih opened h

/-- Whether a string that opens before `cs` is still open at the end of `cs`. -/
def OpenIn (cs : List Char) : Prop := ∃ raw, stringEnd [] [] cs = .unclosed raw

theorem scanString_append_of_not_openIn {cs : List Char} (ended : ¬ OpenIn cs) (more : List Char) :
    scanString (cs ++ more) = (scanString cs).followedBy more := by
  have same := stringEnd_append_of_ended (fun raw eq => ended ⟨raw, eq⟩) more
  unfold scanString
  rw [same]
  rcases eq : stringEnd [] [] cs with ⟨raw, value, rest⟩ | raw | ⟨raw, e, rest⟩
  · rfl
  · exact absurd ⟨raw, eq⟩ ended
  · rfl

/-! ## Any token -/

/-- A scan does not look behind a line break, unless it reads a string that is still open there. -/
theorem scan_append_break (c : Char) (cs more : List Char) :
    scan c (cs ++ '\n' :: more) = (scan c cs).followedBy ('\n' :: more) ∨
      scan c = scanString ∧ OpenIn cs := by
  have reader := scansBy c
  generalize scan c = r at reader ⊢
  cases reader with
  | single => exact .inl rfl
  | pair pair alone => exact .inl (scanPair_append_break c pair alone cs more)
  | string =>
    by_cases opened : OpenIn cs
    · exact .inr ⟨rfl, opened⟩
    · exact .inl (scanString_append_of_not_openIn opened _)
  | number => exact .inl (scanNumber_append_break c cs more)
  | word => exact .inl (scanWord_append_break c cs more)
  | unknown => exact .inl rfl

/-- A token in front of a line break is a token of what stands in front of it, and conversely if
the text behind it has no quote. -/
theorem scan_token_append_break {c : Char} {cs text rest : List Char} {t : Token}
    (h : scan c cs = .token t text rest) (more : List Char) :
    scan c (cs ++ '\n' :: more) = .token t text (rest ++ '\n' :: more) := by
  rcases scan_append_break c cs more with same | ⟨string, raw, opened⟩
  · rw [same, h]
    rfl
  · rw [string, scanString, opened] at h
    cases h

theorem scan_fault_append_break {c : Char} {cs before extent passed rest more : List Char}
    {cause : LexCause} (h : scan c cs = .fault cause before extent passed rest)
    (free : '\x22' ∉ more) (t : Token) (text rest' : List Char) :
    scan c (cs ++ '\n' :: more) ≠ .token t text rest' := by
  rcases scan_append_break c cs more with same | ⟨string, raw, opened⟩
  · rw [same, h]
    exact nofun
  · intro found
    rw [string] at found
    unfold scanString at found
    split at found
    · rename_i closed
      have mem := mem_of_stringEnd_append opened closed
      exact free ((List.mem_cons.1 mem).resolve_left (by decide))
    · cases found
    · cases found

/-! ## Places further down -/

/-- A mark with `k` more bytes and `n` more lines before it; it stands no further to the right. -/
def Mark.moved (k n : Nat) (m : Mark) : Mark := ⟨m.offset + k, m.line + (n : UInt32), m.col⟩

/-- A span with `k` more bytes and `n` more lines before it. -/
def Span.moved (k n : Nat) (s : Span) : Span :=
  ⟨s.start + (k : UInt32), s.stop + (k : UInt32), s.line + (n : UInt32), s.col⟩

/-- A lexeme with `k` more bytes and `n` more lines before it. -/
def Lexeme.moved (k n : Nat) (x : Lexeme) : Lexeme := ⟨x.token, x.text, x.span.moved k n⟩

/-- A fault with `k` more bytes and `n` more lines before it. -/
def LexFault.moved (k n : Nat) (fault : LexFault) : LexFault :=
  ⟨fault.cause, fault.span.moved k n⟩

/-- A cursor over the same text, with `k` more bytes and `n` more lines before it. -/
def Lexer.moved (k n : Nat) (l : Lexer) : Lexer := ⟨l.rest, l.mark.moved k n, l.finished⟩

section Moved

variable (k n : Nat)

theorem Mark.next_moved (m : Mark) (c : Char) : (m.moved k n).next c = (m.next c).moved k n := by
  have right : m.offset + k + c.utf8Size = m.offset + c.utf8Size + k := Nat.add_right_comm _ _ _
  unfold next
  split
  · have below : m.line + (n : UInt32) + 1 = m.line + 1 + (n : UInt32) := by
      rw [UInt32.add_assoc, UInt32.add_comm _ 1, ← UInt32.add_assoc]
    exact congrArg₂ (Mark.mk · · 1) right below
  · exact congrArg (Mark.mk · _ _) right

theorem Mark.advance_moved (m : Mark) (cs : List Char) :
    (m.moved k n).advance cs = (m.advance cs).moved k n := by
  induction cs generalizing m with
  | nil => rfl
  | cons c cs ih => rw [advance_cons, advance_cons, next_moved, ih]

theorem Span.between_moved (m m' : Mark) :
    between (m.moved k n) (m'.moved k n) = (between m m').moved k n := by
  have start := UInt32.ofNat_add m.offset k
  have stop := UInt32.ofNat_add m'.offset k
  exact congrArg₂ (Span.mk · · _ _) start stop

/-- What is read next further down is what is read next at the top, moved. -/
theorem Lexer.nextLexeme_moved (l : Lexer) :
    (l.moved k n).nextLexeme =
      match l.nextLexeme with
      | (.ok x, l') => (.ok (x.moved k n), l'.moved k n)
      | (.error fault, l') => (.error (fault.moved k n), l'.moved k n) := by
  unfold nextLexeme
  simp only [Lexer.moved, Mark.advance_moved, Span.between_moved]
  cases l.rest.dropWhile isBlank with
  | nil => rfl
  | cons c cs =>
    dsimp only
    cases scan c cs with
    | token t text rest => rfl
    | fault cause before extent passed rest => rfl

/-- The lexemes that are read further down are those that are read at the top, moved, or else the
fault is; what was read before does not matter to them. -/
theorem Lexer.collect_moved (l : Lexer) (read before : List Lexeme) :
    (l.moved k n).collect (read.map (Lexeme.moved k n) ++ before) =
      match l.collect read with
      | .ok xs => .ok (before.reverse ++ xs.map (Lexeme.moved k n))
      | .error fault => .error (fault.moved k n) := by
  have next := l.nextLexeme_moved k n
  -- a fault, the end mark, or another lexeme and the rest of the text
  fun_induction Lexer.collect l read with
  | case1 l read fault l' eq =>
    rw [eq] at next
    exact collect_of_error next _
  | case2 l read x l' eq eof =>
    rw [eq] at next
    rw [collect_of_eof next eof]
    show Except.ok ((x :: read).map (Lexeme.moved k n) ++ before).reverse =
      .ok (before.reverse ++ (x :: read).reverse.map (Lexeme.moved k n))
    rw [List.reverse_append, List.map_reverse]
  | case3 l read x l' eq ne ih =>
    rw [eq] at next
    rw [collect_of_ne_eof next ne]
    exact ih (l'.nextLexeme_moved k n)

end Moved

/-! ## Two texts -/

/-- The lexemes before the end mark. -/
def beforeEnd (xs : List Lexeme) : List Lexeme := xs.filter fun x => x.token ≠ .eof

/-- The lexeme of the line break that stands at the mark `m`. -/
def Mark.lineBreak (m : Mark) : Lexeme := ⟨.newline, "\n", .between m (m.next '\n')⟩

/-- A text that is read is read as well in front of a line break, and the cursor goes on behind it
with nothing to remember but its place. -/
theorem Reads.collect_append_break {m : Mark} {cs : List Char} {xs : List Lexeme}
    (h : Reads m cs xs) (more : List Char) (f : Bool) (read : List Lexeme) :
    Lexer.collect ⟨cs ++ '\n' :: more, m, f⟩ read =
      Lexer.collect ⟨more, (m.advance cs).next '\n', f⟩
        ((m.advance cs).lineBreak :: ((beforeEnd xs).reverse ++ read)) := by
  induction h generalizing read with
  | @done m gap blank =>
    have line : scan '\n' more = .token .newline ['\n'] more := rfl
    rw [Lexer.collect_of_eq (Lexer.nextLexeme_gap blank _ m f),
      Lexer.collect_of_ne_eof (Lexer.nextLexeme_token rfl line _ f) nofun]
    rfl
  | @token m gap cs text rest c t xs blank start found _ ih =>
    obtain ⟨ne, -, covers⟩ := scan_append found
    have found' := scan_token_append_break found more
    rw [List.append_assoc, List.cons_append,
      Lexer.collect_of_eq (Lexer.nextLexeme_gap blank _ m f),
      Lexer.collect_of_ne_eof (Lexer.nextLexeme_token start found' _ f) ne, ih, covers,
      Mark.advance_append, Mark.advance_append]
    congr 2
    rw [beforeEnd, beforeEnd, List.filter_cons_of_pos (by simpa using ne), List.reverse_cons,
      List.append_assoc]
    rfl

variable {a : String} {xs : List Lexeme}

/-- The place behind a text and a line break is the first place, moved. -/
theorem Mark.next_advance_origin (cs : List Char) :
    (origin.advance cs).next '\n' = origin.moved (byteLength cs + 1) (cs.count '\n' + 1) := by
  have bytes : byteLength cs + 1 = 0 + (byteLength cs + 1) := (Nat.zero_add _).symm
  have below : UInt32.ofNat (1 + cs.count '\n') + 1 = 1 + UInt32.ofNat (cs.count '\n' + 1) := by
    rw [UInt32.ofNat_add, UInt32.ofNat_add, UInt32.add_assoc]
    rfl
  rw [advance_origin]
  exact congrArg₂ (Mark.mk · · 1) bytes below

theorem toList_append_break (a b : String) :
    (a ++ "\n" ++ b).toList = a.toList ++ '\n' :: b.toList := by
  rw [String.toList_append, String.toList_append, List.append_assoc]
  rfl

/-- The lexemes of two texts joined by a line break are those of the first, the line break and
those of the second, further down, where a fault of the second text lies too. -/
theorem tokenize_append_break (h : tokenize a = .ok xs) (b : String) :
    tokenize (a ++ "\n" ++ b) =
      match tokenize b with
      | .ok ys => .ok (beforeEnd xs ++ (Mark.origin.advance a.toList).lineBreak ::
          ys.map (Lexeme.moved (a.utf8ByteSize + 1) (a.toList.count '\n' + 1)))
      | .error fault => .error (fault.moved (a.utf8ByteSize + 1) (a.toList.count '\n' + 1)) := by
  have later := (Lexer.ofText b).collect_moved (a.utf8ByteSize + 1) (a.toList.count '\n' + 1) []
    ((Mark.origin.advance a.toList).lineBreak :: (beforeEnd xs).reverse)
  rw [tokenize, Lexer.ofText, toList_append_break, (tokenize_eq_ok_iff.1 h).collect_append_break,
    Mark.next_advance_origin, byteLength_toList, List.append_nil]
  refine later.trans ?_
  rw [List.reverse_cons, List.reverse_reverse]
  unfold tokenize
  rcases (Lexer.ofText b).collect [] with fault | ys
  · rfl
  · exact congrArg Except.ok (List.append_assoc _ _ _)

/-- A line break parts two texts for good. What stands before it is read as if it ended there; what
stands behind it is read, or not, as if it began there, and only the places of its lexemes, or of
the fault, count what stands before. -/
theorem reading_is_local (a b : String) (xs : List Lexeme) (h : tokenize a = .ok xs) :
    ((∃ zs, tokenize (a ++ "\n" ++ b) = .ok zs) ↔ ∃ ys, tokenize b = .ok ys) ∧
    (∀ ys, tokenize b = .ok ys → ∃ line, tokenize (a ++ "\n" ++ b) =
        .ok (beforeEnd xs ++ line ::
          ys.map (Lexeme.moved (a.utf8ByteSize + 1) (a.toList.count '\n' + 1))) ∧
      line.token = .newline ∧ line.text = "\n" ∧
      line.span = ⟨a.utf8ByteSize, (a.utf8ByteSize + 1 : Nat), (1 + a.toList.count '\n' : Nat),
        (1 + (lastLine a.toList).length : Nat)⟩) ∧
    ∀ fault, tokenize b = .error fault → tokenize (a ++ "\n" ++ b) =
      .error (fault.moved (a.utf8ByteSize + 1) (a.toList.count '\n' + 1)) := by
  have joined := tokenize_append_break h b
  refine ⟨⟨fun whole => ?_, fun later => ?_⟩, fun ys eq => ?_, fun fault eq => ?_⟩
  · obtain ⟨zs, eq⟩ := whole
    rcases second : tokenize b with fault | ys
    · rw [joined, second] at eq
      cases eq
    · exact ⟨ys, rfl⟩
  · obtain ⟨ys, eq⟩ := later
    rw [eq] at joined
    exact ⟨_, joined⟩
  · rw [eq] at joined
    refine ⟨_, joined, rfl, rfl, ?_⟩
    rw [Mark.advance_origin, byteLength_toList]
    rfl
  · rw [eq] at joined
    exact joined

/-- The two signs of one operator, on two lines: the second of them is no token. -/
theorem reading_is_local_less_equal :
    ∃ xs, tokenize "<" = .ok xs ∧
      tokenize ("<" ++ "\n" ++ "=") = .error ⟨.unexpectedCharacter '=', ⟨2, 3, 2, 1⟩⟩ := by
  have sign : scan '<' [] = .token (.op .less) ['<'] [] := rfl
  have empty : ∀ d ∈ ([] : List Char), isBlank d = true := List.forall_mem_nil _
  have reads := Reads.token (m := .origin) empty rfl sign (.done empty)
  have cut : "<".toList = [] ++ '<' :: [] := rfl
  have first := tokenize_eq_ok_iff.2 (cut ▸ reads)
  have second : tokenize "=" = .error ⟨.unexpectedCharacter '=', ⟨0, 1, 1, 1⟩⟩ :=
    Lexer.collect_of_error rfl []
  exact ⟨_, first, (reading_is_local "<" "=" _ first).2.2 _ second⟩

/-- A text in front of a line break is read by itself, if the whole is read and no quote stands
behind the line break. -/
theorem Reads.of_append_break {m : Mark} {cs more : List Char} {zs : List Lexeme}
    (h : Reads m (cs ++ '\n' :: more) zs) (free : '\x22' ∉ more) : ∃ xs, Reads m cs xs := by
  generalize eq : cs ++ '\n' :: more = whole at h
  induction h generalizing cs with
  | @done m gap blank =>
    have line : '\n' ∈ gap := eq ▸ List.mem_append_right cs List.mem_cons_self
    exact absurd (blank _ line) (by decide)
  | @token m gap ds text rest c t zs blank start found _ ih =>
    rcases List.append_eq_append_iff.1 eq with ⟨beyond, rfl, eq'⟩ | ⟨beyond, rfl, eq'⟩
    · -- the line break stands at the token or among the blanks before it
      cases beyond with
      | nil => exact ⟨_, .done (by simpa using blank)⟩
      | cons d beyond =>
        obtain ⟨rfl, -⟩ := List.cons.inj eq'
        have line : '\n' ∈ cs ++ '\n' :: beyond := List.mem_append_right cs List.mem_cons_self
        exact absurd (blank _ line) (by decide)
    · cases beyond with
      | nil => exact ⟨_, .done (by simpa using blank)⟩
      | cons d beyond =>
        obtain ⟨rfl, rfl⟩ := List.cons.inj eq'
        rcases alone : scan c beyond with ⟨t', text', rest'⟩ | _
        · have same := scan_token_append_break alone more
          cases found.symm.trans same
          obtain ⟨xs, later⟩ := ih rfl
          exact ⟨_, .token blank start alone later⟩
        · exact absurd found (scan_fault_append_break alone free t text rest)

theorem exists_tokenize_of_append_break {b : String} {zs : List Lexeme}
    (h : tokenize (a ++ "\n" ++ b) = .ok zs) (free : '\x22' ∉ b.toList) :
    ∃ xs, tokenize a = .ok xs := by
  have reads := tokenize_eq_ok_iff.1 h
  rw [toList_append_break] at reads
  obtain ⟨xs, alone⟩ := reads.of_append_break free
  exact ⟨xs, tokenize_eq_ok_iff.2 alone⟩

end GujaratiScript
