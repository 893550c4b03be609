import GujaratiScript.Proofs.Spelling.Calls

/-!
# Which word is read

Where an identifier may start, a keyword of several words is read if one stands there, and the
longest of them if there are several. Otherwise it is the longest run of identifier characters,
which is a keyword of one word if it is spelled like one and a name if not.

* `Keyword.StandsAt`, `IsRun` : keywords and runs at the beginning of a text;
* `phraseAt?_eq_some`, `phraseAt?_eq_none_iff` : what the search of the table finds;
* `WordAt` : what is read at the beginning of a text;
* `words_are_longest` : the main statement.
-/

namespace GujaratiScript

open Unicode

/-! ## Words at the beginning of a text -/

/-- No identifier character stands at the beginning of `cs`: the text ends there, or a word that
stands before it does. -/
def Parted (cs : List Char) : Prop := ∀ c ∈ cs.head?, isIdentContinue c = false

theorem parted_iff (cs : List Char) : Parted cs ↔ atWordEnd cs = true := by
  cases cs with
  | nil => simp [Parted, atWordEnd]
  | cons c cs => simp [Parted, atWordEnd]

/-- The keyword is spelled at the beginning of `cs`, and no identifier character follows. -/
def Keyword.StandsAt (k : Keyword) (cs : List Char) : Prop :=
  ∃ rest, cs = k.spelling.toList ++ rest ∧ Parted rest

/-- `w` is the longest run of identifier characters at the beginning of `cs`. -/
structure IsRun (w cs : List Char) : Prop where
  all : ∀ c ∈ w, isIdentContinue c = true
  ends : ∃ rest, cs = w ++ rest ∧ Parted rest

/-- A character that starts an identifier and those behind it that go on with it are a run. -/
theorem isRun_cons_takeWhile {c : Char} (h : isIdentStart c = true) (cs : List Char) :
    IsRun (c :: cs.takeWhile isIdentContinue) (c :: cs) := by
  constructor
  · intro d mem
    rcases List.mem_cons.1 mem with rfl | mem
    · exact isIdentContinue_of_isIdentStart h
    · exact List.all_eq_true.1 List.all_takeWhile d mem
  · refine ⟨cs.dropWhile isIdentContinue, ?_, ?_⟩
    · rw [List.cons_append, List.takeWhile_append_dropWhile]
    · intro d mem
      have stop := List.head?_dropWhile_not isIdentContinue cs
      rw [Option.mem_def.1 mem] at stop
      simpa using stop

/-! ## The tables -/

/-- The search of the table asks whether a phrase stands there. -/
theorem Keyword.standsAt_iff (k : Keyword) (cs : List Char) :
    k.StandsAt cs ↔ (k.spelling.toList.isPrefixOf cs &&
      atWordEnd (cs.drop k.spelling.toList.length)) = true := by
  rw [Bool.and_eq_true, List.isPrefixOf_iff_prefix]
  constructor
  · rintro ⟨rest, rfl, parted⟩
    refine ⟨List.prefix_append _ _, ?_⟩
    rw [List.drop_left]
    exact (parted_iff rest).1 parted
  · rintro ⟨⟨rest, rfl⟩, ends⟩
    rw [List.drop_left] at ends
    exact ⟨rest, rfl, (parted_iff rest).2 ends⟩

/-- Nothing is found if and only if no phrase stands there. -/
theorem phraseAt?_eq_none_iff (cs : List Char) :
    phraseAt? cs = none ↔ ∀ k ∈ Keyword.phrases, ¬ k.StandsAt cs := by
  rw [phraseAt?, List.find?_eq_none]
  constructor
  · intro none k mem
    rw [k.standsAt_iff]
    exact none k mem
  · intro none k mem
    rw [← k.standsAt_iff]
    exact none k mem

/-- The table goes from longer phrases to shorter ones. -/
theorem Keyword.pairwise_phrases :
    phrases.Pairwise fun k k' => k'.spelling.length ≤ k.spelling.length := by
  decide

/-- What is found stands there, and no phrase that stands there is longer. -/
theorem phraseAt?_eq_some {cs : List Char} {k : Keyword} (h : phraseAt? cs = some k) :
    k ∈ Keyword.phrases ∧ k.StandsAt cs ∧
      ∀ k' ∈ Keyword.phrases, k'.StandsAt cs → k'.spelling.length ≤ k.spelling.length := by
  obtain ⟨stands, before, later, table, none⟩ := List.find?_eq_some_iff_append.1 h
  have sorted := Keyword.pairwise_phrases
  rw [table] at sorted
  refine ⟨List.mem_of_find?_eq_some h, (k.standsAt_iff cs).2 stands, ?_⟩
  intro k' mem stands'
  rw [table] at mem
  -- the phrases before it in the table do not stand there, and those behind it are no longer
  rcases List.mem_append.1 mem with mem | mem
  · have no := none k' mem
    rw [(k'.standsAt_iff cs).1 stands'] at no
    cases no
  · rcases List.mem_cons.1 mem with rfl | mem
    · exact Nat.le_refl _
    · exact (List.pairwise_cons.1 (List.pairwise_append.1 sorted).2.1).1 k' mem

/-- The keywords of one word are found by their spelling. -/
theorem Keyword.ofWord?_eq_some_iff (w : String) (k : Keyword) :
    ofWord? w = some k ↔ k ∈ words ∧ w = k.spelling := by
  constructor
  · intro h
    have spelled := List.find?_some h
    exact ⟨List.mem_of_find?_eq_some h, (eq_of_beq spelled).symm⟩
  · rintro ⟨mem, rfl⟩
    revert k
    decide

theorem Keyword.ofWord?_eq_none_iff (w : String) :
    ofWord? w = none ↔ ∀ k ∈ words, w ≠ k.spelling := by
  rw [Option.eq_none_iff_forall_ne_some]
  constructor
  · intro none k mem eq
    exact none k ((ofWord?_eq_some_iff w k).2 ⟨mem, eq⟩)
  · intro none k eq
    obtain ⟨mem, same⟩ := (ofWord?_eq_some_iff w k).1 eq
    exact none k mem same

/-! ## What is read -/

/-- The token `t` with the text `w` is the word at the beginning of `cs`. -/
structure WordAt (cs : List Char) (t : Token) (w : String) : Prop where
  /-- If phrases stand there, it is the longest of them. -/
  phrase : (∃ k ∈ Keyword.phrases, k.StandsAt cs) → ∃ k ∈ Keyword.phrases, k.StandsAt cs ∧
    (∀ k' ∈ Keyword.phrases, k'.StandsAt cs → k'.spelling.length ≤ k.spelling.length) ∧
    t = .word k ∧ w = k.spelling
  /-- If none does, it is the longest run of identifier characters: the keyword of one word that is
  spelled like this, or else a name. -/
  run : (¬ ∃ k ∈ Keyword.phrases, k.StandsAt cs) → IsRun w.toList cs ∧
    (∀ k, t = .word k ↔ k ∈ Keyword.words ∧ w = k.spelling) ∧
    ((∀ k ∈ Keyword.words, w ≠ k.spelling) → t = .ident w)

/-- Where an identifier may start, the word that stands there is read. -/
theorem wordAt_of_scan {c : Char} (start : isIdentStart c = true) {cs text rest : List Char}
    {t : Token} (h : scan c cs = .token t text rest) : WordAt (c :: cs) t (String.ofList text) := by
  have covers := (scan_append h).2.2
  rw [scan_of_isIdentStart start, scanWord] at h
  rcases found : phraseAt? (c :: cs) with _ | k
  · have none := (phraseAt?_eq_none_iff _).1 found
    have no : ¬ ∃ k ∈ Keyword.phrases, k.StandsAt (c :: cs) := by
      rintro ⟨k, mem, stands⟩
      exact none k mem stands
    -- no phrase stands here, so it is the whole run: a word with a keyword, or a name
    refine ⟨fun some => absurd some no, fun _ => ?_⟩
    have run := isRun_cons_takeWhile start cs
    rw [found] at h
    dsimp only at h
    rcases word : Keyword.ofWord? (String.ofList (c :: cs.takeWhile isIdentContinue)) with _ | k
    · rw [word] at h
      cases h
      have free := (Keyword.ofWord?_eq_none_iff _).1 word
      refine ⟨by rwa [String.toList_ofList], ?_, fun _ => rfl⟩
      intro k
      constructor
      · intro eq
        cases eq
      · rintro ⟨mem, eq⟩
        exact absurd eq (free k mem)
    · rw [word] at h
      cases h
      obtain ⟨mem, eq⟩ := (Keyword.ofWord?_eq_some_iff _ _).1 word
      refine ⟨by rwa [String.toList_ofList], ?_, fun free => absurd eq (free k mem)⟩
      intro k'
      rw [← Keyword.ofWord?_eq_some_iff, word, Option.some_inj, Token.word.injEq]
  · -- a phrase stands here, and the longest of them is taken
    obtain ⟨mem, stands, longest⟩ := phraseAt?_eq_some found
    refine ⟨fun _ => ⟨k, mem, stands, longest, ?_⟩, fun none => absurd ⟨k, mem, stands⟩ none⟩
    rw [found] at h
    obtain ⟨behind, cut, -⟩ := stands
    obtain ⟨d, ds, spelled, -⟩ := k.exists_cons
    rw [spelled] at cut
    obtain ⟨rfl, rfl⟩ := List.cons.inj cut
    have size : k.spelling.toList.length - 1 = ds.length := by
      rw [spelled]
      rfl
    have taken : List.take ds.length (ds ++ behind) = ds := List.take_left
    dsimp only at h
    rw [size, List.append_eq, taken] at h
    cases h
    exact ⟨rfl, by rw [← spelled, String.ofList_toList]⟩

/-- The lexeme `x` is the answer to one of the calls that a cursor over the text is asked for: it is
read where, behind the blanks, the characters `before` are passed and `after` are left. -/
def Lexeme.IsRead (text : String) (before after : List Char) (x : Lexeme) : Prop :=
  ∃ calls call, (((Lexer.ofText text).after calls).call call).1 = some (.ok x) ∧
    ((Lexer.ofText text).after calls).rest.dropWhile isBlank = after ∧
    text.toList = before ++ after

/-- Whatever lexeme is the answer to a call, it is read somewhere in the text. -/
theorem Lexer.exists_isRead (text : String) (calls : List Call) (call : Call) {x : Lexeme}
    (answer : (((ofText text).after calls).call call).1 = some (.ok x)) :
    ∃ before after, x.IsRead text before after := by
  obtain ⟨before, cut, -⟩ := (on_after (on_ofText text) calls).gap
  exact ⟨before, _, calls, call, answer, rfl, cut⟩

/-- The lexemes of a text are all read, by asking for one after the other. -/
theorem isRead_of_mem_tokenize {text : String} {xs : List Lexeme} (h : tokenize text = .ok xs) :
    ∀ x ∈ xs, ∃ before after, x.IsRead text before after := by
  have collected : ∀ (l : Lexer) (read : List Lexeme),
      (∀ y ∈ read, ∃ before after, y.IsRead text before after) →
      (∃ calls, l = (Lexer.ofText text).after calls) → l.collect read = .ok xs →
      ∀ x ∈ xs, ∃ before after, x.IsRead text before after := by
    intro l read all reached eq
    -- a fault, the end mark, or another lexeme and the rest of the text
    fun_induction Lexer.collect l read with
    | case1 => cases eq
    | case2 l read x l' next eof =>
      cases eq
      obtain ⟨calls, rfl⟩ := reached
      have last := Lexer.exists_isRead text calls .lexeme (x := x)
        (by rw [Lexer.call, next])
      have all' : ∀ y ∈ x :: read, ∃ before after, y.IsRead text before after :=
        List.forall_mem_cons.2 ⟨last, all⟩
      exact fun y mem => all' y (List.mem_reverse.1 mem)
    | case3 l read x l' next ne ih =>
      obtain ⟨calls, rfl⟩ := reached
      have here := Lexer.exists_isRead text calls .lexeme (x := x)
        (by rw [Lexer.call, next])
      refine ih (List.forall_mem_cons.2 ⟨here, all⟩) ⟨calls ++ [.lexeme], ?_⟩ eq
      rw [Lexer.after_append]
      show _ = (((Lexer.ofText text).after calls).call .lexeme).2
      rw [Lexer.call, next]
  exact collected _ [] (List.forall_mem_nil _) ⟨[], rfl⟩ h

section IsRead

variable {text : String} {before after : List Char} {x : Lexeme}

/-- A lexeme that is read is what a scan finds where it is read, or the end mark at the end. -/
theorem Lexeme.IsRead.scanned (h : x.IsRead text before after) :
    after = [] ∧ x.token = .eof ∨
      ∃ c cs word rest, after = c :: cs ∧ scan c cs = .token x.token word rest ∧
        x.text = String.ofList word ∧ x.span.Covers text before word rest := by
  obtain ⟨calls, call, answer, left, cut⟩ := h
  obtain ⟨passed, cut', start⟩ := (Lexer.on_after (Lexer.on_ofText text) calls).gap
  generalize (Lexer.ofText text).after calls = l at *
  rw [left] at cut'
  obtain rfl := List.append_cancel_right (cut.symm.trans cut')
  -- either call has given the next lexeme, the one for items unless the cursor was finished
  have read : l.nextLexeme.1 = .ok x := by
    cases call with
    | lexeme => exact Option.some.inj answer
    | item =>
      by_cases finished : l.finished = true
      · rw [Lexer.call, Lexer.next?_of_finished finished] at answer
        cases answer
      · rw [Lexer.call, (Lexer.next?_of_not_finished finished).1] at answer
        exact Option.some.inj answer
  unfold Lexer.nextLexeme at read
  rw [left, start] at read
  rcases after with _ | ⟨c, cs⟩
  · cases read
    exact .inl ⟨rfl, rfl⟩
  · rcases found : scan c cs with ⟨t, word, rest⟩ | _
    · simp only [found, Except.ok.injEq] at read
      subst read
      have whole : text.toList = before ++ word ++ rest := by
        rw [cut, (scan_append found).2.2, List.append_assoc]
      exact .inr ⟨c, cs, word, rest, rfl, found, rfl, .between rfl whole⟩
    · simp only [found] at read
      cases read

/-- A lexeme that is read where an identifier may start is the word that stands there, and covers
it. -/
theorem Lexeme.IsRead.wordAt {c : Char} {cs : List Char} (h : x.IsRead text before (c :: cs))
    (hc : isIdentStart c = true) :
    WordAt (c :: cs) x.token x.text ∧ ∃ rest, x.span.Covers text before x.text.toList rest := by
  rcases h.scanned with ⟨none, -⟩ | ⟨d, ds, word, rest, eq, found, same, covers⟩
  · cases none
  · obtain ⟨rfl, rfl⟩ := List.cons.inj eq
    rw [same, String.toList_ofList]
    exact ⟨wordAt_of_scan hc found, rest, covers⟩

end IsRead

/-- A word that is read as a keyword is the keyword that stands there. -/
theorem WordAt.standsAt {cs : List Char} {k : Keyword} {w : String} (h : WordAt cs (.word k) w) :
    k.StandsAt cs := by
  by_cases some : ∃ k ∈ Keyword.phrases, k.StandsAt cs
  · obtain ⟨k', -, stands, -, eq, -⟩ := h.phrase some
    cases eq
    exact stands
  · obtain ⟨run, keyword, -⟩ := h.run some
    obtain ⟨-, rfl⟩ := (keyword k).1 rfl
    exact run.ends

/-- Every lexeme of a text is read somewhere in it; others may be read by whatever calls in between.
Where an identifier may start, what is read is the word that stands there: the longest phrase, or
else the longest run of identifier characters. So no name is spelled like a keyword of one word, and
no keyword is read where its spelling is followed by an identifier character. -/
theorem words_are_longest (text : String) :
    (∀ xs, tokenize text = .ok xs → ∀ x ∈ xs, ∃ before after, x.IsRead text before after) ∧
    ∀ (x : Lexeme) (before after : List Char), x.IsRead text before after →
      (∀ c cs, after = c :: cs → isIdentStart c = true →
        WordAt after x.token x.text ∧ ∃ rest, x.span.Covers text before x.text.toList rest) ∧
      (∀ name, x.token = .ident name → ∀ k ∈ Keyword.words, name ≠ k.spelling) ∧
      ∀ k d more, after = k.spelling.toList ++ d :: more → isIdentContinue d = true →
        x.token ≠ .word k := by
  refine ⟨fun xs => isRead_of_mem_tokenize, fun x before after h => ⟨?_, ?_, ?_⟩⟩
  · rintro c cs rfl hc
    exact h.wordAt hc
  · intro name eq
    rcases h.scanned with ⟨-, eof⟩ | ⟨c, cs, word, rest, -, found, -⟩
    · rw [eq] at eof
      cases eof
    · have proper := proper_of_scan found
      rw [eq] at proper
      exact (Keyword.ofWord?_eq_none_iff name).1 proper.free
  · rintro k d more rfl goes eq
    obtain ⟨c, cs, spelled, hc⟩ := k.exists_cons
    rw [spelled, List.cons_append] at h
    have word := (h.wordAt hc).1
    rw [eq] at word
    -- the keyword would have to end where the character stands
    obtain ⟨rest, whole, parted⟩ := word.standsAt
    rw [spelled, List.cons_append] at whole
    obtain rfl := List.append_cancel_left (List.cons.inj whole).2
    rw [parted d rfl] at goes
    cases goes

/-- The words of a phrase with one letter behind them: a keyword of one word and a name. -/
theorem words_are_longest_letter :
    ∃ x y : Lexeme, x.IsRead "nahi too" [] "nahi too".toList ∧
      y.IsRead "nahi too" "nahi ".toList "too".toList ∧
      (x.token = .word .nahi ∧ WordAt "nahi too".toList x.token x.text ∧
        x.token ≠ .word .nahiTo) ∧
      y.token = .ident "too" ∧ ∀ k ∈ Keyword.words, "too" ≠ k.spelling := by
  have first : (⟨.word .nahi, "nahi", ⟨0, 4, 1, 1⟩⟩ : Lexeme).IsRead "nahi too" []
      "nahi too".toList := ⟨[], .item, rfl, rfl, rfl⟩
  have second : (⟨.ident "too", "too", ⟨5, 8, 1, 6⟩⟩ : Lexeme).IsRead "nahi too" "nahi ".toList
      "too".toList := ⟨[.item], .lexeme, rfl, rfl, rfl⟩
  obtain ⟨word, -, phrase⟩ := (words_are_longest "nahi too").2 _ _ _ first
  obtain ⟨-, name, -⟩ := (words_are_longest "nahi too").2 _ _ _ second
  refine ⟨_, _, first, second, ⟨rfl, ?_, ?_⟩, rfl, name _ rfl⟩
  · exact (word 'n' ['a', 'h', 'i', ' ', 't', 'o', 'o'] rfl rfl).1
  · exact phrase .nahiTo 'o' [] rfl rfl

end GujaratiScript
