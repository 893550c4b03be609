import GujaratiScript.Proofs.Spelling.Lexing

/-!
# What a text is read as

* `scan_append` : a token takes the characters that it covers and leaves the others;
* `Reads` : the lexemes of a text, place by place, with the blanks before each;
* `tokenize_eq_ok_iff` : they are what the text is read as.
-/

namespace GujaratiScript

open Unicode

/-! ## What a token covers -/

/-- The characters up to a closing quote are added to those that were read before. -/
theorem stringEnd_append {raw value cs raw' value' rest : List Char}
    (h : stringEnd raw value cs = .closed raw' value' rest) :
    ∃ more, raw' = raw.reverse ++ more ∧ cs = more ++ rest := by
  fun_induction stringEnd raw value cs with
  | case1 | case3 | case5 => cases h
  | case2 raw value cs =>
    cases h
    exact ⟨['\x22'], List.reverse_cons, rfl⟩
  | case4 raw value e ds d _ _ ih =>
    obtain ⟨more, eq, rfl⟩ := ih h
    refine ⟨'\\' :: e :: more, ?_, rfl⟩
    rw [eq, List.reverse_cons, List.reverse_cons, List.append_assoc, List.append_assoc]
    rfl
  | case6 raw value c cs _ _ ih =>
    obtain ⟨more, eq, rfl⟩ := ih h
    refine ⟨c :: more, ?_, rfl⟩
    rw [eq, List.reverse_cons, List.append_assoc]
    rfl

/-- What a scan of `c` and `cs` gives covers `c` and a piece of `cs`, and is not the end mark. -/
def Scan.Covers (c : Char) (cs : List Char) : Scan → Prop
  | .token t text rest => t ≠ .eof ∧ ∃ more, text = c :: more ∧ cs = more ++ rest
  | .fault .. => True

theorem covers_scanPair (c : Char) (pair : Operator) (alone : Option Operator) (cs : List Char) :
    (scanPair c pair alone cs).Covers c cs := by
  unfold scanPair
  split
  · exact ⟨nofun, ['='], rfl, rfl⟩
  · exact ⟨nofun, [], rfl, rfl⟩
  · trivial

theorem covers_scanString (cs : List Char) : (scanString cs).Covers '\x22' cs := by
  unfold scanString
  split
  · rename_i closed
    obtain ⟨more, eq, rfl⟩ := stringEnd_append closed
    exact ⟨nofun, more, congrArg _ eq, rfl⟩
  · trivial
  · trivial

theorem covers_scanNumber (c : Char) (cs : List Char) : (scanNumber c cs).Covers c cs := by
  unfold scanNumber
  dsimp only
  split
  · exact ⟨nofun, _, rfl, List.takeWhile_append_dropWhile.symm⟩
  · trivial

theorem covers_scanWord (c : Char) (cs : List Char) : (scanWord c cs).Covers c cs := by
  unfold scanWord
  split
  · exact ⟨nofun, _, rfl, (List.take_append_drop _ cs).symm⟩
  · dsimp only
    split
    · exact ⟨nofun, _, rfl, List.takeWhile_append_dropWhile.symm⟩
    · exact ⟨nofun, _, rfl, List.takeWhile_append_dropWhile.symm⟩

theorem covers_scan (c : Char) (cs : List Char) : (scan c cs).Covers c cs := by
  have reader := scansBy c
  generalize scan c = r at reader ⊢
  cases reader with
  | @single t single =>
    refine ⟨?_, [], rfl, rfl⟩
    rintro rfl
    unfold single? at single
    split at single <;> cases single
  | pair pair alone => exact covers_scanPair c pair alone cs
  | string quote =>
    rw [quote]
    exact covers_scanString cs
  | number => exact covers_scanNumber c cs
  | word => exact covers_scanWord c cs
  | unknown => trivial

/-- A token takes the characters that it covers, which are not none, and leaves the others. -/
theorem scan_append {c : Char} {cs text rest : List Char} {t : Token}
    (h : scan c cs = .token t text rest) : t ≠ .eof ∧ text ≠ [] ∧ c :: cs = text ++ rest := by
  have covers := covers_scan c cs
  rw [h] at covers
  obtain ⟨ne, more, rfl, rfl⟩ := covers
  exact ⟨ne, List.cons_ne_nil c more, rfl⟩

/-! ## The lexemes of a text -/

/-- `Reads m cs xs` : the text `cs`, which begins at the mark `m`, is the lexemes `xs` with blanks
before each, and the last of them is the end mark. -/
inductive Reads : Mark → List Char → List Lexeme → Prop
  | done {m : Mark} {gap : List Char} :
      (∀ d ∈ gap, isBlank d = true) →
      Reads m gap [⟨.eof, "", .between (m.advance gap) (m.advance gap)⟩]
  | token {m : Mark} {gap cs text rest : List Char} {c : Char} {t : Token} {xs : List Lexeme} :
      (∀ d ∈ gap, isBlank d = true) → isBlank c = false → scan c cs = .token t text rest →
      Reads ((m.advance gap).advance text) rest xs →
      Reads m (gap ++ c :: cs)
        (⟨t, String.ofList text, .between (m.advance gap) ((m.advance gap).advance text)⟩ :: xs)

namespace Lexer

/-- A lexeme that is read is the end mark behind blanks, or a token behind them. -/
theorem nextLexeme_cases {l l' : Lexer} {x : Lexeme} (h : l.nextLexeme = (.ok x, l')) :
    ∃ gap, (∀ d ∈ gap, isBlank d = true) ∧
      (l.rest = gap ∧ x = ⟨.eof, "", .between (l.mark.advance gap) (l.mark.advance gap)⟩ ∨
        ∃ c cs t text, l.rest = gap ++ c :: cs ∧ isBlank c = false ∧
          scan c cs = .token t text l'.rest ∧ l'.mark = (l.mark.advance gap).advance text ∧
          x = ⟨t, String.ofList text, .between (l.mark.advance gap) l'.mark⟩) := by
  -- the blanks are those that the cursor moves over before it scans
  have blank : ∀ d ∈ l.rest.takeWhile isBlank, isBlank d = true :=
    List.all_eq_true.1 List.all_takeWhile
  have parts : l.rest.takeWhile isBlank ++ l.rest.dropWhile isBlank = l.rest :=
    List.takeWhile_append_dropWhile
  refine ⟨l.rest.takeWhile isBlank, blank, ?_⟩
  unfold nextLexeme at h
  dsimp only at h
  split at h
  · rename_i none
    cases h
    rw [none, List.append_nil] at parts
    exact .inl ⟨parts.symm, rfl⟩
  · rename_i c cs some
    rw [some] at parts
    split at h
    · rename_i t text rest found
      cases h
      refine .inr ⟨c, cs, t, text, parts.symm, ?_, found, rfl, rfl⟩
      have first := List.head?_dropWhile_not isBlank l.rest
      rw [some] at first
      simpa using first
    · cases h

/-- Blanks before a lexeme only move the place where it is read. -/
theorem nextLexeme_gap {gap : List Char} (blank : ∀ d ∈ gap, isBlank d = true) (cs : List Char)
    (m : Mark) (f : Bool) : nextLexeme ⟨gap ++ cs, m, f⟩ = nextLexeme ⟨cs, m.advance gap, f⟩ := by
  induction gap generalizing m with
  | nil => rfl
  | cons c gap ih =>
    rw [List.cons_append, nextLexeme_blank (blank c List.mem_cons_self), Mark.advance_cons]
    exact ih (fun d mem => blank d (List.mem_cons_of_mem c mem)) (m.next c)

end Lexer

/-- The lexemes collected are those read before and those of the text that was left. -/
theorem reads_of_collect {l : Lexer} {read xs : List Lexeme} (h : l.collect read = .ok xs) :
    ∃ ys, xs = read.reverse ++ ys ∧ Reads l.mark l.rest ys := by
  -- a fault, the end mark, or another lexeme and the rest of the text
  fun_induction Lexer.collect l read with
  | case1 => cases h
  | case2 l read x l' eq eof =>
    cases h
    obtain ⟨gap, blank, ⟨rest, rfl⟩ | ⟨c, cs, t, text, -, -, found, -, rfl⟩⟩ :=
      Lexer.nextLexeme_cases eq
    · refine ⟨_, List.reverse_cons, ?_⟩
      rw [rest]
      exact .done blank
    · exact absurd eof (scan_append found).1
  | case3 l read x l' eq ne ih =>
    obtain ⟨ys, rfl, reads⟩ := ih h
    refine ⟨x :: ys, by rw [List.reverse_cons, List.append_assoc]; rfl, ?_⟩
    obtain ⟨gap, blank, ⟨-, rfl⟩ | ⟨c, cs, t, text, rest, start, found, mark, rfl⟩⟩ :=
      Lexer.nextLexeme_cases eq
    · exact absurd rfl ne
    · rw [rest, mark]
      rw [mark] at reads
      exact .token blank start found reads

theorem Reads.collect {m : Mark} {cs : List Char} {xs : List Lexeme} (h : Reads m cs xs) (f : Bool)
    (read : List Lexeme) : Lexer.collect ⟨cs, m, f⟩ read = .ok (read.reverse ++ xs) := by
  induction h generalizing f read with
  | @done m gap blank =>
    have same := Lexer.nextLexeme_gap blank [] m f
    rw [List.append_nil] at same
    rw [Lexer.collect_of_eq same, Lexer.collect_nil, List.reverse_cons]
  | @token m gap cs text rest c t xs blank start found _ ih =>
    have ne : t ≠ .eof := (scan_append found).1
    rw [Lexer.collect_of_eq (Lexer.nextLexeme_gap blank (c :: cs) m f),
      Lexer.collect_of_ne_eof (Lexer.nextLexeme_token start found _ f) ne, ih, List.reverse_cons,
      List.append_assoc]
    rfl

/-- A text is read as its lexemes. -/
theorem tokenize_eq_ok_iff {text : String} {xs : List Lexeme} :
    tokenize text = .ok xs ↔ Reads .origin text.toList xs := by
  constructor
  · intro h
    obtain ⟨ys, rfl, reads⟩ := reads_of_collect h
    exact reads
  · intro h
    exact h.collect false []

/-- A text with certain characters is read as the lexemes of these. -/
theorem Reads.tokenize {cs : List Char} {xs : List Lexeme} (h : Reads .origin cs xs) {text : String}
    (cut : text.toList = cs) : tokenize text = .ok xs := by
  rw [tokenize_eq_ok_iff, cut]
  exact h

end GujaratiScript
