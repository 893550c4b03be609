import GujaratiScript.Proofs.Grammar.Basic
import GujaratiScript.Proofs.Spelling.Scan

/-!
# Texts and their tokens

* `Lexes` : the tokens of a text, apart from its blanks and line breaks and from all places;
* `Lexes.tokenize` : they are the tokens that the text is read as;
* `Lexes.spelling` : a token in front of a text is written by its spelling;
* `proper_of_tokenize` : what a text is read as is spelled properly.
-/

namespace GujaratiScript

open Unicode

/-! ## The tokens of a text -/

/-- A character that parts tokens: a blank or a line break. -/
def IsGap (c : Char) : Prop := isBlank c = true ∨ c = '\n'

/-- `Lexes cs ts` : the text `cs` is the tokens `ts`, apart from blanks and line breaks. -/
inductive Lexes : List Char → List Token → Prop
  | nil : Lexes [] []
  | gap {c : Char} {cs : List Char} {ts : List Token} :
      IsGap c → Lexes cs ts → Lexes (c :: cs) ts
  | token {c : Char} {cs text rest : List Char} {t : Token} {ts : List Token} :
      isBlank c = false → scan c cs = .token t text rest → t ≠ .newline → t ≠ .eof →
      Lexes rest ts → Lexes (c :: cs) (t :: ts)

/-- Any run of gaps may stand before a text. -/
theorem Lexes.gaps {gap cs : List Char} {ts : List Token} (hg : ∀ c ∈ gap, IsGap c)
    (h : Lexes cs ts) : Lexes (gap ++ cs) ts := by
  induction gap with
  | nil => exact h
  | cons c gap ih =>
    exact .gap (hg c List.mem_cons_self) (ih fun d mem => hg d (List.mem_cons_of_mem c mem))

/-- A blank in front is no token. -/
theorem Lexes.blank {cs : List Char} {ts : List Token} (h : Lexes cs ts) : Lexes (' ' :: cs) ts :=
  .gap (.inl rfl) h

/-- A line break in front is no token. -/
theorem Lexes.line {cs : List Char} {ts : List Token} (h : Lexes cs ts) : Lexes ('\n' :: cs) ts :=
  .gap (.inr rfl) h

/-- A token may stand before any text that does not go on with it. -/
theorem Lexes.spelling {t : Token} {cs : List Char} {ts : List Token} (h : Lexes cs ts)
    (ht : t.Proper) (end_ : t.EndsBefore cs) (seen : t ≠ .newline ∧ t ≠ .eof) :
    Lexes (t.spelling ++ cs) (t :: ts) := by
  obtain ⟨line, eof⟩ := seen
  obtain ⟨c, ds, eq, blank, found⟩ := scan_spelling ht eof end_
  rw [eq]
  exact .token blank found line eof h

/-! ## Reading them -/

namespace Lexer

/-- Blanks before a lexeme only move the place where it is read. -/
theorem nextLexeme_blank {c : Char} (h : isBlank c = true) (cs : List Char) (m : Mark) (f : Bool) :
    nextLexeme ⟨c :: cs, m, f⟩ = nextLexeme ⟨cs, m.next c, f⟩ := by
  unfold nextLexeme
  simp only [List.takeWhile_cons_of_pos h, List.dropWhile_cons_of_pos h, Mark.advance_cons]

/-- A token that is scanned makes the lexeme, with its text and its place. -/
theorem nextLexeme_token {c : Char} {cs text rest : List Char} {t : Token}
    (blank : isBlank c = false) (h : scan c cs = .token t text rest) (m : Mark) (f : Bool) :
    nextLexeme ⟨c :: cs, m, f⟩ =
      (.ok ⟨t, String.ofList text, .between m (m.advance text)⟩, ⟨rest, m.advance text, f⟩) := by
  have no : ¬ isBlank c = true := by
    rw [blank]
    exact Bool.false_ne_true
  unfold nextLexeme
  simp only [List.takeWhile_cons_of_neg no, List.dropWhile_cons_of_neg no, Mark.advance_nil, h]

/-- What is collected depends on the next lexeme and the lexer behind it. -/
theorem collect_of_eq {l l' : Lexer} (h : l.nextLexeme = l'.nextLexeme) (read : List Lexeme) :
    l.collect read = l'.collect read := by
  rw [collect, collect, h]

/-- A lexeme before the end is collected. -/
theorem collect_of_ne_eof {l l' : Lexer} {x : Lexeme} (h : l.nextLexeme = (.ok x, l'))
    (ne : x.token ≠ .eof) (read : List Lexeme) : l.collect read = l'.collect (x :: read) := by
  rw [collect]
  split
  · rename_i eq
    rw [h] at eq
    cases eq
  · rename_i eq
    rw [h] at eq
    cases eq
    rw [dif_neg ne]

/-- With the end mark all lexemes are there. -/
theorem collect_of_eof {l l' : Lexer} {x : Lexeme} (h : l.nextLexeme = (.ok x, l'))
    (eof : x.token = .eof) (read : List Lexeme) : l.collect read = .ok (x :: read).reverse := by
  rw [collect]
  split
  · rename_i eq
    rw [h] at eq
    cases eq
  · rename_i eq
    rw [h] at eq
    cases eq
    rw [dif_pos eof]

/-- A fault ends the collection. -/
theorem collect_of_error {l l' : Lexer} {fault : LexFault} (h : l.nextLexeme = (.error fault, l'))
    (read : List Lexeme) : l.collect read = .error fault := by
  rw [collect]
  split
  · rename_i eq
    rw [h] at eq
    cases eq
    rfl
  · rename_i eq
    rw [h] at eq
    cases eq

/-- At the end of the text only the end mark is left. -/
theorem collect_nil (m : Mark) (f : Bool) (read : List Lexeme) :
    collect ⟨[], m, f⟩ read = .ok ((⟨.eof, "", .between m m⟩ : Lexeme) :: read).reverse :=
  collect_of_eof rfl rfl read

end Lexer

/-- The solid lexemes of two lists one behind the other. -/
theorem solid_append (xs ys : List Lexeme) : solid (xs ++ ys) = solid xs ++ solid ys :=
  List.filter_append xs ys

/-- The lexemes that are collected from a text are those read before and its tokens. -/
theorem Lexes.collect {cs : List Char} {ts : List Token} (h : Lexes cs ts) (m : Mark) (f : Bool)
    (read : List Lexeme) :
    ∃ xs, Lexer.collect ⟨cs, m, f⟩ read = .ok xs ∧
      (solid xs).map Lexeme.token = (solid read.reverse).map Lexeme.token ++ (ts ++ [.eof]) := by
  -- the lexemes read before grow with every token and every line break
  induction h generalizing m f read with
  | nil =>
    refine ⟨_, Lexer.collect_nil m f read, ?_⟩
    rw [List.reverse_cons, solid_append, List.map_append]
    rfl
  | @gap c cs ts hc _ ih =>
    rcases hc with blank | rfl
    · rw [Lexer.collect_of_eq (Lexer.nextLexeme_blank blank cs m f)]
      exact ih _ _ _
    · rw [Lexer.collect_of_ne_eof (Lexer.nextLexeme_token rfl rfl m f) (by simp)]
      obtain ⟨xs, collected, eq⟩ := ih (m.advance ['\n']) f _
      refine ⟨xs, collected, eq.trans ?_⟩
      rw [List.reverse_cons, solid_append, List.map_append]
      simp [solid]
  | @token c cs text rest t ts blank found line eof _ ih =>
    rw [Lexer.collect_of_ne_eof (Lexer.nextLexeme_token blank found m f) eof]
    obtain ⟨xs, collected, eq⟩ := ih (m.advance text) f _
    refine ⟨xs, collected, eq.trans ?_⟩
    rw [List.reverse_cons, solid_append, List.map_append]
    simp [solid, line]

/-- A text is read as its tokens and the end mark. -/
theorem Lexes.tokenize {text : String} {ts : List Token} (h : Lexes text.toList ts) :
    ∃ xs, tokenize text = .ok xs ∧ (solid xs).map Lexeme.token = ts ++ [.eof] :=
  h.collect .origin false []

/-! ## Tokens that are read -/

/-- An operator of one or two characters can be written. -/
theorem proper_of_scanPair {c : Char} {pair : Operator} {alone : Option Operator}
    {cs text rest : List Char} {t : Token} (h : scanPair c pair alone cs = .token t text rest) :
    t.Proper := by
  unfold scanPair at h
  split at h
  · cases h
    trivial
  · cases h
    trivial
  · cases h

/-- A word is a keyword or a name that is none. -/
theorem proper_of_scanWord {c : Char} (start : isIdentStart c = true) {cs text rest : List Char}
    {t : Token} (h : scanWord c cs = .token t text rest) : t.Proper := by
  unfold scanWord at h
  split at h
  · cases h
    trivial
  · simp only at h
    split at h
    · cases h
      trivial
    · rename_i free
      cases h
      refine ⟨⟨c, _, String.toList_ofList, start⟩, ?_, free⟩
      intro d mem
      rw [String.toList_ofList] at mem
      rcases List.mem_cons.1 mem with rfl | mem
      · exact isIdentContinue_of_isIdentStart start
      · exact List.all_eq_true.1 List.all_takeWhile d mem

/-- A number that is scanned can be written. -/
theorem proper_of_scanNumber {c : Char} {cs text rest : List Char} {t : Token}
    (h : scanNumber c cs = .token t text rest) : t.Proper := by
  unfold scanNumber at h
  simp only at h
  split at h
  · rename_i bound
    cases h
    show 0 ≤ (Int64.ofInt _).toInt
    rw [Int64.toInt_ofInt_of_le (by omega) (Int.lt_add_one_of_le bound)]
    exact Int.natCast_nonneg _
  · cases h

/-- A string that is scanned can be written. -/
theorem proper_of_scanString {cs text rest : List Char} {t : Token}
    (h : scanString cs = .token t text rest) : t.Proper := by
  unfold scanString at h
  split at h
  · cases h
    trivial
  · cases h
  · cases h

/-- Whatever token is scanned can be written. -/
theorem proper_of_scan {c : Char} {cs text rest : List Char} {t : Token}
    (h : scan c cs = .token t text rest) : t.Proper := by
  have reader := scansBy c
  generalize scan c = r at reader h
  cases reader with
  | single single =>
    cases h
    unfold single? at single
    split at single
    all_goals first
      | (cases single; trivial)
      | cases single
  | pair => exact proper_of_scanPair h
  | string => exact proper_of_scanString h
  | number => exact proper_of_scanNumber h
  | word start => exact proper_of_scanWord start h
  | unknown => cases h

/-- So can the token of every lexeme. -/
theorem proper_of_nextLexeme {l l' : Lexer} {x : Lexeme} (h : l.nextLexeme = (.ok x, l')) :
    x.token.Proper := by
  unfold Lexer.nextLexeme at h
  simp only at h
  split at h
  · cases h
    trivial
  · split at h
    · rename_i found
      cases h
      exact proper_of_scan found
    · cases h

/-- So can all tokens that are collected. -/
theorem proper_of_collect {l : Lexer} {read xs : List Lexeme} (h : l.collect read = .ok xs)
    (hr : ∀ x ∈ read, x.token.Proper) : ∀ x ∈ xs, x.token.Proper := by
  fun_induction Lexer.collect l read with
  | case1 l read fault l' eq => cases h
  | case2 l read x l' eq eof =>
    cases h
    intro y mem
    rcases List.mem_cons.1 (List.mem_reverse.1 mem) with rfl | mem
    · exact proper_of_nextLexeme eq
    · exact hr y mem
  | case3 l read x l' eq ne ih =>
    refine ih h ?_
    intro y mem
    rcases List.mem_cons.1 mem with rfl | mem
    · exact proper_of_nextLexeme eq
    · exact hr y mem

/-- Every token that a text is read as has a spelling. -/
theorem proper_of_tokenize {text : String} {xs : List Lexeme} (h : tokenize text = .ok xs) :
    ∀ x ∈ xs, x.token.Proper :=
  proper_of_collect h (List.forall_mem_nil _)

end GujaratiScript
