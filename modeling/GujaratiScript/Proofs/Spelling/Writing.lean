import GujaratiScript.Proofs.Spelling.Reads

/-!
# Writing tokens

Tokens that are written one after the other, with a tab between any two, are read as those tokens.
A tab is what parts tokens best: no token goes on with it, and unlike a space it stands inside no
keyword.

* `Token.endsBefore_tab` : no token goes on with a tab, or with nothing;
* `Reads.spelling`, `Reads.blank` : what may stand before a text that is read;
* `tokenize_written` : the tokens that are written are read.
-/

namespace GujaratiScript

/-! ## Written tokens -/

/-- A token as it is written in a program: a string with its escapes, and any other token as
messages name it. -/
def Token.written : Token → String
  | str s => Text.escaped s
  | t => t.literal

/-- Tokens with a tab between any two. -/
def written (ts : List Token) : String := "\t".intercalate (ts.map Token.written)

/-- Only the end mark is named by a character that it is not spelled by. -/
theorem Token.toList_written {t : Token} (ne : t ≠ eof) : t.written.toList = t.spelling := by
  cases t with
  | eof => exact absurd rfl ne
  | _ => rfl

@[simp] theorem toList_written_singleton (t : Token) :
    (written [t]).toList = t.written.toList := by
  rw [written, List.map_singleton, String.intercalate_singleton]

@[simp] theorem toList_written_cons_cons (t u : Token) (ts : List Token) :
    (written (t :: u :: ts)).toList = t.written.toList ++ '\t' :: (written (u :: ts)).toList := by
  rw [written, List.map_cons, List.map_cons, String.intercalate_cons_cons, ← List.map_cons]
  rw [String.toList_append, String.toList_append, List.append_assoc]
  rfl

/-! ## What may follow a token -/

/-- No token goes on with a tab, or with nothing. -/
theorem Token.endsBefore_tab (t : Token) {cs : List Char} (tab : ∀ c ∈ cs.head?, c = '\t') :
    t.EndsBefore cs := by
  have atEnd : atWordEnd cs = true := by
    cases cs with
    | nil => rfl
    | cons c cs =>
      rw [tab c rfl]
      rfl
  have word : ∀ w, WordEnds w cs := by
    refine fun w => ⟨atEnd, fun k hk _ pre => ?_⟩
    -- the next word of a phrase would stand behind a space
    obtain ⟨d, ds, further, -⟩ := Keyword.furtherWords_of_mem hk
    obtain ⟨more, rfl⟩ := pre
    rw [further] at tab
    exact absurd (tab ' ' rfl) (by decide)
  have sign : cs.head? ≠ some '=' := fun eq => absurd (tab '=' eq) (by decide)
  cases t with
  | ident name => exact word _
  | int n => exact atEnd
  | word k => exact word _
  | op o => cases o <;> first | exact sign | trivial
  | _ => trivial

/-! ## Reading them -/

/-- A blank may stand before any text. -/
theorem Reads.blank {m : Mark} {c : Char} {cs : List Char} {xs : List Lexeme}
    (h : Reads (m.next c) cs xs) (hc : isBlank c = true) : Reads m (c :: cs) xs := by
  cases h with
  | done all => exact .done (List.forall_mem_cons.2 ⟨hc, all⟩)
  | @token _ gap cs _ _ d _ _ all start found later =>
    have all' : ∀ e ∈ c :: gap, isBlank e = true := List.forall_mem_cons.2 ⟨hc, all⟩
    exact Reads.token all' start found later

/-- A token may stand before any text that does not go on with it. -/
theorem Reads.spelling {m : Mark} {t : Token} {cs : List Char} {xs : List Lexeme}
    (h : Reads (m.advance t.spelling) cs xs) (proper : t.Proper) (ne : t ≠ .eof)
    (ends : t.EndsBefore cs) :
    Reads m (t.spelling ++ cs)
      (⟨t, String.ofList t.spelling, .between m (m.advance t.spelling)⟩ :: xs) := by
  obtain ⟨c, ds, eq, start, found⟩ := scan_spelling proper ne ends
  rw [eq] at h ⊢
  have none : ∀ d ∈ [], isBlank d = true := List.forall_mem_nil _
  exact Reads.token none start found h

/-- From any mark on, the tokens that are written are read. -/
theorem reads_written (ts : List Token) (h : ∀ t ∈ ts, t.Proper ∧ t ≠ .eof) (m : Mark) :
    ∃ xs, Reads m (written ts).toList xs ∧ xs.map Lexeme.token = ts ++ [.eof] := by
  induction ts generalizing m with
  | nil => exact ⟨_, .done (List.forall_mem_nil _), rfl⟩
  | cons t ts ih =>
    obtain ⟨⟨proper, ne⟩, later⟩ := List.forall_mem_cons.1 h
    cases ts with
    | nil =>
      have last : Reads (m.advance t.spelling) [] _ := .done (List.forall_mem_nil _)
      have first := last.spelling proper ne (t.endsBefore_tab (by simp))
      rw [List.append_nil, ← Token.toList_written ne, ← toList_written_singleton] at first
      exact ⟨_, first, rfl⟩
    | cons u us =>
      obtain ⟨xs, rest, eq⟩ := ih later ((m.advance t.spelling).next '\t')
      have first := (rest.blank rfl).spelling proper ne (t.endsBefore_tab (by simp))
      rw [← Token.toList_written ne, ← toList_written_cons_cons] at first
      exact ⟨_, first, congrArg (t :: ·) eq⟩

/-- Names that are names, numbers without a sign, and any other tokens: written with tabs between
them, they are read as they are, and behind them the end mark. -/
theorem tokenize_written (ts : List Token) (h : ∀ t ∈ ts, t.Proper ∧ t ≠ .eof) :
    ∃ xs, tokenize (written ts) = .ok xs ∧ xs.map Lexeme.token = ts ++ [.eof] := by
  obtain ⟨xs, reads, eq⟩ := reads_written ts h .origin
  exact ⟨xs, tokenize_eq_ok_iff.2 reads, eq⟩

/-- A name and a phrase that begin with the same word, signs that would make another one, a string
with every escape, and a number with a name behind it. -/
theorem tokenize_written_neighbours :
    (∀ t ∈ [Token.ident "bhai", .word .bhaiBol, .op .less, .op .equal, .str "\"\n\t\\", .newline,
        .int 5, .ident "_x"], t.Proper ∧ t ≠ .eof) ∧
      ∃ xs, tokenize (written [.ident "bhai", .word .bhaiBol, .op .less, .op .equal,
          .str "\"\n\t\\", .newline, .int 5, .ident "_x"]) = .ok xs ∧
        xs.map Lexeme.token = [.ident "bhai", .word .bhaiBol, .op .less, .op .equal,
          .str "\"\n\t\\", .newline, .int 5, .ident "_x", .eof] := by
  have bhai : IsName "bhai" := ⟨⟨_, _, rfl, rfl⟩, List.all_eq_true.1 rfl, rfl⟩
  have under : IsName "_x" := ⟨⟨_, _, rfl, rfl⟩, List.all_eq_true.1 rfl, rfl⟩
  have all : ∀ t ∈ [Token.ident "bhai", .word .bhaiBol, .op .less, .op .equal, .str "\"\n\t\\",
      .newline, .int 5, .ident "_x"], t.Proper ∧ t ≠ .eof := by
    simp [Token.Proper, bhai, under]
  exact ⟨all, tokenize_written _ all⟩

end GujaratiScript
