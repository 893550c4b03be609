import Mathlib.Data.List.ReduceOption
import GujaratiScript.Proofs.Layout.Lexing
import GujaratiScript.Proofs.Spelling.Places
import GujaratiScript.Proofs.Spelling.Writing

/-!
# The layout of an expression in pieces

The layout of an expression is made of tokens and of the blanks around its binary operators. No two
pieces grow together if a parenthesis between them is taken away.

* `LinePiece`, `line`, `lexemesAt` : tokens and blanks, their text and their lexemes;
* `Spaced` : pieces that are read as their tokens, also without some of their parentheses;
* `Expr.pieces`, `Expr.spaced`, `Expr.tokenize_layout` : the pieces of an expression;
* `Spaced.without` : a text in pieces without two of its parentheses.
-/

namespace GujaratiScript

/-! ## Pieces -/

/-- A token, or a blank between two tokens (`none`). -/
abbrev LinePiece := Option Token

/-- How a piece is written. -/
def LinePiece.chars : LinePiece → List Char
  | some t => t.spelling
  | none => [' ']

/-- The text of pieces. -/
def line (ps : List LinePiece) : List Char := ps.flatMap LinePiece.chars

/-- No pieces are no text. -/
@[simp] theorem line_nil : line [] = [] := rfl

/-- A blank in front. -/
@[simp] theorem line_none (ps : List LinePiece) : line (none :: ps) = ' ' :: line ps := rfl

/-- A token in front. -/
@[simp] theorem line_some (t : Token) (ps : List LinePiece) :
    line (some t :: ps) = t.spelling ++ line ps := rfl

/-- The text of pieces one behind the other. -/
@[simp] theorem line_append (ps qs : List LinePiece) : line (ps ++ qs) = line ps ++ line qs :=
  List.flatMap_append

/-- The lexemes of pieces that are written from the mark on, and the end mark behind them. -/
def lexemesAt : Mark → List LinePiece → List Lexeme
  | m, [] => [⟨.eof, "", .between m m⟩]
  | m, none :: ps => lexemesAt (m.next ' ') ps
  | m, some t :: ps =>
    ⟨t, String.ofList t.spelling, .between m (m.advance t.spelling)⟩ ::
      lexemesAt (m.advance t.spelling) ps

/-- The lexemes of pieces are their tokens, and the end. -/
theorem map_token_lexemesAt (m : Mark) (ps : List LinePiece) :
    (lexemesAt m ps).map Lexeme.token = ps.reduceOption ++ [.eof] := by
  induction ps generalizing m with
  | nil => rfl
  | cons p ps ih =>
    cases p with
    | none =>
      rw [lexemesAt, List.reduceOption_cons_of_none]
      exact ih _
    | some t =>
      rw [lexemesAt, List.reduceOption_cons_of_some, List.map_cons, ih]
      rfl

/-- One of the lexemes is that of a token, which stands behind the pieces before it. -/
theorem exists_of_lexemesAt {m : Mark} {ps : List LinePiece} {u rest : List Lexeme} {x : Lexeme}
    (h : lexemesAt m ps = u ++ x :: rest) (ne : x.token ≠ .eof) :
    ∃ p q, ps = p ++ some x.token :: q ∧ u.map Lexeme.token = p.reduceOption ∧
      rest = lexemesAt (m.advance (line p ++ x.token.spelling)) q := by
  induction ps generalizing m u with
  | nil =>
    rcases u with _ | ⟨y, u⟩
    · cases h
      exact absurd rfl ne
    · simp [lexemesAt] at h
  | cons piece ps ih =>
    cases piece with
    | none =>
      obtain ⟨p, q, rfl, tokens, later⟩ := ih h
      exact ⟨none :: p, q, rfl, tokens, later⟩
    | some t =>
      rcases u with _ | ⟨y, u⟩
      · cases h
        exact ⟨[], ps, rfl, rfl, rfl⟩
      · obtain ⟨rfl, tail⟩ := List.cons.inj h
        obtain ⟨p, q, rfl, tokens, later⟩ := ih tail
        refine ⟨some t :: p, q, rfl, ?_, ?_⟩
        · rw [List.map_cons, tokens, List.reduceOption_cons_of_some]
        · simp only [later, line_some, Mark.advance_append]

/-! ## Pieces that do not grow together -/

/-- What may follow an operand: right parentheses, and then the end or a blank and an operator. -/
def Closing : List LinePiece → Prop
  | [] => True
  | some .rightParen :: ps => Closing ps
  | none :: some (.op _) :: _ => True
  | _ => False

/-- `Leads t ps` : the token `t` may stand before `ps`, whatever parentheses are taken away. -/
inductive Leads : Token → List LinePiece → Prop
  | leftParen {ps : List LinePiece} : Leads .leftParen ps
  | rightParen {ps : List LinePiece} : Leads .rightParen ps
  | minus {ps : List LinePiece} : Leads (.op .subtract) ps
  | operator {o : Operator} {ps : List LinePiece} : Leads (.op o) (none :: ps)
  | operand {t : Token} {ps : List LinePiece} :
      t.Proper → t ≠ .newline ∧ t ≠ .eof → (∀ o, t ≠ .op o) → Closing ps → Leads t ps

/-- Every token among the pieces may stand before those behind it. -/
inductive Spaced : List LinePiece → Prop
  | nil : Spaced []
  | blank {ps : List LinePiece} : Spaced ps → Spaced (none :: ps)
  | token {t : Token} {ps : List LinePiece} : Leads t ps → Spaced ps → Spaced (some t :: ps)

/-- The end of the text may follow anything. -/
theorem Closes.nil : Closes [] := by
  refine ⟨rfl, fun k hk pre => ?_⟩
  obtain ⟨d, ds, further, -⟩ := Keyword.furtherWords_of_mem hk
  rw [further] at pre
  cases List.prefix_nil.1 pre

/-- Words end before what may follow an operand. -/
theorem Closing.closes {ps : List LinePiece} (h : Closing ps) {rest : List Char}
    (close : Closes rest) : Closes (line ps ++ rest) := by
  match ps, h with
  | [], _ => exact close
  | some .rightParen :: _, _ => exact .rightParen
  | none :: some (.op o) :: _, _ =>
    rw [line_none, line_some, List.cons_append, List.append_assoc]
    exact .operator o

namespace Leads

variable {t : Token} {ps : List LinePiece}

/-- A token among the pieces can be written. -/
theorem proper (h : Leads t ps) : t.Proper := by
  cases h with
  | operand proper _ _ _ => exact proper
  | _ => trivial

/-- A token among the pieces is not passed over. -/
theorem seen (h : Leads t ps) : t ≠ .newline ∧ t ≠ .eof := by
  cases h with
  | operand _ seen _ _ => exact seen
  | _ => exact ⟨nofun, nofun⟩

/-- A token that may stand before some pieces is not lengthened by their text. -/
theorem endsBefore (h : Leads t ps) {rest : List Char} (close : Closes rest) :
    t.EndsBefore (line ps ++ rest) := by
  cases h with
  | leftParen | rightParen | minus => trivial
  | operator => exact Expr.endsBefore_operator _ _
  | operand _ _ noOp closing =>
    have close := closing.closes close
    cases t with
    | ident name => exact close.wordEnds _
    | int n => exact close.atEnd
    | word k => exact close.wordEnds _
    | op o => exact absurd rfl (noOp o)
    | _ => trivial

end Leads

namespace Spaced

variable {ps : List LinePiece}

/-- Such pieces are read as their lexemes, from any mark on. -/
theorem reads (h : Spaced ps) (m : Mark) : Reads m (line ps) (lexemesAt m ps) := by
  induction h generalizing m with
  | nil => exact .done (List.forall_mem_nil _)
  | blank _ ih => exact (ih _).blank rfl
  | token leads _ ih =>
    have ends := leads.endsBefore .nil
    rw [List.append_nil] at ends
    exact (ih _).spelling leads.proper leads.seen.2 ends

/-- They are read as their tokens before any text that closes words. -/
theorem lexes (h : Spaced ps) {rest : List Char} {ts : List Token} (close : Closes rest)
    (later : Lexes rest ts) : Lexes (line ps ++ rest) (ps.reduceOption ++ ts) := by
  induction h with
  | nil => exact later
  | blank _ ih =>
    rw [List.reduceOption_cons_of_none]
    exact ih.blank
  | @token t ps leads _ ih =>
    rw [List.reduceOption_cons_of_some, line_some, List.append_assoc]
    exact ih.spelling leads.proper (leads.endsBefore close) leads.seen

end Spaced

/-! ## Taking parentheses away -/

/-- The tokens `(` and `)`. -/
def Token.IsParen (t : Token) : Prop := t = .leftParen ∨ t = .rightParen

section Erase

variable {t : Token} {ps qs : List LinePiece}

/-- Without one parenthesis, what follows an operand still may. -/
theorem Closing.erase (ht : t.IsParen) (h : Closing (ps ++ some t :: qs)) : Closing (ps ++ qs) := by
  induction ps with
  | nil =>
    rcases ht with rfl | rfl
    · cases h
    · exact h
  | cons p ps ih =>
    cases p with
    | none =>
      -- the operator behind the blank is no parenthesis
      rcases ps with _ | ⟨_ | s, ps⟩
      · rcases ht with rfl | rfl <;> cases h
      · cases h
      · cases s with
        | op o => trivial
        | _ => cases h
    | some s =>
      cases s with
      | rightParen => exact ih h
      | _ => cases h

/-- Without one parenthesis behind it, a token still may stand there. -/
theorem Leads.erase {s : Token} (ht : t.IsParen) (h : Leads s (ps ++ some t :: qs)) :
    Leads s (ps ++ qs) := by
  generalize eq : ps ++ some t :: qs = rs at h
  cases h with
  | leftParen => exact .leftParen
  | rightParen => exact .rightParen
  | minus => exact .minus
  | operator =>
    rcases ps with _ | ⟨p, ps⟩
    · cases eq
    · cases eq
      exact .operator
  | operand proper ne noOp closing =>
    subst eq
    exact .operand proper ne noOp (closing.erase ht)

/-- Without one parenthesis, the tokens still are kept apart. -/
theorem Spaced.erase (ht : t.IsParen) (h : Spaced (ps ++ some t :: qs)) : Spaced (ps ++ qs) := by
  induction ps with
  | nil =>
    cases h with
    | token _ later => exact later
  | cons p ps ih =>
    cases h with
    | blank later => exact .blank (ih later)
    | token leads later => exact .token (leads.erase ht) (ih later)

end Erase

/-! ## Expressions -/

/-- Pieces between parentheses if `wrap` holds. -/
def bracketed (wrap : Bool) (ps : List LinePiece) : List LinePiece :=
  if wrap then some .leftParen :: (ps ++ [some .rightParen]) else ps

/-- The text of pieces between parentheses. -/
theorem line_bracketed {wrap : Bool} {s : String} {ps : List LinePiece} (h : s.toList = line ps) :
    (wrapped wrap s).toList = line (bracketed wrap ps) := by
  cases wrap with
  | false => exact h
  | true => simp [bracketed, h, Token.spelling]

/-- The tokens of pieces between parentheses. -/
theorem reduceOption_bracketed {wrap : Bool} {ps : List LinePiece} {ts : List Token}
    (h : ps.reduceOption = ts) : (bracketed wrap ps).reduceOption = enclosed wrap ts := by
  cases wrap with
  | false => exact h
  | true => simp [bracketed, enclosed, List.reduceOption_append, h]

namespace Expr

/-- The pieces of the layout of an expression. -/
def pieces : Expr → List LinePiece
  | negate e _ => some (.op .subtract) :: bracketed e.tier?.isSome e.pieces
  | binary o l r _ _ =>
    bracketed (wrapsLeft o l) l.pieces ++
      none :: some (.op o) :: none :: bracketed (wrapsRight o r) r.pieces
  | e => e.tokens.map some

/-- The layout of an expression is the text of its pieces. -/
theorem toList_layout (e : Expr) : e.layout.toList = line e.pieces := by
  induction e with
  | int | str | bool | var | input =>
    simp [layout, pieces, tokens, Token.spelling]
  | negate e _ ih =>
    rw [layout, pieces, String.toList_append, line_bracketed ih, line_some]
    rfl
  | binary o l r _ _ ihl ihr =>
    simp only [layout, pieces, String.toList_append, line_bracketed ihl, line_bracketed ihr,
      line_append, line_none, line_some, List.append_assoc]
    rfl

/-- The tokens of an expression are those of its pieces. -/
theorem reduceOption_pieces (e : Expr) : e.pieces.reduceOption = e.tokens := by
  induction e with
  | int | str | bool | var | input => rfl
  | negate e _ ih =>
    rw [pieces, tokens, List.reduceOption_cons_of_some, reduceOption_bracketed ih]
  | binary o l r _ _ ihl ihr =>
    rw [pieces, tokens, List.reduceOption_append, List.reduceOption_cons_of_none,
      List.reduceOption_cons_of_some, List.reduceOption_cons_of_none, reduceOption_bracketed ihl,
      reduceOption_bracketed ihr]

/-- Parentheses around pieces that stand before anything that may follow an operand. -/
theorem spaced_bracketed {ps rest : List LinePiece} {wrap : Bool}
    (h : ∀ rest, Closing rest → Spaced rest → Spaced (ps ++ rest)) (closing : Closing rest)
    (later : Spaced rest) : Spaced (bracketed wrap ps ++ rest) := by
  cases wrap with
  | false => exact h rest closing later
  | true =>
    have inner := h (some .rightParen :: rest) closing (.token .rightParen later)
    have whole : bracketed true ps ++ rest =
        some .leftParen :: (ps ++ some .rightParen :: rest) := by simp [bracketed]
    rw [whole]
    exact .token .leftParen inner

/-- The tokens of an operand are kept apart from each other and from what follows it. -/
theorem spaced (e : Expr) (proper : ∀ t ∈ e.tokens, t.Proper) (rest : List LinePiece)
    (closing : Closing rest) (later : Spaced rest) : Spaced (e.pieces ++ rest) := by
  induction e generalizing rest with
  | int | str | bool | var | input =>
    exact .token (.operand (proper _ List.mem_cons_self) ⟨nofun, nofun⟩ nofun closing) later
  | negate e _ ih =>
    rw [tokens, List.forall_mem_cons] at proper
    have inner := ih fun t mem => proper.2 t (mem_enclosed mem)
    exact .token .minus (spaced_bracketed inner closing later)
  | binary o l r _ _ ihl ihr =>
    rw [tokens, List.forall_mem_append, List.forall_mem_cons] at proper
    have left := ihl fun t mem => proper.1 t (mem_enclosed mem)
    have right := ihr fun t mem => proper.2.2 t (mem_enclosed mem)
    have second : Spaced (none :: (bracketed (wrapsRight o r) r.pieces ++ rest)) :=
      .blank (spaced_bracketed right closing later)
    rw [pieces, List.append_assoc]
    exact spaced_bracketed left trivial (.blank (.token .operator second))

/-- The tokens of an expression are kept apart. -/
theorem spaced_pieces (e : Expr) (proper : ∀ t ∈ e.tokens, t.Proper) : Spaced e.pieces := by
  have whole := e.spaced proper [] trivial .nil
  rwa [List.append_nil] at whole

/-- The lexemes of a layout, with their places. -/
theorem tokenize_layout (e : Expr) (proper : ∀ t ∈ e.tokens, t.Proper) :
    tokenize e.layout = .ok (lexemesAt .origin e.pieces) := by
  rw [tokenize_eq_ok_iff, e.toList_layout]
  exact (e.spaced_pieces proper).reads .origin

end Expr

/-! ## Texts without two parentheses -/

/-- The bytes between which a text has its lexeme number `n`, counted from zero: the lexeme begins
behind the blanks that are passed first. -/
def lexemeRange (text : String) (n : Nat) : Nat × Nat :=
  let l := Lexer.afterAttempts text n
  ((l.mark.advance (l.rest.takeWhile isBlank)).offset, l.nextLexeme.2.mark.offset)

/-- A text without its lexemes number `i` and `j`, the first of which ends before the second
begins. -/
def without (text : String) (i j : Nat) : String :=
  slice text 0 (lexemeRange text i).1 ++
    (slice text (lexemeRange text i).2 (lexemeRange text j).1 ++
      slice text (lexemeRange text j).2 text.utf8ByteSize)

/-- What is left of a text without two of its pieces. -/
theorem toList_without {text : String} {i j : Nat} {a b c d e : List Char}
    (cut : text.toList = a ++ b ++ c ++ d ++ e)
    (hi : lexemeRange text i = (byteLength a, byteLength (a ++ b)))
    (hj : lexemeRange text j = (byteLength (a ++ b ++ c), byteLength (a ++ b ++ c ++ d))) :
    (without text i j).toList = a ++ (c ++ e) := by
  have first : slice text 0 (byteLength a) = .ofList a := by
    have cut' : text.toList = [] ++ a ++ (b ++ c ++ d ++ e) := by simpa using cut
    exact slice_of_append cut'
  have second : slice text (byteLength (a ++ b)) (byteLength (a ++ b ++ c)) = .ofList c := by
    have cut' : text.toList = a ++ b ++ c ++ (d ++ e) := by simpa using cut
    exact slice_of_append cut'
  have third : slice text (byteLength (a ++ b ++ c ++ d)) text.utf8ByteSize = .ofList e := by
    have cut' : text.toList = a ++ b ++ c ++ d ++ e ++ [] := by simpa using cut
    rw [← byteLength_toList, cut]
    exact slice_of_append cut'
  rw [without, hi, hj, first, second, third]
  simp

section Ranges

variable {p q : List LinePiece} {t : Token}

/-- Such a token is what a scan of its spelling finds. -/
theorem Leads.scan (h : Leads t q) : ∃ c cs, t.spelling = c :: cs ∧ isBlank c = false ∧
    GujaratiScript.scan c (cs ++ line q) = .token t (c :: cs) (line q) := by
  have ends := h.endsBefore .nil
  rw [List.append_nil] at ends
  exact scan_spelling h.proper h.seen.2 ends

/-- A token among pieces may stand before those behind it. -/
theorem Spaced.leads (h : Spaced (p ++ some t :: q)) : Leads t q := by
  induction p with
  | nil =>
    cases h with
    | token leads _ => exact leads
  | cons piece p ih =>
    cases h with
    | blank later => exact ih later
    | token _ later => exact ih later

/-- When the tokens before one of them are read, the cursor stands at the blanks before it. -/
theorem Spaced.passed (h : Spaced (p ++ some t :: q)) (m : Mark) :
    ∃ gap m', (∀ d ∈ gap, isBlank d = true) ∧ m'.advance gap = m.advance (line p) ∧
      (fun l : Lexer => l.nextLexeme.2)^[p.reduceOption.length] ⟨line (p ++ some t :: q), m, false⟩ =
        ⟨gap ++ (t.spelling ++ line q), m', false⟩ := by
  -- blanks are passed together with the token behind them, so they are kept until there is one
  induction p generalizing m with
  | nil => exact ⟨[], m, List.forall_mem_nil _, rfl, rfl⟩
  | cons piece p ih =>
    cases h with
    | blank later =>
      obtain ⟨gap, m', blank, mark, eq⟩ := ih later (m.next ' ')
      rw [List.reduceOption_cons_of_none]
      generalize p.reduceOption.length = n at eq ⊢
      rcases n with _ | n
      · -- no token is read, so this blank is one of those before the token
        obtain ⟨rest, rfl, -⟩ := Lexer.mk.inj eq
        refine ⟨' ' :: gap, m, List.forall_mem_cons.2 ⟨rfl, blank⟩, mark, ?_⟩
        exact congrArg (Lexer.mk · m false) (congrArg (' ' :: ·) rest)
      · refine ⟨gap, m', blank, mark, ?_⟩
        rw [Function.iterate_succ_apply] at eq ⊢
        exact (congrArg _ (congrArg Prod.snd (Lexer.nextLexeme_blank rfl _ m false))).trans eq
    | @token s _ leads later =>
      obtain ⟨gap, m', blank, mark, eq⟩ := ih later (m.advance s.spelling)
      obtain ⟨c, cs, spelling, start, found⟩ := leads.scan
      refine ⟨gap, m', blank, ?_, ?_⟩
      · rw [mark, line_some, Mark.advance_append]
      · have next := congrArg Prod.snd (Lexer.nextLexeme_token start found m false)
        rw [List.reduceOption_cons_of_some, List.length_cons, Function.iterate_succ_apply,
          List.cons_append, line_some, spelling, List.cons_append]
        rw [spelling] at eq
        exact (congrArg _ next).trans eq

/-- The range of a token among pieces is where it is written. -/
theorem Spaced.lexemeRange_eq (h : Spaced (p ++ some t :: q)) {text : String}
    (written : text.toList = line (p ++ some t :: q)) :
    lexemeRange text p.reduceOption.length =
      (byteLength (line p), byteLength (line p ++ t.spelling)) := by
  obtain ⟨gap, m', blank, mark, eq⟩ := h.passed .origin
  obtain ⟨c, cs, spelling, start, found⟩ := h.leads.scan
  have cursor : Lexer.afterAttempts text p.reduceOption.length =
      ⟨gap ++ (t.spelling ++ line q), m', false⟩ := by
    rw [Lexer.afterAttempts, Lexer.ofText, written]
    exact eq
  have blanks : (gap ++ (c :: cs ++ line q)).takeWhile isBlank = gap := by
    rw [List.takeWhile_append_of_pos blank, List.cons_append,
      List.takeWhile_cons_of_neg (by simp [start]), List.append_nil]
  have next := (Lexer.nextLexeme_gap blank (c :: cs ++ line q) m' false).trans
    (Lexer.nextLexeme_token start found _ false)
  have origin : ∀ cs, (Mark.origin.advance cs).offset = byteLength cs := fun cs =>
    (Mark.offset_advance _ _).trans (Nat.zero_add _)
  unfold lexemeRange
  rw [cursor, spelling]
  dsimp only
  rw [blanks, next, mark, ← Mark.advance_append, origin, origin]

end Ranges

/-- A text in pieces is, without two of its parentheses, pieces with all tokens but these. -/
theorem Spaced.without {text : String} {ps : List LinePiece} (h : Spaced ps)
    (written : text.toList = line ps) {u v w : List Lexeme} {x y : Lexeme}
    (read : tokenize text = .ok (u ++ x :: (v ++ y :: w))) (hx : x.token.IsParen)
    (hy : y.token.IsParen) :
    ∃ qs, Spaced qs ∧
      (without text u.length (u.length + 1 + v.length)).toList = line qs ∧
      qs.reduceOption ++ [.eof] = (u ++ (v ++ w)).map Lexeme.token := by
  have ne : ∀ t : Token, t.IsParen → t ≠ .eof := by
    rintro t (rfl | rfl) <;> exact nofun
  -- the lexemes are those of the pieces, so both parentheses are among the pieces
  have lexemes : u ++ x :: (v ++ y :: w) = lexemesAt .origin ps := by
    have reads := h.reads .origin
    rw [← written] at reads
    exact Except.ok.inj (read.symm.trans (tokenize_eq_ok_iff.2 reads))
  obtain ⟨p, q', rfl, first, rest⟩ := exists_of_lexemesAt lexemes.symm (ne _ hx)
  obtain ⟨q, r, rfl, second, rest'⟩ := exists_of_lexemesAt rest.symm (ne _ hy)
  have third : w.map Lexeme.token = r.reduceOption ++ [.eof] := by
    rw [rest']
    exact map_token_lexemesAt _ _
  have cut : text.toList =
      line p ++ x.token.spelling ++ line q ++ y.token.spelling ++ line r := by
    rw [written]
    simp
  have rangex := h.lexemeRange_eq written
  have numberx : u.length = p.reduceOption.length := by
    rw [← first, List.length_map]
  have regrouped : p ++ some x.token :: (q ++ some y.token :: r) =
      (p ++ some x.token :: q) ++ some y.token :: r := by
    rw [List.append_assoc, List.cons_append]
  have spaced : Spaced (p ++ (q ++ r)) := by
    have once := h.erase hx
    rw [← List.append_assoc] at once ⊢
    exact once.erase hy
  rw [regrouped] at h written
  have rangey := h.lexemeRange_eq written
  have numbery : u.length + 1 + v.length = (p ++ some x.token :: q).reduceOption.length := by
    rw [List.reduceOption_append, List.reduceOption_cons_of_some, ← first, ← second]
    simp
    omega
  rw [line_append, line_some, ← List.append_assoc] at rangey
  refine ⟨p ++ (q ++ r), spaced, ?_, ?_⟩
  · rw [numbery, numberx, toList_without cut rangex rangey, line_append, line_append]
  · simp [List.reduceOption_append, first, second, third]

end GujaratiScript
