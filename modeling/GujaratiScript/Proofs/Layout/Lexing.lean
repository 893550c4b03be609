import GujaratiScript.Proofs.Layout.Tokens
import GujaratiScript.Proofs.Spelling.Lexing

/-!
# The layout is read as its tokens

Wherever the layout puts a token, what follows does not go on with it: no operator, bracket or line
break is part of a word, and no two words of an expression stand next to each other.

* `Closes` : the texts before which every word ends;
* `Expr.lexes`, `Stmt.lexes`, `Program.lexes` : the tokens of a layout.
-/

namespace GujaratiScript

open Unicode

/-! ## Ends of words -/

/-- Every word ends before `cs`. -/
structure Closes (cs : List Char) : Prop where
  atEnd : atWordEnd cs = true
  alone : ∀ k ∈ Keyword.phrases, ¬ k.furtherWords <+: cs

namespace Closes

variable {cs : List Char}

theorem wordEnds (h : Closes cs) (w : List Char) : WordEnds w cs :=
  ⟨h.atEnd, fun k hk _ => h.alone k hk⟩

/-- No word goes on with what is neither a space nor part of a word. -/
theorem of_ne_space {c : Char} (word : isIdentContinue c = false) (space : c ≠ ' ') :
    Closes (c :: cs) := by
  refine ⟨by simp [atWordEnd, word], fun k hk pre => ?_⟩
  obtain ⟨d, ds, further, -⟩ := Keyword.furtherWords_of_mem hk
  rw [further, List.cons_prefix_cons] at pre
  exact space pre.1.symm

/-- A phrase goes on behind a space with part of a word only. -/
theorem of_space {c : Char} (word : isIdentContinue c = false) : Closes (' ' :: c :: cs) := by
  refine ⟨rfl, fun k hk pre => ?_⟩
  obtain ⟨d, ds, further, part⟩ := Keyword.furtherWords_of_mem hk
  rw [further, List.cons_prefix_cons, List.cons_prefix_cons] at pre
  rw [pre.2.1, word] at part
  cases part

theorem newline : Closes ('\n' :: cs) := of_ne_space rfl (by decide)

theorem rightParen : Closes (')' :: cs) := of_ne_space rfl (by decide)

theorem leftBrace : Closes (' ' :: '\x7b' :: cs) := of_space rfl

theorem operator (o : Operator) : Closes (' ' :: (o.spelling.toList ++ cs)) := by
  cases o <;> exact of_space rfl

/-- No phrase goes on with the word that stands between a name and its value. -/
theorem che : Closes (' ' :: (Keyword.che.spelling.toList ++ ' ' :: cs)) := by
  refine ⟨rfl, fun k hk pre => ?_⟩
  rw [← List.isPrefixOf_iff_prefix] at pre
  revert hk pre
  cases k <;> simp only [Keyword.phrases] <;> first
    | exact fun _ pre => Bool.false_ne_true pre
    | simp

end Closes

/-- No keyword of several words begins with a keyword of one word, except with that of `nahi`. -/
theorem Keyword.wordEnds {k : Keyword} (hk : k ≠ nahi) {cs : List Char} (h : atWordEnd cs = true) :
    WordEnds k.spelling.toList cs := by
  have alone : ∀ k, k ≠ nahi → ∀ k' ∈ phrases, k'.firstWord ≠ k.spelling.toList := by
    intro k
    cases k <;> decide
  exact ⟨h, fun k' hk' eq => absurd eq (alone k hk k' hk')⟩

/-! ## Expressions -/

/-- The layout of `e` is read as the tokens of `e` before any text that closes words. -/
def Expr.Lexed (e : Expr) : Prop :=
  ∀ (rest : List Char) (ts : List Token), Closes rest → Lexes rest ts →
    Lexes (e.layout.toList ++ rest) (e.tokens ++ ts)

namespace Expr

/-- A layout that is the spelling of one token. -/
theorem lexed_of_spelling {e : Expr} {t : Token} (spelled : e.layout.toList = t.spelling)
    (tokens : e.tokens = [t]) (proper : t.Proper)
    (end_ : ∀ rest, Closes rest → t.EndsBefore rest) (seen : t ≠ .newline ∧ t ≠ .eof) :
    e.Lexed := by
  intro rest ts close h
  rw [spelled, tokens]
  exact h.spelling proper (end_ rest close) seen

/-- What is read before any text that closes words may stand between parentheses. -/
theorem lexes_parens {cs rest : List Char} {ts us : List Token}
    (h : ∀ rest us, Closes rest → Lexes rest us → Lexes (cs ++ rest) (ts ++ us))
    (later : Lexes rest us) :
    Lexes ('(' :: (cs ++ ')' :: rest)) (.leftParen :: (ts ++ .rightParen :: us)) := by
  have last : Lexes (')' :: rest) (.rightParen :: us) :=
    later.spelling (t := .rightParen) trivial trivial (by simp)
  exact (h _ _ .rightParen last).spelling (t := .leftParen) trivial trivial (by simp)

theorem Lexed.wrapped {e : Expr} (h : e.Lexed) (wrap : Bool) {rest : List Char} {ts : List Token}
    (close : Closes rest) (later : Lexes rest ts) :
    Lexes ((wrapped wrap e.layout).toList ++ rest) (enclosed wrap e.tokens ++ ts) := by
  cases wrap with
  | false => exact h rest ts close later
  | true =>
    have whole := lexes_parens h later
    rw [wrapped_true, String.toList_append, String.toList_append]
    simpa [enclosed] using whole

theorem mem_enclosed {wrap : Bool} {ts : List Token} {t : Token} (h : t ∈ ts) :
    t ∈ enclosed wrap ts := by
  cases wrap with
  | false => exact h
  | true => exact List.mem_cons_of_mem _ (List.mem_append_left _ h)

/-- An operator is followed by a space, and no operator goes on with that. -/
theorem endsBefore_operator (o : Operator) (cs : List Char) :
    (Token.op o).EndsBefore (' ' :: cs) := by
  have ne : (' ' :: cs).head? ≠ some '=' := by
    intro h
    cases h
  cases o <;> first
    | exact ne
    | trivial

theorem lexed (e : Expr) (proper : ∀ t ∈ e.tokens, t.Proper) : e.Lexed := by
  induction e with
  | int n _ =>
    exact lexed_of_spelling (t := .int n) (by rw [layout, Token.spelling]) rfl
      (proper (.int n) List.mem_cons_self) (fun rest close => close.atEnd) (by simp)
  | str s _ =>
    exact lexed_of_spelling (t := .str s) (by rw [layout, Token.spelling]) rfl trivial
      (fun rest _ => trivial) (by simp)
  | bool b _ =>
    refine lexed_of_spelling (t := .word (if b then .bhaiChhe else .bhaiNathi)) rfl rfl trivial
      (fun rest close => close.wordEnds _) (by simp)
  | var ident =>
    exact lexed_of_spelling (t := .ident ident.name) rfl rfl
      (proper (.ident ident.name) List.mem_cons_self) (fun rest close => close.wordEnds _) (by simp)
  | input _ =>
    exact lexed_of_spelling (t := .word .bapuTameBolo) rfl rfl trivial
      (fun rest close => close.wordEnds _) (by simp)
  | negate e _ ih =>
    rw [tokens, List.forall_mem_cons] at proper
    have inner := ih fun t mem => proper.2 t (mem_enclosed mem)
    intro rest ts close h
    have operand := inner.wrapped e.tier?.isSome close h
    have whole := operand.spelling (t := .op .subtract) trivial trivial (by simp)
    rw [layout, tokens, String.toList_append, List.append_assoc]
    exact whole
  | binary o l r _ _ ihl ihr =>
    rw [tokens, List.forall_mem_append, List.forall_mem_cons] at proper
    have left := ihl fun t mem => proper.1 t (mem_enclosed mem)
    have right := ihr fun t mem => proper.2.2 t (mem_enclosed mem)
    intro rest ts close h
    -- from the end of the text to its beginning
    have second := (right.wrapped (wrapsRight o r) close h).blank
    have sign := (second.spelling (t := .op o) trivial (endsBefore_operator o _) (by simp)).blank
    have whole := left.wrapped (wrapsLeft o l) (Closes.operator o) sign
    simp only [layout, tokens, String.toList_append, List.append_assoc, List.cons_append]
    exact whole

end Expr

/-! ## Lines -/

theorem toList_pushn (s : String) (c : Char) (n : Nat) :
    (s.pushn c n).toList = s.toList ++ List.replicate n c := by
  rw [String.pushn_eq_repeat_push]
  induction n with
  | zero => simp [Nat.repeat]
  | succ n ih =>
    rw [Nat.repeat, String.toList_push, ih, List.append_assoc, ← List.replicate_succ']

/-- A line is read as what stands on it. -/
theorem Lexes.indented {s : String} {rest : List Char} {ts : List Token} (depth : Nat)
    (h : Lexes (s.toList ++ '\n' :: rest) ts) :
    Lexes ((indented depth s).toList ++ rest) ts := by
  have gap : ∀ c ∈ List.replicate (2 * depth) ' ', IsGap c := by
    intro c mem
    rw [List.eq_of_mem_replicate mem]
    exact .inl rfl
  have line := h.gaps gap
  unfold GujaratiScript.indented
  rw [String.toList_append, String.toList_append, toList_pushn, List.append_assoc,
    List.append_assoc, List.append_assoc]
  exact line

/-! ## Statements -/

theorem Lexes.keyword {k : Keyword} {cs : List Char} {ts : List Token} (h : Lexes cs ts)
    (hk : k ≠ .nahi) (atEnd : atWordEnd cs = true) :
    Lexes (k.spelling.toList ++ cs) (.word k :: ts) :=
  h.spelling (t := .word k) trivial (Keyword.wordEnds hk atEnd) (by simp)

theorem Lexes.leftBrace {cs : List Char} {ts : List Token} (h : Lexes cs ts) :
    Lexes ('\x7b' :: cs) (.leftBrace :: ts) :=
  h.spelling (t := .leftBrace) trivial trivial (by simp)

theorem Lexes.rightBrace {cs : List Char} {ts : List Token} (h : Lexes cs ts) :
    Lexes ('\x7d' :: cs) (.rightBrace :: ts) :=
  h.spelling (t := .rightBrace) trivial trivial (by simp)

/-- A name, the word `che` and a value. -/
theorem Lexes.binding {name : String} (hn : IsName name) {cs : List Char} {ts : List Token}
    (h : Lexes cs ts) :
    Lexes (name.toList ++ ' ' :: (Keyword.che.spelling.toList ++ ' ' :: cs))
      (.ident name :: .word .che :: ts) := by
  have che := h.blank.keyword (k := .che) (by decide) rfl
  exact che.blank.spelling (t := .ident name) hn (Closes.che.wordEnds _) (by simp)

mutual

/-- The layout of a statement is read as its tokens. -/
theorem Stmt.lexes (s : Stmt) (depth : Nat) (proper : ∀ t ∈ s.tokens, t.Proper) {rest : List Char}
    {ts : List Token} (h : Lexes rest ts) :
    Lexes ((s.layout depth).toList ++ rest) (s.tokens ++ ts) := by
  match s with
  | .print e _ =>
    rw [Stmt.tokens, List.forall_mem_cons] at proper
    have value := e.lexed proper.2 _ _ .newline h.line
    have line := value.blank.keyword (k := .bhaiBol) (by decide) rfl
    refine Lexes.indented depth ?_
    rw [String.toList_append, List.append_assoc]
    exact line
  | .declare ident e _ =>
    rw [Stmt.tokens, List.forall_mem_cons, List.forall_mem_cons, List.forall_mem_cons] at proper
    have value := e.lexed proper.2.2.2 _ _ .newline h.line
    have line := (value.binding proper.2.1).blank.keyword (k := .aa) (by decide) rfl
    refine Lexes.indented depth ?_
    simp only [String.toList_append, List.append_assoc]
    exact line
  | .assign ident e _ =>
    rw [Stmt.tokens, List.forall_mem_cons, List.forall_mem_cons] at proper
    have value := e.lexed proper.2.2 _ _ .newline h.line
    have line := value.binding proper.1
    refine Lexes.indented depth ?_
    simp only [String.toList_append, List.append_assoc]
    exact line
  | .branch c yes none _ =>
    rw [Stmt.tokens, List.forall_mem_cons, List.forall_mem_append] at proper
    have body := yes.lexes depth "" proper.2.2 h.line
    have condition := c.lexed proper.2.1 _ _ .leftBrace body.blank
    have line := condition.blank.keyword (k := .jo) (by decide) rfl
    simp only [Stmt.layout, Stmt.tokens, String.toList_append, List.append_assoc]
    refine Lexes.indented depth ?_
    simp only [String.toList_append, List.append_assoc, List.cons_append]
    exact line
  | .branch c yes (some no) _ =>
    rw [Stmt.tokens, List.forall_mem_cons, List.forall_mem_append, List.forall_mem_append,
      List.forall_mem_cons] at proper
    have last := no.lexes depth "" proper.2.2.2.2 h.line
    have other := last.blank.keyword (k := .nahiTo) (by decide) rfl
    have body := yes.lexes depth " nahi to \x7b" proper.2.2.1 other.blank
    have condition := c.lexed proper.2.1 _ _ .leftBrace body.blank
    have line := condition.blank.keyword (k := .jo) (by decide) rfl
    simp only [Stmt.layout, Stmt.tokens, String.toList_append, List.append_assoc]
    refine Lexes.indented depth ?_
    simp only [String.toList_append, List.append_assoc, List.cons_append]
    exact line
  | .loop body c _ =>
    rw [Stmt.tokens, List.forall_mem_cons, List.forall_mem_append, List.forall_mem_cons] at proper
    have condition := c.lexed proper.2.2.2 _ _ .newline h.line
    -- the condition stands on the line that the block ends on
    have tail := (condition.blank.keyword (k := .jyaSudhi) (by decide) rfl).blank
    have parts : "\x7d jya sudhi " ++ c.layout = "\x7d" ++ (" jya sudhi " ++ c.layout) := by
      rw [← String.append_assoc]
      rfl
    have last : Lexes ((" jya sudhi " ++ c.layout).toList ++ '\n' :: rest)
        (.word .jyaSudhi :: (c.tokens ++ ts)) := by
      rw [String.toList_append, List.append_assoc]
      exact tail
    have block := body.lexes depth (" jya sudhi " ++ c.layout) proper.2.1 last
    have line := block.blank.keyword (k := .farvu) (by decide) rfl
    rw [Stmt.layout, Stmt.tokens, parts, String.toList_append, String.toList_append]
    simp only [List.append_assoc, List.cons_append]
    refine Lexes.indented depth ?_
    exact line
  | .leave _ =>
    exact Lexes.indented depth (h.line.keyword (k := .tameJao) (by decide) rfl)
  | .again _ =>
    exact Lexes.indented depth (h.line.keyword (k := .aagalVado) (by decide) rfl)
  | .block b =>
    rw [Stmt.tokens] at proper
    have body := b.lexes depth "" proper h.line
    simp only [Stmt.layout, Stmt.tokens, String.toList_append, List.append_assoc]
    refine Lexes.indented depth ?_
    exact body

/-- A block is read as its tokens, from the end of the line that it begins on to the middle of the
line that it ends on. -/
theorem Block.lexes (b : Block) (depth : Nat) (s : String) (proper : ∀ t ∈ b.tokens, t.Proper)
    {rest : List Char} {ts : List Token} (h : Lexes (s.toList ++ '\n' :: rest) ts) :
    Lexes ('\x7b' :: '\n' :: ((b.layout (depth + 1)).toList ++
      ((GujaratiScript.indented depth ("\x7d" ++ s)).toList ++ rest))) (b.tokens ++ ts) := by
  match b with
  | ⟨body, _⟩ =>
    rw [Block.tokens, List.forall_mem_cons, List.forall_mem_append] at proper
    have close : Lexes ((GujaratiScript.indented depth ("\x7d" ++ s)).toList ++ rest)
        (.rightBrace :: ts) := by
      refine Lexes.indented depth ?_
      rw [String.toList_append]
      exact h.rightBrace
    have inner := lexes_all body (depth + 1) proper.2.1 close
    have whole := inner.line.leftBrace
    rw [Block.tokens, List.cons_append, List.append_assoc]
    exact whole

/-- The layout of statements in sequence is read as their tokens. -/
theorem lexes_all (body : List Stmt) (depth : Nat) (proper : ∀ t ∈ allTokens body, t.Proper)
    {rest : List Char} {ts : List Token} (h : Lexes rest ts) :
    Lexes ((layoutAll depth body).toList ++ rest) (allTokens body ++ ts) := by
  match body with
  | [] => exact h
  | s :: others =>
    rw [allTokens, List.forall_mem_append] at proper
    have later := lexes_all others depth proper.2 h
    rw [layoutAll, allTokens, String.toList_append, List.append_assoc, List.append_assoc]
    exact s.lexes depth proper.1 later

end

/-- The layout of a program is read as its tokens. -/
theorem Program.lexes (p : Program) (proper : ∀ t ∈ p.tokens, t.Proper) :
    Lexes p.layout.toList p.tokens := by
  rw [tokens, List.forall_mem_cons, List.forall_mem_append] at proper
  have last : Lexes ((indented 0 "aavjo bhai").toList ++ []) [.word .aavjoBhai] :=
    Lexes.indented 0 (Lexes.nil.line.keyword (k := .aavjoBhai) (by decide) rfl)
  have body := lexes_all p.body 0 proper.2.1 last
  have whole : Lexes ((indented 0 "kem bhai").toList ++ _) p.tokens :=
    Lexes.indented 0 (body.line.keyword (k := .kemBhai) (by decide) rfl)
  rw [List.append_nil] at whole
  rw [layout, String.toList_append, String.toList_append, List.append_assoc]
  exact whole

end GujaratiScript
