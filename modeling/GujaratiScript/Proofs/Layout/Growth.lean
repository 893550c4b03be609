import GujaratiScript.Proofs.Layout.RoundTrip

/-!
# Texts that grow

Source texts put together from the texts of expressions, with what they are read as and the levels
that it takes.

* `ReadsAs` : a text is read as an expression, in front of any text that closes words;
* `ReadsAs.layout`, `ReadsAs.parens`, `ReadsAs.addOnes` : layouts, parentheses and long sums;
* `ReadsAs.ofSource_printing` : the program that prints the expression.
-/

namespace GujaratiScript

open Grammar

/-! ## Long sums -/

namespace Expr

/-- The number one. -/
def one : Expr := .int 1 .nowhere

/-- An expression to which one is added. -/
def addOne (e : Expr) : Expr := .binary .add e one .nowhere .nowhere

/-- An expression to which one is added `n` times. -/
def addOnes (e : Expr) : Nat → Expr
  | 0 => e
  | n + 1 => e.addOne.addOnes n

end Expr

/-- How that is written behind the expression. -/
def addedOnes (n : Nat) : String := String.join (List.replicate n " + 1")

/-- The tokens of that. -/
def addedTokens : Nat → List Token
  | 0 => []
  | n + 1 => .op .add :: .int 1 :: addedTokens n

theorem toList_addedOnes_succ (n : Nat) :
    (addedOnes (n + 1)).toList = ' ' :: '+' :: ' ' :: '1' :: (addedOnes n).toList := by
  unfold addedOnes
  rw [String.toList_join, String.toList_join, List.replicate_succ, List.flatMap_cons]
  rfl

theorem proper_one : (Token.int 1).Proper := by
  show 0 ≤ (1 : Int64).toInt
  decide

theorem Expr.proper_one : ∀ t ∈ one.tokens, t.Proper := by
  show ∀ t ∈ [Token.int 1], t.Proper
  rw [List.forall_mem_singleton]
  exact GujaratiScript.proper_one

/-- What is added closes the words before it, if what follows does. -/
theorem Closes.addedOnes {rest : List Char} (h : Closes rest) (n : Nat) :
    Closes ((addedOnes n).toList ++ rest) := by
  cases n with
  | zero => exact h
  | succ n =>
    rw [toList_addedOnes_succ]
    exact Closes.operator .add

theorem Lexes.addedOnes {rest : List Char} {ts : List Token} (close : Closes rest)
    (h : Lexes rest ts) (n : Nat) : Lexes ((addedOnes n).toList ++ rest) (addedTokens n ++ ts) := by
  induction n with
  | zero => exact h
  | succ n ih =>
    rw [toList_addedOnes_succ]
    have one : Lexes ('1' :: ((GujaratiScript.addedOnes n).toList ++ rest))
        (.int 1 :: (addedTokens n ++ ts)) :=
      ih.spelling (t := .int 1) proper_one (close.addedOnes n).atEnd (by simp)
    exact (one.blank.spelling (t := .op .add) trivial trivial (by simp)).blank

/-- Every one that is added is one more link of the chain. -/
theorem Grammar.Expression.addOnes {u w : List Lexeme} {e : Expr} {k l : Nat}
    (h : Expression .sum u e k l) (n : Nat) (hw : w.map Lexeme.token = addedTokens n) :
    ∃ e' l', Expression .sum (u ++ w) e' (k + n) l' ∧ l' ≤ max l (k + n + 2) ∧
      e'.bare = e.bare.addOnes n := by
  induction n generalizing u w e k l with
  | zero =>
    obtain rfl := List.map_eq_nil_iff.1 hw
    rw [List.append_nil]
    exact ⟨e, l, h, Nat.le_max_left _ _, rfl⟩
  | succ n ih =>
    obtain ⟨x, v, rfl, hx, hv⟩ := List.map_eq_cons_iff.1 hw
    obtain ⟨y, v, rfl, hy, hv⟩ := List.map_eq_cons_iff.1 hv
    have one : Expression Tier.sum.above [y] (.int 1 y.span) 0 1 :=
      (Expression.leaf (by simp only [Lexeme.leaf?, hy])).weaken (Tier.le_negation _)
    obtain ⟨e', l', derived, le, same⟩ := ih (.binary (o := .add) h hx one) hv
    refine ⟨e', l', ?_, by omega, same⟩
    rw [List.append_assoc, Nat.add_right_comm] at derived
    exact derived

/-! ## Texts and what they are read as -/

/-- What is read before any text that closes words may be printed. -/
theorem Lexes.printing {s : String} {ts : List Token}
    (h : ∀ rest us, Closes rest → Lexes rest us → Lexes (s.toList ++ rest) (ts ++ us)) :
    Lexes ("kem bhai\nbhai bol " ++ s ++ "\naavjo bhai\n").toList
      (.word .kemBhai :: .word .bhaiBol :: (ts ++ [.word .aavjoBhai])) := by
  have last : Lexes ('\n' :: (Keyword.aavjoBhai.spelling.toList ++ ['\n'])) [.word .aavjoBhai] :=
    (Lexes.nil.line.keyword (k := .aavjoBhai) (by decide) rfl).line
  have line := (h _ _ .newline last).blank.keyword (k := .bhaiBol) (by decide) rfl
  rw [String.toList_append, String.toList_append, List.append_assoc]
  exact line.line.keyword (k := .kemBhai) (by decide) rfl

/-- The text `s` is read as `e`, a sum with the given links, and takes no more than the given
levels. -/
def ReadsAs (s : String) (e : Expr) (links levels : Nat) : Prop :=
  ∃ ts, (∀ rest us, Closes rest → Lexes rest us → Lexes (s.toList ++ rest) (ts ++ us)) ∧
    ∀ w : List Lexeme, w.map Lexeme.token = ts →
      ∃ e' l, Expression .sum w e' links l ∧ l ≤ levels ∧ e'.bare = e

namespace ReadsAs

variable {s : String} {e : Expr} {k l : Nat}

/-- The layout of an expression that is no comparison. -/
theorem layout (e : Expr) (proper : ∀ t ∈ e.tokens, t.Proper) (sum : .sum ≤ e.outerTier) :
    ReadsAs e.layout e.bare e.links e.levels := by
  refine ⟨e.tokens, e.lexed proper, fun w hw => ?_⟩
  obtain ⟨e', derived, same⟩ := e.derives w hw
  exact ⟨e', e.levels, derived.weaken sum, Nat.le_refl _, same⟩

theorem parens (h : ReadsAs s e k l) : ReadsAs ("(" ++ s ++ ")") e 0 (l + 1) := by
  obtain ⟨ts, lexes, derives⟩ := h
  refine ⟨.leftParen :: (ts ++ [.rightParen]), ?_, ?_⟩
  · intro rest us close later
    have whole := Expr.lexes_parens lexes later
    rw [String.toList_append, String.toList_append]
    simpa using whole
  · intro w hw
    obtain ⟨x, u, y, rfl, hx, hu, hy⟩ := exists_of_map_token_eq hw
    obtain ⟨e', m, derived, le, same⟩ := derives u hu
    exact ⟨e', m + 1, (Expression.parens hx (derived.weaken (Tier.lowest_le _)) hy).weaken
      (Tier.le_negation _), Nat.succ_le_succ le, same⟩

theorem addOnes (h : ReadsAs s e k l) (n : Nat) :
    ReadsAs (s ++ addedOnes n) (e.addOnes n) (k + n) (max l (k + n + 2)) := by
  obtain ⟨ts, lexes, derives⟩ := h
  refine ⟨ts ++ addedTokens n, ?_, ?_⟩
  · intro rest us close later
    rw [String.toList_append, List.append_assoc, List.append_assoc]
    exact lexes _ _ (close.addedOnes n) (later.addedOnes close n)
  · intro w hw
    obtain ⟨u, v, rfl, hu, hv⟩ := List.map_eq_append_iff.1 hw
    obtain ⟨e', m, derived, le, same⟩ := derives u hu
    obtain ⟨e'', m', derived', le', same'⟩ := derived.addOnes n hv
    exact ⟨e'', m', derived', by omega, by rw [same', same]⟩

/-- The program that prints what is read, if the levels suffice. -/
theorem ofSource_printing (h : ReadsAs s e k l) (le : l ≤ maxNesting) :
    ∃ p, Program.ofSource ("kem bhai\nbhai bol " ++ s ++ "\naavjo bhai\n") = .ok p ∧
      p.bare = ⟨[.print e .nowhere], .nowhere⟩ := by
  obtain ⟨ts, lexes, derives⟩ := h
  have whole := Lexes.printing lexes
  obtain ⟨xs, read, tokens⟩ := whole.tokenize
  -- the lexemes of the text, part by part
  obtain ⟨v, rest, eq, hv, -⟩ := List.map_eq_append_iff.1 tokens
  have hv : v.map Lexeme.token =
      .word .kemBhai :: ((.word .bhaiBol :: ts) ++ [.word .aavjoBhai]) := hv
  obtain ⟨x, u, z, rfl, hx, hu, hz⟩ := exists_of_map_token_eq hv
  obtain ⟨y, w, rfl, hy, hw⟩ := List.map_eq_cons_iff.1 hu
  obtain ⟨e', m, derived, le', same⟩ := derives w hw
  have printing := Statement.print hy (derived.weaken (Tier.lowest_le _))
  have fenced : Fenced (x :: (y :: w ++ [] ++ z :: rest)) _ _ :=
    .intro hx (.cons printing .nil) hz
  have here : x :: (y :: w ++ [] ++ z :: rest) = solid xs := by
    rw [eq]
    simp
  rw [here] at fenced
  have needed : max m 0 ≤ maxNesting := by omega
  refine ⟨_, ofSource_eq_ok_iff.2 ⟨xs, read, (ofLexemes_of_fenced fenced rfl).1 needed⟩, ?_⟩
  simp only [Program.bare, allBare, Stmt.bare, same]

end ReadsAs

end GujaratiScript
