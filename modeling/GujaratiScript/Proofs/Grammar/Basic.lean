import GujaratiScript.Tree.Parser

/-!
# The grammar of programs

Which sequences of lexemes are the expressions, statements and programs of the language, which tree
each of them is, and how many levels of nesting it takes to read it.

* `Grammar.Expression` : the tiers of expressions, from the weakest operators to the operands;
* `Grammar.Statement`, `Grammar.Braced`, `Grammar.Sequence` : statements, alone and in sequence;
* `Grammar.Fenced` : programs;
* `Stmt.placed` : whether loop control stands inside loops only.

The relations say nothing about how a sequence is read: they have no cursor and no fault.

## Levels

Each class carries the levels of nesting that its derivation needs.

* An operand needs one level; parentheses, a negation and the braces of a block need one more than
  what they enclose.
* The operators that stand in one chain, weakest to tightest and left to right, each need a level
  more than the one before. The levels of an operand are given back when it ends, so it is the
  deepest place of a chain that counts and not the sum.
-/

namespace GujaratiScript

/-! ## Tiers -/

namespace Tier

/-- The next tier that binds more tightly. -/
def above : Tier → Tier
  | lowest => equality
  | equality => comparison
  | comparison => sum
  | sum => product
  | product => negation
  | negation => negation

theorem le_refl (t : Tier) : t ≤ t := Nat.le_refl _

theorem le_trans {s t u : Tier} (h : s ≤ t) (h' : t ≤ u) : s ≤ u := Nat.le_trans h h'

theorem not_lt {s t : Tier} : ¬ s < t ↔ t ≤ s := Nat.not_lt

theorem lt_of_le_of_ne {s t : Tier} (h : s ≤ t) (ne : s ≠ t) : s < t := by
  revert h ne
  cases s <;> cases t <;> decide

theorem rank_lt_rank_above {s t : Tier} (h : s < t) : s.rank < s.above.rank := by
  revert h
  cases s <;> cases t <;> decide

theorem le_above (t : Tier) : t ≤ t.above := by
  cases t <;> decide

theorem le_negation (t : Tier) : t ≤ negation := by
  cases t <;> decide

theorem lowest_le (t : Tier) : lowest ≤ t := Nat.zero_le _

/-- The operators of the next tier are those that bind more tightly. -/
theorem above_le_tier_iff (t : Tier) (o : Operator) : t.above ≤ o.tier ↔ t < o.tier := by
  cases t <;> cases o <;> decide

/-- Between a tier and the next there is none. -/
theorem above_le_of_lt {s t : Tier} (h : s < t) : s.above ≤ t := by
  revert h
  cases s <;> cases t <;> decide

end Tier

/-- The lexemes of a sequence that mean something to the grammar: all but the line breaks. -/
def solid (xs : List Lexeme) : List Lexeme :=
  xs.filter fun x => x.token ≠ .newline

/-- The tree of a lexeme that is an operand by itself. -/
def Lexeme.leaf? (x : Lexeme) : Option Expr :=
  match x.token with
  | .ident name => some (.var ⟨name, x.span⟩)
  | .int value => some (.int value x.span)
  | .str value => some (.str value x.span)
  | .word .bhaiChhe => some (.bool true x.span)
  | .word .bhaiNathi => some (.bool false x.span)
  | .word .bapuTameBolo => some (.input x.span)
  | _ => none

/-- Such a tree stands where the lexeme does. -/
theorem Lexeme.span_of_leaf? {x : Lexeme} {e : Expr} (h : x.leaf? = some e) : e.span = x.span := by
  rcases x with ⟨t, text, span⟩
  cases t with
  | word k => cases k <;> cases h <;> rfl
  | _ => cases h <;> rfl

namespace Grammar

/-! ## Expressions -/

/-- `Expression t w e links levels` : the lexemes `w` are the expression `e`, whose operators
outside of parentheses bind at least as tightly as `t`; `links` of them make up its outermost chain.

The tiers are those of the operators. The class of `Tier.lowest` is that of all expressions and the
class of `Tier.negation` that of operands. -/
inductive Expression : Tier → List Lexeme → Expr → Nat → Nat → Prop
  | leaf {x : Lexeme} {e : Expr} :
      x.leaf? = some e → Expression .negation [x] e 0 1
  | parens {x y : Lexeme} {w : List Lexeme} {e : Expr} {links levels : Nat} :
      x.token = .leftParen → Expression .lowest w e links levels → y.token = .rightParen →
      Expression .negation (x :: (w ++ [y])) e 0 (levels + 1)
  | negate {x : Lexeme} {w : List Lexeme} {e : Expr} {links levels : Nat} :
      x.token = .op .subtract → Expression .negation w e links levels →
      Expression .negation (x :: w) (.negate e (x.span.upTo e.span)) 0 (levels + 1)
  /-- Operators of one tier associate to the left. -/
  | binary {o : Operator} {x : Lexeme} {u v : List Lexeme} {l r : Expr} {j k m n : Nat} :
      Expression o.tier u l j m → x.token = .op o → Expression o.tier.above v r k n →
      Expression o.tier (u ++ x :: v) (.binary o l r x.span (l.span.upTo r.span))
        (j + 1) (max m (j + 2 + n))
  | up {t : Tier} {w : List Lexeme} {e : Expr} {links levels : Nat} :
      Expression t.above w e links levels → Expression t w e links levels

/-- No expression is read without a level. -/
theorem Expression.levels_pos {t : Tier} {w : List Lexeme} {e : Expr} {k n : Nat}
    (h : Expression t w e k n) : 0 < n := by
  induction h with
  | up _ ih => exact ih
  | _ => omega

/-- A class contains those of the tighter tiers. -/
theorem Expression.weaken {s t : Tier} {w : List Lexeme} {e : Expr} {k l : Nat}
    (h : Expression s w e k l) (le : t ≤ s) : Expression t w e k l := by
  by_cases eq : t = s
  · exact eq ▸ h
  · have lt : t < s := Tier.lt_of_le_of_ne le eq
    exact .up (h.weaken (Tier.above_le_of_lt lt))
termination_by s.rank - t.rank
decreasing_by
  have := Tier.rank_lt_rank_above lt
  exact Nat.sub_lt_sub_left lt this

/-! ## Statements -/

mutual

/-- `Statement w s levels` : the lexemes `w` are the statement `s`. -/
inductive Statement : List Lexeme → Stmt → Nat → Prop
  | print {x : Lexeme} {w : List Lexeme} {e : Expr} {links levels : Nat} :
      x.token = .word .bhaiBol → Expression .lowest w e links levels →
      Statement (x :: w) (.print e (x.span.upTo e.span)) levels
  | declare {x y z : Lexeme} {name : String} {w : List Lexeme} {e : Expr} {links levels : Nat} :
      x.token = .word .aa → y.token = .ident name → z.token = .word .che →
      Expression .lowest w e links levels →
      Statement (x :: y :: z :: w) (.declare ⟨name, y.span⟩ e (x.span.upTo e.span)) levels
  | assign {y z : Lexeme} {name : String} {w : List Lexeme} {e : Expr} {links levels : Nat} :
      y.token = .ident name → z.token = .word .che → Expression .lowest w e links levels →
      Statement (y :: z :: w) (.assign ⟨name, y.span⟩ e (y.span.upTo e.span)) levels
  | branch {x : Lexeme} {u v : List Lexeme} {e : Expr} {yes : Block} {links m n : Nat} :
      x.token = .word .jo → Expression .lowest u e links m → Braced v yes n →
      Statement (x :: (u ++ v)) (.branch e yes none (x.span.upTo yes.span)) (max m n)
  | branchElse {x y : Lexeme} {u v w : List Lexeme} {e : Expr} {yes no : Block}
      {links l m n : Nat} :
      x.token = .word .jo → Expression .lowest u e links l → Braced v yes m →
      y.token = .word .nahiTo → Braced w no n →
      Statement (x :: (u ++ (v ++ y :: w))) (.branch e yes (some no) (x.span.upTo no.span))
        (max l (max m n))
  | loop {x y : Lexeme} {u v : List Lexeme} {body : Block} {e : Expr} {links m n : Nat} :
      x.token = .word .farvu → Braced u body m → y.token = .word .jyaSudhi →
      Expression .lowest v e links n →
      Statement (x :: (u ++ y :: v)) (.loop body e (x.span.upTo e.span)) (max m n)
  | leave {x : Lexeme} : x.token = .word .tameJao → Statement [x] (.leave x.span) 0
  | again {x : Lexeme} : x.token = .word .aagalVado → Statement [x] (.again x.span) 0
  | block {w : List Lexeme} {b : Block} {levels : Nat} :
      Braced w b levels → Statement w (.block b) levels

/-- `Braced w b levels` : the lexemes `w` are the block `b`. -/
inductive Braced : List Lexeme → Block → Nat → Prop
  | intro {x y : Lexeme} {w : List Lexeme} {body : List Stmt} {levels : Nat} :
      x.token = .leftBrace → Sequence w body levels → y.token = .rightBrace →
      Braced (x :: (w ++ [y])) ⟨body, x.span.upTo y.span⟩ (levels + 1)

/-- `Sequence w body levels` : the lexemes `w` are the statements `body`, one after the other. -/
inductive Sequence : List Lexeme → List Stmt → Nat → Prop
  | nil : Sequence [] [] 0
  | cons {u v : List Lexeme} {s : Stmt} {body : List Stmt} {m n : Nat} :
      Statement u s m → Sequence v body n → Sequence (u ++ v) (s :: body) (max m n)

end

/-- `Fenced w p levels` : the lexemes `w` are the program `p`, from its first fence to its last, and
any lexemes after that. -/
inductive Fenced : List Lexeme → Program → Nat → Prop
  | intro {x y : Lexeme} {w rest : List Lexeme} {body : List Stmt} {levels : Nat} :
      x.token = .word .kemBhai → Sequence w body levels → y.token = .word .aavjoBhai →
      Fenced (x :: (w ++ y :: rest)) ⟨body, x.span.upTo y.span⟩ levels

end Grammar

/-! ## Loop control -/

mutual

/-- Whether every leaving or repeating of a loop stands inside the body of one, or `inLoop`
holds. -/
def Stmt.placed (inLoop : Bool) : Stmt → Bool
  | .print _ _ => true
  | .declare _ _ _ => true
  | .assign _ _ _ => true
  | .branch _ yes none _ => yes.placed inLoop
  | .branch _ yes (some no) _ => yes.placed inLoop && no.placed inLoop
  | .loop body _ _ => body.placed true
  | .leave _ => inLoop
  | .again _ => inLoop
  | .block b => b.placed inLoop
termination_by structural s => s

/-- Whether the loop control of a block is placed. -/
def Block.placed (inLoop : Bool) : Block → Bool
  | ⟨body, _⟩ => allPlaced inLoop body
termination_by structural b => b

/-- Whether the loop control of statements is placed. -/
def allPlaced (inLoop : Bool) : List Stmt → Bool
  | [] => true
  | s :: rest => s.placed inLoop && allPlaced inLoop rest
termination_by structural l => l

end

/-! ## First lexemes -/

namespace Grammar

/-- The tokens that a statement may begin with. -/
def Opens (t : Token) : Prop :=
  t.opensStatement = true ∨ t = .leftBrace ∨ ∃ name, t = .ident name

/-- A token that neither goes on with an expression nor with a conditional. -/
def Ends (t : Token) : Prop :=
  t.tier = .lowest ∧ t ≠ .word .nahiTo

theorem Opens.ends {t : Token} (h : Opens t) : Ends t := by
  rcases h with h | rfl | ⟨name, rfl⟩
  · cases t with
    | word k =>
      cases k <;> simp_all [Token.opensStatement, Keyword.opensStatement, Ends, Token.tier]
    | _ => simp [Token.opensStatement] at h
  · exact ⟨rfl, by simp⟩
  · exact ⟨rfl, by simp⟩

theorem Opens.ne_close {t : Token} (h : Opens t) :
    t ≠ .rightBrace ∧ t ≠ .word .aavjoBhai ∧ t ≠ .eof := by
  refine ⟨?_, ?_, ?_⟩ <;> rintro rfl <;>
    simp [Opens, Token.opensStatement, Keyword.opensStatement] at h

/-- A block begins with its left brace. -/
theorem Braced.exists_cons {w : List Lexeme} {b : Block} {n : Nat} (h : Braced w b n) :
    ∃ x v, w = x :: v ∧ x.token = .leftBrace := by
  cases h with
  | intro hx _ _ => exact ⟨_, _, rfl, hx⟩

/-- Every statement has a first lexeme, and that tells it from what may follow a statement. -/
theorem Statement.exists_cons {w : List Lexeme} {s : Stmt} {n : Nat} (h : Statement w s n) :
    ∃ x v, w = x :: v ∧ Opens x.token := by
  cases h with
  | print hx _ => exact ⟨_, _, rfl, .inl (by rw [hx]; rfl)⟩
  | declare hx _ _ _ => exact ⟨_, _, rfl, .inl (by rw [hx]; rfl)⟩
  | assign hy _ _ => exact ⟨_, _, rfl, .inr (.inr ⟨_, hy⟩)⟩
  | branch hx _ _ => exact ⟨_, _, rfl, .inl (by rw [hx]; rfl)⟩
  | branchElse hx _ _ _ _ => exact ⟨_, _, rfl, .inl (by rw [hx]; rfl)⟩
  | loop hx _ _ _ => exact ⟨_, _, rfl, .inl (by rw [hx]; rfl)⟩
  | leave hx => exact ⟨_, _, rfl, .inl (by rw [hx]; rfl)⟩
  | again hx => exact ⟨_, _, rfl, .inl (by rw [hx]; rfl)⟩
  | block hb =>
    obtain ⟨x, v, rfl, hx⟩ := hb.exists_cons
    exact ⟨x, v, rfl, .inr (.inl hx)⟩

/-- What follows a statement is the next statement or the end of the sequence. -/
theorem Sequence.exists_ends {w : List Lexeme} {body : List Stmt} {n : Nat}
    (h : Sequence w body n) {y : Lexeme} (rest : List Lexeme) (hy : Ends y.token) :
    ∃ z v, w ++ y :: rest = z :: v ∧ Ends z.token := by
  cases h with
  | nil => exact ⟨y, rest, rfl, hy⟩
  | cons hu _ =>
    obtain ⟨x, v, rfl, hx⟩ := hu.exists_cons
    exact ⟨x, _, rfl, hx.ends⟩

end Grammar

end GujaratiScript
