import GujaratiScript.Proofs.Grammar.Bare

/-!
# The height of derived trees

The levels of a derivation bound the height of its tree, but not by themselves: the levels of an
operand are given back when it ends, and the operators that follow it stand above it all the same.

* `Program.height` : the blocks, operators, negations and the leaf on the longest path from the
  root;
* `tallest` : the greatest height for a number of levels, and `Grammar.Fenced.height_le`;
* `Program.operands` : the operands of all chains, with what stands above them;
* `Grammar.Fenced.height_le_iff` : a program is no higher than the limit iff all its operands fit.
-/

namespace GujaratiScript

/-! ## Heights -/

/-- The nodes on the longest path through an expression. -/
def Expr.height : Expr → Nat
  | negate e _ => e.height + 1
  | binary _ l r _ _ => max l.height r.height + 1
  | _ => 1

mutual

/-- The blocks and expression nodes on the longest path through a statement. -/
def Stmt.height : Stmt → Nat
  | .print e _ => e.height
  | .declare _ e _ => e.height
  | .assign _ e _ => e.height
  | .branch c yes none _ => max c.height yes.height
  | .branch c yes (some no) _ => max c.height (max yes.height no.height)
  | .loop body c _ => max body.height c.height
  | .leave _ => 0
  | .again _ => 0
  | .block b => b.height
termination_by structural s => s

/-- The height of a block, which counts itself. -/
def Block.height : Block → Nat
  | ⟨body, _⟩ => allHeight body + 1
termination_by structural b => b

/-- The height of statements in sequence. -/
def allHeight : List Stmt → Nat
  | [] => 0
  | s :: rest => max s.height (allHeight rest)
termination_by structural l => l

end

/-- The height of a program. -/
def Program.height (p : Program) : Nat := allHeight p.body

/-! ## The bound for a number of levels -/

/-- The greatest height of an operand that takes `n` levels: it is a chain between parentheses, or a
negation as long as that is higher. -/
def tallestOperand : Nat → Nat
  | 0 => 0
  | n + 1 => tallestOperand n + max (n - 2) 1

/-- The greatest height of an expression that takes `n` levels: as many links as there can be, all
of them above the tallest operand. -/
def tallest (n : Nat) : Nat := tallestOperand n + (n - 2)

/-- With more levels an operand may be higher. -/
theorem tallestOperand_mono {m n : Nat} (h : m ≤ n) : tallestOperand m ≤ tallestOperand n := by
  induction h with
  | refl => exact Nat.le_refl _
  | step _ ih => exact Nat.le_trans ih (Nat.le_add_right _ _)

/-- A level more allows for a node more. -/
theorem tallest_succ (n : Nat) : tallest n + 1 ≤ tallest (n + 1) := by
  unfold tallest
  rw [tallestOperand]
  omega

/-- With more levels an expression may be higher. -/
theorem tallest_mono {m n : Nat} (h : m ≤ n) : tallest m ≤ tallest n := by
  have := tallestOperand_mono h
  unfold tallest
  omega

/-- Parentheses around the highest chain take one level. -/
theorem tallest_le_tallestOperand_succ (n : Nat) : tallest n ≤ tallestOperand (n + 1) := by
  unfold tallest
  rw [tallestOperand]
  omega

/-- The tree of a lexeme that is an operand by itself is one node. -/
theorem Lexeme.height_of_leaf? {x : Lexeme} {e : Expr} (h : x.leaf? = some e) : e.height = 1 := by
  rcases x with ⟨t, text, span⟩
  cases t with
  | word k => cases k <;> cases h <;> rfl
  | _ => cases h <;> rfl

namespace Grammar

/-- An operand heads a chain without links. -/
theorem Expression.links_of_negation {t : Tier} {w : List Lexeme} {e : Expr} {k l : Nat}
    (h : Expression t w e k l) (ht : t = .negation) : k = 0 := by
  induction h with
  | @binary o x u v l r j k m n _ _ _ _ _ =>
    have lt := o.tier_lt_negation
    rw [ht] at lt
    exact absurd lt (Nat.lt_irrefl _)
  | up _ ih =>
    subst ht
    exact ih rfl
  | _ => rfl

/-- The last link of a chain leaves a level for what is to the right of it. -/
theorem Expression.links_le {t : Tier} {w : List Lexeme} {e : Expr} {k l : Nat}
    (h : Expression t w e k l) : k ≤ l - 2 := by
  induction h with
  | binary _ _ hr _ _ =>
    have pos := hr.levels_pos
    omega
  | up _ ih => exact ih
  | _ => exact Nat.zero_le _

/-- The links of the chain stand above its operands, whichever levels those take. -/
theorem Expression.height_le_add {t : Tier} {w : List Lexeme} {e : Expr} {k l : Nat}
    (h : Expression t w e k l) : e.height ≤ k + tallestOperand l := by
  induction h with
  | @leaf x e h =>
    rw [Lexeme.height_of_leaf? h]
    decide
  | @parens x y w e k l _ he _ ih =>
    -- the links inside are no links of this chain
    have links := he.links_le
    have inner : tallest l ≤ tallestOperand (l + 1) := tallest_le_tallestOperand_succ l
    unfold tallest at inner
    omega
  | @negate x w e k l _ he ih =>
    have links := he.links_of_negation rfl
    rw [Expr.height, tallestOperand]
    omega
  | @binary o x u v l r j k m n _ _ hr ihl ihr =>
    -- on the left the new link stands above the others, on the right above those inside `v`
    have links := hr.links_le
    have left := tallestOperand_mono (Nat.le_max_left m (j + 2 + n))
    have right := tallest_le_tallestOperand_succ n
    have more : tallestOperand (n + 1) ≤ tallestOperand (max m (j + 2 + n)) :=
      tallestOperand_mono (by omega)
    unfold tallest at right
    rw [Expr.height]
    omega
  | up _ ih => exact ih

/-- An expression is no higher than its levels allow. -/
theorem Expression.height_le {t : Tier} {w : List Lexeme} {e : Expr} {k l n : Nat}
    (h : Expression t w e k l) (le : l ≤ n) : e.height ≤ tallest n := by
  have links := h.links_le
  have height := h.height_le_add
  have more := tallest_mono le
  unfold tallest at more ⊢
  omega

mutual

/-- A statement that takes at most `n` levels is no higher than the tallest expression that does: a
block takes a level and is one node, so it could as well be a link. -/
theorem Statement.height_le {w : List Lexeme} {s : Stmt} {l n : Nat} (h : Statement w s l)
    (le : l ≤ n) : s.height ≤ tallest n := by
  match h with
  | .print _ he => exact he.height_le le
  | .declare _ _ _ he => exact he.height_le le
  | .assign _ _ he => exact he.height_le le
  | .branch _ he hb =>
    rw [Nat.max_le] at le
    exact Nat.max_le.2 ⟨he.height_le le.1, hb.height_le le.2⟩
  | .branchElse _ he hb _ hc =>
    rw [Nat.max_le, Nat.max_le] at le
    exact Nat.max_le.2 ⟨he.height_le le.1,
      Nat.max_le.2 ⟨hb.height_le le.2.1, hc.height_le le.2.2⟩⟩
  | .loop _ hb _ he =>
    rw [Nat.max_le] at le
    exact Nat.max_le.2 ⟨hb.height_le le.1, he.height_le le.2⟩
  | .leave _ => exact Nat.zero_le _
  | .again _ => exact Nat.zero_le _
  | .block hb => exact hb.height_le le

/-- A block is no higher than its levels allow. -/
theorem Braced.height_le {w : List Lexeme} {b : Block} {l n : Nat} (h : Braced w b l)
    (le : l ≤ n) : b.height ≤ tallest n := by
  match h with
  | @Braced.intro x y w body m _ hs _ =>
    have inner := hs.height_le (Nat.le_refl m)
    have more := tallest_succ m
    have most := tallest_mono le
    rw [Block.height]
    omega

/-- Statements in sequence are no higher than their levels allow. -/
theorem Sequence.height_le {w : List Lexeme} {body : List Stmt} {l n : Nat}
    (h : Sequence w body l) (le : l ≤ n) : allHeight body ≤ tallest n := by
  match h with
  | .nil => exact Nat.zero_le _
  | .cons hs hv =>
    rw [Nat.max_le] at le
    exact Nat.max_le.2 ⟨hs.height_le le.1, hv.height_le le.2⟩

end

/-- The height of a derived program is bounded by its levels. -/
theorem Fenced.height_le {w : List Lexeme} {p : Program} {l n : Nat} (h : Fenced w p l)
    (le : l ≤ n) : p.height ≤ tallest n := by
  rcases h with ⟨_, hs, _⟩
  exact hs.height_le le

end Grammar

/-! ## Operands and what stands above them -/

/-- Operands with one more node above them. -/
def deeper (operands : List (Expr × Nat)) : List (Expr × Nat) :=
  operands.map fun x => (x.1, x.2 + 1)

/-- The operands of the outermost chain of an expression, with the number of operators that stand
above each of them: those of the chain from it on. -/
def Expr.operands : Expr → List (Expr × Nat)
  | binary _ l r _ _ => deeper l.operands ++ [(r, 1)]
  | e => [(e, 0)]

/-- Every operand fits into `n` nodes, with what stands above it. -/
def AllFit (n : Nat) (operands : List (Expr × Nat)) : Prop :=
  ∀ x ∈ operands, x.1.height + x.2 ≤ n

mutual

/-- The operands of the chains of a statement, with the blocks and operators above them. -/
def Stmt.operands : Stmt → List (Expr × Nat)
  | .print e _ => e.operands
  | .declare _ e _ => e.operands
  | .assign _ e _ => e.operands
  | .branch c yes none _ => c.operands ++ yes.operands
  | .branch c yes (some no) _ => c.operands ++ (yes.operands ++ no.operands)
  | .loop body c _ => body.operands ++ c.operands
  | .leave _ => []
  | .again _ => []
  | .block b => b.operands
termination_by structural s => s

/-- The operands of the chains inside a block. -/
def Block.operands : Block → List (Expr × Nat)
  | ⟨body, _⟩ => deeper (allOperands body)
termination_by structural b => b

/-- The operands of the chains of statements. -/
def allOperands : List Stmt → List (Expr × Nat)
  | [] => []
  | s :: rest => s.operands ++ allOperands rest
termination_by structural l => l

end

/-- The operands of all chains of a program. -/
def Program.operands (p : Program) : List (Expr × Nat) := allOperands p.body

/-- The operands of two lists fit if those of both do. -/
theorem allFit_append {n : Nat} {xs ys : List (Expr × Nat)} :
    AllFit n (xs ++ ys) ↔ AllFit n xs ∧ AllFit n ys :=
  List.forall_mem_append

/-- One node more above them is one node less of room. -/
theorem allFit_deeper {n : Nat} {xs : List (Expr × Nat)} :
    AllFit (n + 1) (deeper xs) ↔ AllFit n xs := by
  unfold AllFit deeper
  rw [List.forall_mem_map]
  constructor
  · intro h x mem
    exact Nat.le_of_succ_le_succ (h x mem)
  · intro h x mem
    exact Nat.succ_le_succ (h x mem)

/-- An expression is as high as its operands reach. -/
theorem Expr.height_le_iff (e : Expr) (n : Nat) : e.height ≤ n ↔ AllFit n e.operands := by
  induction e generalizing n with
  | binary o l r _ _ ihl ihr =>
    rw [operands, allFit_append]
    cases n with
    | zero =>
      constructor
      · intro h
        exact absurd h (Nat.not_succ_le_zero _)
      · rintro ⟨-, right⟩
        exact absurd (right (r, 1) List.mem_cons_self) (Nat.not_succ_le_zero _)
    | succ n =>
      have right : AllFit (n + 1) [(r, 1)] ↔ r.height ≤ n := by
        unfold AllFit
        rw [List.forall_mem_singleton]
        exact Nat.succ_le_succ_iff
      rw [allFit_deeper, ← ihl, right, height, Nat.succ_le_succ_iff, Nat.max_le]
  | _ =>
    unfold AllFit
    simp [operands]

namespace Grammar

mutual

/-- A statement that takes at most `n` levels is at most `n` high iff its operands fit: the levels
see to it that the blocks do. -/
theorem Statement.height_le_iff {w : List Lexeme} {s : Stmt} {l n : Nat} (h : Statement w s l)
    (le : l ≤ n) : s.height ≤ n ↔ AllFit n s.operands := by
  match h with
  | .print (e := e) _ _ => exact e.height_le_iff n
  | .declare (e := e) _ _ _ _ => exact e.height_le_iff n
  | .assign (e := e) _ _ _ => exact e.height_le_iff n
  | .branch (e := e) _ _ hb =>
    rw [Nat.max_le] at le
    rw [Stmt.height, Stmt.operands, Nat.max_le, allFit_append, e.height_le_iff,
      hb.height_le_iff le.2]
  | .branchElse (e := e) _ _ hb _ hc =>
    rw [Nat.max_le, Nat.max_le] at le
    rw [Stmt.height, Stmt.operands, Nat.max_le, Nat.max_le, allFit_append, allFit_append,
      e.height_le_iff, hb.height_le_iff le.2.1, hc.height_le_iff le.2.2]
  | .loop (e := e) _ hb _ _ =>
    rw [Nat.max_le] at le
    rw [Stmt.height, Stmt.operands, Nat.max_le, allFit_append, e.height_le_iff,
      hb.height_le_iff le.1]
  | .leave _ => exact ⟨fun _ => List.forall_mem_nil _, fun _ => Nat.zero_le n⟩
  | .again _ => exact ⟨fun _ => List.forall_mem_nil _, fun _ => Nat.zero_le n⟩
  | .block hb => exact hb.height_le_iff le

/-- A block fits into its levels if all operands in it do. -/
theorem Braced.height_le_iff {w : List Lexeme} {b : Block} {l n : Nat} (h : Braced w b l)
    (le : l ≤ n) : b.height ≤ n ↔ AllFit n b.operands := by
  match h, n with
  | .intro _ _ _, 0 => exact absurd le (Nat.not_succ_le_zero _)
  | .intro _ hs _, n + 1 =>
    rw [Block.height, Block.operands, allFit_deeper, Nat.succ_le_succ_iff,
      hs.height_le_iff (Nat.le_of_succ_le_succ le)]

/-- Statements fit into their levels if all operands in them do. -/
theorem Sequence.height_le_iff {w : List Lexeme} {body : List Stmt} {l n : Nat}
    (h : Sequence w body l) (le : l ≤ n) : allHeight body ≤ n ↔ AllFit n (allOperands body) := by
  match h with
  | .nil => exact ⟨fun _ => List.forall_mem_nil _, fun _ => Nat.zero_le n⟩
  | .cons hs hv =>
    rw [Nat.max_le] at le
    rw [allHeight, allOperands, Nat.max_le, allFit_append, hs.height_le_iff le.1,
      hv.height_le_iff le.2]

end

/-- A derived program is no higher than its levels allow for iff all its operands fit. -/
theorem Fenced.height_le_iff {w : List Lexeme} {p : Program} {l n : Nat} (h : Fenced w p l)
    (le : l ≤ n) : p.height ≤ n ↔ AllFit n p.operands := by
  rcases h with ⟨_, hs, _⟩
  exact hs.height_le_iff le

end Grammar

/-! ## Heights without places -/

/-- Spans have no height. -/
theorem Expr.height_bare (e : Expr) : e.bare.height = e.height := by
  induction e with
  | negate e _ ih => simp only [bare, height, ih]
  | binary o l r _ _ ihl ihr => simp only [bare, height, ihl, ihr]
  | _ => rfl

mutual

/-- The height of a bare statement. -/
theorem Stmt.height_bare (s : Stmt) : s.bare.height = s.height := by
  match s with
  | .print e _ => exact e.height_bare
  | .declare _ e _ => exact e.height_bare
  | .assign _ e _ => exact e.height_bare
  | .branch c yes none _ => simp only [Stmt.bare, Stmt.height, c.height_bare, yes.height_bare]
  | .branch c yes (some no) _ =>
    simp only [Stmt.bare, Stmt.height, c.height_bare, yes.height_bare, no.height_bare]
  | .loop body c _ => simp only [Stmt.bare, Stmt.height, c.height_bare, body.height_bare]
  | .leave _ => rfl
  | .again _ => rfl
  | .block b => exact b.height_bare

/-- The height of a bare block. -/
theorem Block.height_bare (b : Block) : b.bare.height = b.height := by
  match b with
  | ⟨body, _⟩ => simp only [Block.bare, Block.height, allHeight_bare body]

/-- The height of bare statements in sequence. -/
theorem allHeight_bare (body : List Stmt) : allHeight (allBare body) = allHeight body := by
  match body with
  | [] => rfl
  | s :: rest => simp only [allBare, allHeight, s.height_bare, allHeight_bare rest]

end

/-- The height of a program does not depend on its places. -/
theorem Program.height_bare (p : Program) : p.bare.height = p.height :=
  allHeight_bare p.body

end GujaratiScript
