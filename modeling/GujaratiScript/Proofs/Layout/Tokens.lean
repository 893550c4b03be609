import GujaratiScript.Proofs.Grammar.Bare

/-!
# The tokens of a canonical layout

The canonical layout of a tree is a sequence of tokens, and the grammar derives that sequence as the
same tree.

* `Expr.tokens`, `Stmt.tokens`, `Program.tokens` : the tokens of the layout, without line breaks;
* `Expr.levels`, `Stmt.levels`, `Program.levels` : the levels of nesting that it takes to read them;
* `Program.derives` : lexemes with these tokens are the program, but for its places;
* `Fenced.forall_tokens` : the tokens of a derived program are those of its lexemes and parentheses.
-/

namespace GujaratiScript

open Grammar

/-! ## Tokens -/

/-- Tokens between parentheses if `wrap` holds. -/
def enclosed (wrap : Bool) (ts : List Token) : List Token :=
  if wrap then .leftParen :: (ts ++ [.rightParen]) else ts

/-- The tokens of an expression. -/
def Expr.tokens : Expr → List Token
  | int n _ => [.int n]
  | str s _ => [.str s]
  | bool b _ => [.word (if b then .bhaiChhe else .bhaiNathi)]
  | var ident => [.ident ident.name]
  | input _ => [.word .bapuTameBolo]
  | negate e _ => .op .subtract :: enclosed e.tier?.isSome e.tokens
  | binary o l r _ _ =>
    enclosed (wrapsLeft o l) l.tokens ++ .op o :: enclosed (wrapsRight o r) r.tokens

mutual

/-- The tokens of a statement. -/
def Stmt.tokens : Stmt → List Token
  | .print e _ => .word .bhaiBol :: e.tokens
  | .declare ident e _ => .word .aa :: .ident ident.name :: .word .che :: e.tokens
  | .assign ident e _ => .ident ident.name :: .word .che :: e.tokens
  | .branch c yes none _ => .word .jo :: (c.tokens ++ yes.tokens)
  | .branch c yes (some no) _ =>
    .word .jo :: (c.tokens ++ (yes.tokens ++ .word .nahiTo :: no.tokens))
  | .loop body c _ => .word .farvu :: (body.tokens ++ .word .jyaSudhi :: c.tokens)
  | .leave _ => [.word .tameJao]
  | .again _ => [.word .aagalVado]
  | .block b => b.tokens
termination_by structural s => s

/-- The tokens of a block, with its braces. -/
def Block.tokens : Block → List Token
  | ⟨body, _⟩ => .leftBrace :: (allTokens body ++ [.rightBrace])
termination_by structural b => b

/-- The tokens of statements. -/
def allTokens : List Stmt → List Token
  | [] => []
  | s :: rest => s.tokens ++ allTokens rest
termination_by structural l => l

end

/-- The tokens of a program, with its fences. -/
def Program.tokens (p : Program) : List Token :=
  .word .kemBhai :: (allTokens p.body ++ [.word .aavjoBhai])

/-- Lexemes whose tokens stand between two others do so as well. -/
theorem exists_of_map_token_eq {w : List Lexeme} {a b : Token} {ts : List Token}
    (h : w.map Lexeme.token = a :: (ts ++ [b])) :
    ∃ x u y, w = x :: (u ++ [y]) ∧ x.token = a ∧ u.map Lexeme.token = ts ∧ y.token = b := by
  obtain ⟨x, v, rfl, hx, hv⟩ := List.map_eq_cons_iff.1 h
  obtain ⟨u, v', rfl, hu, hv'⟩ := List.map_eq_append_iff.1 hv
  obtain ⟨y, rfl, hy⟩ := List.map_eq_singleton_iff.1 hv'
  exact ⟨x, u, y, rfl, hx, hu, hy⟩

/-! ## Levels -/

/-- The operators of the outermost chain of an expression: those to the left that are written
without parentheses. -/
def Expr.links : Expr → Nat
  | binary o l _ _ _ => (if wrapsLeft o l then 0 else l.links) + 1
  | _ => 0

/-- The levels that it takes to read the layout of an expression. -/
def Expr.levels : Expr → Nat
  | negate e _ => e.levels + e.tier?.isSome.toNat + 1
  | binary o l r _ _ =>
    max (l.levels + (wrapsLeft o l).toNat)
      ((if wrapsLeft o l then 0 else l.links) + 2 + (r.levels + (wrapsRight o r).toNat))
  | _ => 1

mutual

/-- The levels that it takes to read the layout of a statement. -/
def Stmt.levels : Stmt → Nat
  | .print e _ => e.levels
  | .declare _ e _ => e.levels
  | .assign _ e _ => e.levels
  | .branch c yes none _ => max c.levels yes.levels
  | .branch c yes (some no) _ => max c.levels (max yes.levels no.levels)
  | .loop body c _ => max body.levels c.levels
  | .leave _ => 0
  | .again _ => 0
  | .block b => b.levels
termination_by structural s => s

/-- The levels that it takes to read the layout of a block. -/
def Block.levels : Block → Nat
  | ⟨body, _⟩ => allLevels body + 1
termination_by structural b => b

/-- The levels that it takes to read the layout of statements. -/
def allLevels : List Stmt → Nat
  | [] => 0
  | s :: rest => max s.levels (allLevels rest)
termination_by structural l => l

end

/-- The levels that it takes to read the layout of a program. -/
def Program.levels (p : Program) : Nat := allLevels p.body

/-! ## The derivation of an expression -/

namespace Expr

/-- The tightest class of the grammar that the layout of an expression is of. -/
def outerTier (e : Expr) : Tier := e.tier?.getD .negation

theorem le_outerTier_of_wrapsLeft {o : Operator} {l : Expr} (h : wrapsLeft o l = false) :
    o.tier ≤ l.outerTier := by
  unfold wrapsLeft at h
  unfold outerTier
  rcases eq : l.tier? with _ | t
  · exact Tier.le_negation _
  · rw [eq] at h
    exact Tier.not_lt.1 (of_decide_eq_false h)

theorem above_le_outerTier_of_wrapsRight {o : Operator} {r : Expr} (h : wrapsRight o r = false) :
    o.tier.above ≤ r.outerTier := by
  unfold wrapsRight at h
  unfold outerTier
  rcases eq : r.tier? with _ | t
  · exact Tier.le_negation _
  · rw [eq] at h
    exact Tier.above_le_of_lt (Nat.lt_of_not_le (of_decide_eq_false h))

theorem outerTier_of_tier? {e : Expr} (h : e.tier?.isSome = false) : e.outerTier = .negation := by
  unfold outerTier
  rw [Option.isSome_eq_false_iff, Option.isNone_iff_eq_none] at h
  rw [h]
  rfl

/-- Lexemes with the tokens of `e` are derived as `e` in the class of `e`. -/
def Derives (e : Expr) : Prop :=
  ∀ w : List Lexeme, w.map Lexeme.token = e.tokens →
    ∃ e', Expression e.outerTier w e' e.links e.levels ∧ e'.bare = e.bare

/-- Parentheses that are written where the class of `e` is too weak for `t` derive it in `t`. -/
theorem Derives.enclosed {e : Expr} (h : e.Derives) {wrap : Bool} {t : Tier}
    (le : wrap = false → t ≤ e.outerTier) {w : List Lexeme}
    (hw : w.map Lexeme.token = enclosed wrap e.tokens) :
    ∃ e', Expression t w e' (if wrap then 0 else e.links) (e.levels + wrap.toNat) ∧
      e'.bare = e.bare := by
  cases wrap with
  | false =>
    obtain ⟨e', derived, same⟩ := h w hw
    exact ⟨e', derived.weaken (le rfl), same⟩
  | true =>
    obtain ⟨x, u, y, rfl, hx, hu, hy⟩ := exists_of_map_token_eq hw
    obtain ⟨e', derived, same⟩ := h u hu
    exact ⟨e', (Expression.parens hx (derived.weaken (Tier.lowest_le _)) hy).weaken
      (Tier.le_negation t), same⟩

/-- A token that is an operand by itself is derived. -/
theorem derives_leaf {e : Expr} {t : Token} (ht : e.tokens = [t]) (outer : e.outerTier = .negation)
    (links : e.links = 0) (levels : e.levels = 1)
    (leaf : ∀ x : Lexeme, x.token = t → ∃ e', x.leaf? = some e' ∧ e'.bare = e.bare) :
    e.Derives := by
  intro w hw
  rw [ht] at hw
  obtain ⟨x, rfl, hx⟩ := List.map_eq_singleton_iff.1 hw
  obtain ⟨e', eq, same⟩ := leaf x hx
  rw [outer, links, levels]
  exact ⟨e', .leaf eq, same⟩

/-- Lexemes with the tokens of an expression are that expression, but for its places. -/
theorem derives (e : Expr) : e.Derives := by
  -- operands are derived with their parentheses, for the tier in which they stand
  induction e with
  | int n s =>
    refine derives_leaf rfl rfl rfl rfl fun x hx => ⟨.int n x.span, ?_, rfl⟩
    simp only [Lexeme.leaf?, hx]
  | str s _ =>
    refine derives_leaf rfl rfl rfl rfl fun x hx => ⟨.str s x.span, ?_, rfl⟩
    simp only [Lexeme.leaf?, hx]
  | bool b _ =>
    refine derives_leaf rfl rfl rfl rfl fun x hx => ⟨.bool b x.span, ?_, rfl⟩
    cases b with
    | false => simp only [Lexeme.leaf?, hx, Bool.false_eq_true, if_false]
    | true => simp only [Lexeme.leaf?, hx, if_true]
  | var ident =>
    refine derives_leaf rfl rfl rfl rfl fun x hx => ⟨.var ⟨ident.name, x.span⟩, ?_, rfl⟩
    simp only [Lexeme.leaf?, hx]
  | input _ =>
    refine derives_leaf rfl rfl rfl rfl fun x hx => ⟨.input x.span, ?_, rfl⟩
    simp only [Lexeme.leaf?, hx]
  | negate e s ih =>
    intro w hw
    obtain ⟨x, v, rfl, hx, hv⟩ := List.map_eq_cons_iff.1 hw
    obtain ⟨e', derived, same⟩ := ih.enclosed (t := .negation)
      (fun h => by rw [outerTier_of_tier? h]; exact Tier.le_refl _) hv
    exact ⟨_, .negate hx derived, by simp only [bare, same]⟩
  | binary o l r _ _ ihl ihr =>
    intro w hw
    obtain ⟨u, v, rfl, hu, hv⟩ := List.map_eq_append_iff.1 hw
    obtain ⟨x, v, rfl, hx, hv⟩ := List.map_eq_cons_iff.1 hv
    obtain ⟨l', left, samel⟩ := ihl.enclosed le_outerTier_of_wrapsLeft hu
    obtain ⟨r', right, samer⟩ := ihr.enclosed above_le_outerTier_of_wrapsRight hv
    exact ⟨_, .binary left hx right, by simp only [bare, samel, samer]⟩

end Expr

/-- Lexemes with the tokens of an expression are an expression of the weakest class. -/
theorem Expr.derives_lowest (e : Expr) {w : List Lexeme} (hw : w.map Lexeme.token = e.tokens) :
    ∃ e', Expression .lowest w e' e.links e.levels ∧ e'.bare = e.bare := by
  obtain ⟨e', derived, same⟩ := e.derives w hw
  exact ⟨e', derived.weaken (Tier.lowest_le _), same⟩

/-! ## The derivation of a program -/

mutual

/-- Lexemes with the tokens of a statement are that statement, but for its places. -/
theorem Stmt.derives (s : Stmt) {w : List Lexeme} (hw : w.map Lexeme.token = s.tokens) :
    ∃ s', Statement w s' s.levels ∧ s'.bare = s.bare := by
  -- the lexemes are cut where the tokens of the parts end
  match s with
  | .print e _ =>
    obtain ⟨x, v, rfl, hx, hv⟩ := List.map_eq_cons_iff.1 hw
    obtain ⟨e', derived, same⟩ := e.derives_lowest hv
    exact ⟨_, .print hx derived, by simp only [Stmt.bare, same]⟩
  | .declare ident e _ =>
    obtain ⟨x, v, rfl, hx, hv⟩ := List.map_eq_cons_iff.1 hw
    obtain ⟨y, v, rfl, hy, hv⟩ := List.map_eq_cons_iff.1 hv
    obtain ⟨z, v, rfl, hz, hv⟩ := List.map_eq_cons_iff.1 hv
    obtain ⟨e', derived, same⟩ := e.derives_lowest hv
    exact ⟨_, .declare hx hy hz derived, by simp only [Stmt.bare, same]⟩
  | .assign ident e _ =>
    obtain ⟨y, v, rfl, hy, hv⟩ := List.map_eq_cons_iff.1 hw
    obtain ⟨z, v, rfl, hz, hv⟩ := List.map_eq_cons_iff.1 hv
    obtain ⟨e', derived, same⟩ := e.derives_lowest hv
    exact ⟨_, .assign hy hz derived, by simp only [Stmt.bare, same]⟩
  | .branch c yes none _ =>
    obtain ⟨x, v, rfl, hx, hv⟩ := List.map_eq_cons_iff.1 hw
    obtain ⟨u, v, rfl, hu, hv⟩ := List.map_eq_append_iff.1 hv
    obtain ⟨c', condition, samec⟩ := c.derives_lowest hu
    obtain ⟨yes', braced, samey⟩ := yes.derives hv
    exact ⟨_, .branch hx condition braced, by simp only [Stmt.bare, samec, samey]⟩
  | .branch c yes (some no) _ =>
    obtain ⟨x, v, rfl, hx, hv⟩ := List.map_eq_cons_iff.1 hw
    obtain ⟨u, v, rfl, hu, hv⟩ := List.map_eq_append_iff.1 hv
    obtain ⟨u', v, rfl, hu', hv⟩ := List.map_eq_append_iff.1 hv
    obtain ⟨y, v, rfl, hy, hv⟩ := List.map_eq_cons_iff.1 hv
    obtain ⟨c', condition, samec⟩ := c.derives_lowest hu
    obtain ⟨yes', braced, samey⟩ := yes.derives hu'
    obtain ⟨no', braced', samen⟩ := no.derives hv
    exact ⟨_, .branchElse hx condition braced hy braced',
      by simp only [Stmt.bare, samec, samey, samen]⟩
  | .loop body c _ =>
    obtain ⟨x, v, rfl, hx, hv⟩ := List.map_eq_cons_iff.1 hw
    obtain ⟨u, v, rfl, hu, hv⟩ := List.map_eq_append_iff.1 hv
    obtain ⟨y, v, rfl, hy, hv⟩ := List.map_eq_cons_iff.1 hv
    obtain ⟨body', braced, sameb⟩ := body.derives hu
    obtain ⟨c', condition, samec⟩ := c.derives_lowest hv
    exact ⟨_, .loop hx braced hy condition, by simp only [Stmt.bare, sameb, samec]⟩
  | .leave _ =>
    obtain ⟨x, rfl, hx⟩ := List.map_eq_singleton_iff.1 hw
    exact ⟨_, .leave hx, rfl⟩
  | .again _ =>
    obtain ⟨x, rfl, hx⟩ := List.map_eq_singleton_iff.1 hw
    exact ⟨_, .again hx, rfl⟩
  | .block b =>
    obtain ⟨b', braced, same⟩ := b.derives hw
    exact ⟨_, .block braced, by simp only [Stmt.bare, same]⟩

/-- The same for a block. -/
theorem Block.derives (b : Block) {w : List Lexeme} (hw : w.map Lexeme.token = b.tokens) :
    ∃ b', Braced w b' b.levels ∧ b'.bare = b.bare := by
  match b with
  | ⟨body, _⟩ =>
    obtain ⟨x, u, y, rfl, hx, hu, hy⟩ := exists_of_map_token_eq hw
    obtain ⟨body', derived, same⟩ := derives_all body hu
    exact ⟨_, .intro hx derived hy, by simp only [Block.bare, same]⟩

/-- The same for statements in sequence. -/
theorem derives_all (body : List Stmt) {w : List Lexeme}
    (hw : w.map Lexeme.token = allTokens body) :
    ∃ body', Sequence w body' (allLevels body) ∧ allBare body' = allBare body := by
  match body with
  | [] =>
    obtain rfl := List.map_eq_nil_iff.1 hw
    exact ⟨[], .nil, rfl⟩
  | s :: rest =>
    obtain ⟨u, v, rfl, hu, hv⟩ := List.map_eq_append_iff.1 hw
    obtain ⟨s', first, same⟩ := s.derives hu
    obtain ⟨rest', later, same'⟩ := derives_all rest hv
    exact ⟨_, .cons first later, by simp only [allBare, same, same']⟩

end

/-- Lexemes that begin with the tokens of a program are that program, but for its places. -/
theorem Program.derives (p : Program) {w : List Lexeme} {more : List Token}
    (hw : w.map Lexeme.token = p.tokens ++ more) :
    ∃ q, Fenced w q p.levels ∧ q.bare = p.bare := by
  obtain ⟨v, rest, rfl, hv, -⟩ := List.map_eq_append_iff.1 hw
  obtain ⟨x, u, y, rfl, hx, hu, hy⟩ := exists_of_map_token_eq hv
  obtain ⟨body, derived, same⟩ := derives_all p.body hu
  refine ⟨⟨body, x.span.upTo y.span⟩, ?_, by simp only [bare, same]⟩
  rw [List.cons_append, List.append_assoc, List.singleton_append]
  exact .intro hx derived hy

/-! ## Levels without places -/

theorem Expr.links_bare (e : Expr) : e.bare.links = e.links := by
  induction e with
  | binary o l r _ _ ihl ihr => simp only [bare, links, wrapsLeft_bare, ihl]
  | _ => rfl

theorem Expr.levels_bare (e : Expr) : e.bare.levels = e.levels := by
  induction e with
  | negate e _ ih => simp only [bare, levels, tier?_bare, ih]
  | binary o l r _ _ ihl ihr =>
    simp only [bare, levels, wrapsLeft_bare, wrapsRight_bare, links_bare, ihl, ihr]
  | _ => rfl

mutual

theorem Stmt.levels_bare (s : Stmt) : s.bare.levels = s.levels := by
  match s with
  | .print e _ => exact e.levels_bare
  | .declare _ e _ => exact e.levels_bare
  | .assign _ e _ => exact e.levels_bare
  | .branch c yes none _ => simp only [Stmt.bare, Stmt.levels, c.levels_bare, yes.levels_bare]
  | .branch c yes (some no) _ =>
    simp only [Stmt.bare, Stmt.levels, c.levels_bare, yes.levels_bare, no.levels_bare]
  | .loop body c _ => simp only [Stmt.bare, Stmt.levels, c.levels_bare, body.levels_bare]
  | .leave _ => rfl
  | .again _ => rfl
  | .block b => exact b.levels_bare

theorem Block.levels_bare (b : Block) : b.bare.levels = b.levels := by
  match b with
  | ⟨body, _⟩ => simp only [Block.bare, Block.levels, allLevels_bare body]

theorem allLevels_bare (body : List Stmt) : allLevels (allBare body) = allLevels body := by
  match body with
  | [] => rfl
  | s :: rest => simp only [allBare, allLevels, s.levels_bare, allLevels_bare rest]

end

/-- The levels that a program needs do not depend on its places. -/
theorem Program.levels_bare (p : Program) : p.bare.levels = p.levels :=
  allLevels_bare p.body

/-! ## The tokens of derived trees -/

/-- The tree of a lexeme that is an operand by itself is written as its token. -/
theorem Lexeme.tokens_of_leaf? {x : Lexeme} {e : Expr} (h : x.leaf? = some e) :
    e.tokens = [x.token] := by
  rcases x with ⟨t, text, span⟩
  cases t with
  | word k => cases k <;> cases h <;> rfl
  | _ => cases h <;> rfl

namespace Grammar

section Tokens

variable {P : Token → Prop}

theorem forall_enclosed (left : P .leftParen) (right : P .rightParen) {wrap : Bool}
    {ts : List Token} (h : ∀ t ∈ ts, P t) : ∀ t ∈ enclosed wrap ts, P t := by
  cases wrap with
  | false => exact h
  | true => simpa [enclosed, left, right, or_imp, forall_and] using h

/-- The tokens of a derived expression are those of its lexemes, and parentheses. -/
theorem Expression.forall_tokens {t : Tier} {w : List Lexeme} {e : Expr} {k l : Nat}
    (h : Expression t w e k l) (left : P .leftParen) (right : P .rightParen)
    (hw : ∀ x ∈ w, P x.token) : ∀ t ∈ e.tokens, P t := by
  induction h with
  | leaf h =>
    rw [Lexeme.tokens_of_leaf? h, List.forall_mem_singleton]
    exact hw _ List.mem_cons_self
  | parens _ _ _ ih =>
    -- the tree does not say that they were there
    exact ih fun x mem => hw x (List.mem_cons_of_mem _ (List.mem_append_left _ mem))
  | negate hx _ ih =>
    have first := hw _ List.mem_cons_self
    rw [hx] at first
    rw [Expr.tokens, List.forall_mem_cons]
    exact ⟨first, forall_enclosed left right (ih fun x mem => hw x (List.mem_cons_of_mem _ mem))⟩
  | binary _ hx _ ihl ihr =>
    rw [List.forall_mem_append, List.forall_mem_cons, hx] at hw
    obtain ⟨hu, here, hv⟩ := hw
    rw [Expr.tokens, List.forall_mem_append, List.forall_mem_cons]
    exact ⟨forall_enclosed left right (ihl hu), here, forall_enclosed left right (ihr hv)⟩
  | up _ ih => exact ih hw

mutual

/-- The same for a statement. -/
theorem Statement.forall_tokens {w : List Lexeme} {s : Stmt} {l : Nat} (h : Statement w s l)
    (left : P .leftParen) (right : P .rightParen) (hw : ∀ x ∈ w, P x.token) :
    ∀ t ∈ s.tokens, P t := by
  match h with
  | .print hx he =>
    rw [List.forall_mem_cons, hx] at hw
    rw [Stmt.tokens, List.forall_mem_cons]
    exact ⟨hw.1, he.forall_tokens left right hw.2⟩
  | .declare hx hy hz he =>
    rw [List.forall_mem_cons, List.forall_mem_cons, List.forall_mem_cons, hx, hy, hz] at hw
    rw [Stmt.tokens, List.forall_mem_cons, List.forall_mem_cons, List.forall_mem_cons]
    exact ⟨hw.1, hw.2.1, hw.2.2.1, he.forall_tokens left right hw.2.2.2⟩
  | .assign hy hz he =>
    rw [List.forall_mem_cons, List.forall_mem_cons, hy, hz] at hw
    rw [Stmt.tokens, List.forall_mem_cons, List.forall_mem_cons]
    exact ⟨hw.1, hw.2.1, he.forall_tokens left right hw.2.2⟩
  | .branch hx he hb =>
    rw [List.forall_mem_cons, List.forall_mem_append, hx] at hw
    rw [Stmt.tokens, List.forall_mem_cons, List.forall_mem_append]
    exact ⟨hw.1, he.forall_tokens left right hw.2.1, hb.forall_tokens left right hw.2.2⟩
  | .branchElse hx he hb hy hc =>
    rw [List.forall_mem_cons, List.forall_mem_append, List.forall_mem_append, List.forall_mem_cons,
      hx, hy] at hw
    rw [Stmt.tokens, List.forall_mem_cons, List.forall_mem_append, List.forall_mem_append,
      List.forall_mem_cons]
    exact ⟨hw.1, he.forall_tokens left right hw.2.1, hb.forall_tokens left right hw.2.2.1,
      hw.2.2.2.1, hc.forall_tokens left right hw.2.2.2.2⟩
  | .loop hx hb hy he =>
    rw [List.forall_mem_cons, List.forall_mem_append, List.forall_mem_cons, hx, hy] at hw
    rw [Stmt.tokens, List.forall_mem_cons, List.forall_mem_append, List.forall_mem_cons]
    exact ⟨hw.1, hb.forall_tokens left right hw.2.1, hw.2.2.1, he.forall_tokens left right hw.2.2.2⟩
  | .leave hx => simpa [Stmt.tokens, hx] using hw
  | .again hx => simpa [Stmt.tokens, hx] using hw
  | .block hb => exact hb.forall_tokens left right hw

/-- The same for a block. -/
theorem Braced.forall_tokens {w : List Lexeme} {b : Block} {l : Nat} (h : Braced w b l)
    (left : P .leftParen) (right : P .rightParen) (hw : ∀ x ∈ w, P x.token) :
    ∀ t ∈ b.tokens, P t := by
  match h with
  | .intro hx hs hy =>
    rw [List.forall_mem_cons, List.forall_mem_append, List.forall_mem_singleton, hx, hy] at hw
    rw [Block.tokens, List.forall_mem_cons, List.forall_mem_append, List.forall_mem_singleton]
    exact ⟨hw.1, hs.forall_tokens left right hw.2.1, hw.2.2⟩

/-- The same for statements in sequence. -/
theorem Sequence.forall_tokens {w : List Lexeme} {body : List Stmt} {l : Nat}
    (h : Sequence w body l) (left : P .leftParen) (right : P .rightParen)
    (hw : ∀ x ∈ w, P x.token) : ∀ t ∈ allTokens body, P t := by
  match h with
  | .nil => exact List.forall_mem_nil _
  | .cons hs hv =>
    rw [List.forall_mem_append] at hw
    rw [allTokens, List.forall_mem_append]
    exact ⟨hs.forall_tokens left right hw.1, hv.forall_tokens left right hw.2⟩

end

/-- The tokens of a derived program are those of its lexemes, and parentheses. -/
theorem Fenced.forall_tokens {w : List Lexeme} {p : Program} {l : Nat} (h : Fenced w p l)
    (left : P .leftParen) (right : P .rightParen) (hw : ∀ x ∈ w, P x.token) :
    ∀ t ∈ p.tokens, P t := by
  rcases h with ⟨hx, hs, hy⟩
  rw [List.forall_mem_cons, List.forall_mem_append, List.forall_mem_cons, hx, hy] at hw
  rw [Program.tokens, List.forall_mem_cons, List.forall_mem_append, List.forall_mem_singleton]
  exact ⟨hw.1, hs.forall_tokens left right hw.2.1, hw.2.2.1⟩

end Tokens

end Grammar

end GujaratiScript
