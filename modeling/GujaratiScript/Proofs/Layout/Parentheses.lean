import GujaratiScript.Proofs.Layout.Growth
import GujaratiScript.Proofs.Layout.Pieces
import GujaratiScript.Proofs.Run.Evaluation

/-!
# Necessary parentheses

The layout of an expression has as few parentheses as any text that is read as that expression. So
none of them can be left out.

* `openings` : how many parentheses are opened by tokens;
* `Grammar.Expression.openings_le` : lexemes open at least as many parentheses as the layout of the
  expression that they are;
* `Expr.ReadFrom` : a text is read as an expression where it is printed;
* `Program.exprs` : the expressions of a program, with all their parts;
* `parentheses_are_necessary` : a layout without two of its parentheses is not read as its
  expression.
-/

namespace GujaratiScript

open Reading Grammar

/-! ## Opened parentheses -/

/-- How many parentheses the tokens open. -/
def openings (ts : List Token) : Nat := ts.count .leftParen

@[simp] theorem openings_nil : openings [] = 0 := rfl

@[simp] theorem openings_append (ts us : List Token) :
    openings (ts ++ us) = openings ts + openings us := List.count_append

theorem openings_cons (t : Token) (ts : List Token) :
    openings (t :: ts) = openings ts + if t = .leftParen then 1 else 0 := by
  simp [openings, List.count_cons]

theorem openings_enclosed (wrap : Bool) (ts : List Token) :
    openings (enclosed wrap ts) = openings ts + wrap.toNat := by
  cases wrap <;> simp [enclosed, openings_cons]

namespace Expr

/-- Operands are enclosed exactly if they are of a weaker class than that of their place. -/
theorem wrapsLeft_eq (o : Operator) (l : Expr) :
    wrapsLeft o l = decide (l.outerTier < o.tier) := by
  unfold wrapsLeft outerTier
  rcases l.tier? with _ | t
  · exact (decide_eq_false (Tier.not_lt.2 (Tier.le_negation _))).symm
  · rfl

theorem wrapsRight_eq (o : Operator) (r : Expr) :
    wrapsRight o r = decide (r.outerTier < o.tier.above) := by
  unfold wrapsRight outerTier
  rcases r.tier? with _ | t
  · exact (decide_eq_false (Tier.not_lt.2 (Tier.le_negation _))).symm
  · show decide (t ≤ o.tier) = decide (t < o.tier.above)
    cases t <;> cases o <;> rfl

theorem isSome_tier?_eq (e : Expr) : e.tier?.isSome = decide (e.outerTier < .negation) := by
  unfold outerTier
  cases e with
  | binary o l r _ _ => exact (decide_eq_true o.tier_lt_negation).symm
  | _ => rfl

theorem tokens_bare (e : Expr) : e.bare.tokens = e.tokens := by
  induction e with
  | negate e _ ih => simp only [bare, tokens, tier?_bare, ih]
  | binary o l r _ _ ihl ihr =>
    simp only [bare, tokens, wrapsLeft_bare, wrapsRight_bare, ihl, ihr]
  | _ => rfl

theorem tokens_congr {e e' : Expr} (h : e'.bare = e.bare) : e'.tokens = e.tokens := by
  rw [← e'.tokens_bare, h, e.tokens_bare]

end Expr

namespace Grammar

/-- An operand that is one lexeme is of the tightest class. -/
theorem outerTier_of_leaf? {x : Lexeme} {e : Expr} (h : x.leaf? = some e) :
    e.outerTier = .negation := by
  rcases x with ⟨t, text, span⟩
  cases t with
  | word k => cases k <;> cases h <;> rfl
  | _ => cases h <;> rfl

/-- Lexemes that are the expression `e` open at least as many parentheses as the layout of `e`, and
one more if `e` is of a weaker class than the one that they are derived in. -/
theorem Expression.openings_le {t : Tier} {w : List Lexeme} {e : Expr} {k l : Nat}
    (h : Expression t w e k l) :
    openings e.tokens + (decide (e.outerTier < t)).toNat ≤ openings (w.map Lexeme.token) := by
  have operand : ¬ Tier.negation < .negation := Tier.not_lt.2 (Tier.le_refl _)
  induction h with
  | @leaf x e leaf =>
    rw [Lexeme.tokens_of_leaf? leaf, outerTier_of_leaf? leaf, decide_eq_false operand]
    exact Nat.le_refl _
  | @parens x y w e _ _ hx _ hy ih =>
    -- these parentheses are the one more
    have most := Bool.toNat_le (decide (e.outerTier < .negation))
    have whole : openings ((x :: (w ++ [y])).map Lexeme.token) =
        openings (w.map Lexeme.token) + 1 := by
      simp [openings_cons, hx, hy]
    omega
  | @negate x w e _ _ hx _ ih =>
    have class_ : (Expr.negate e (x.span.upTo e.span)).outerTier = .negation := rfl
    have whole : openings ((x :: w).map Lexeme.token) = openings (w.map Lexeme.token) := by
      simp [openings_cons, hx]
    rw [class_, decide_eq_false operand, Expr.tokens, openings_cons, openings_enclosed,
      Expr.isSome_tier?_eq, whole]
    simpa using ih
  | @binary o x u v l r _ _ _ _ _ hx _ ihl ihr =>
    have class_ : (Expr.binary o l r x.span (l.span.upTo r.span)).outerTier = o.tier := rfl
    have here : ¬ o.tier < o.tier := Tier.not_lt.2 (Tier.le_refl _)
    have whole : openings ((u ++ x :: v).map Lexeme.token) =
        openings (u.map Lexeme.token) + openings (v.map Lexeme.token) := by
      simp [openings_cons, hx]
    rw [class_, decide_eq_false here, Expr.tokens, openings_append, openings_cons,
      openings_enclosed, openings_enclosed, Expr.wrapsLeft_eq, Expr.wrapsRight_eq, whole]
    simp only [reduceCtorEq, if_false, Bool.toNat_false]
    omega
  | @up t w e _ _ _ ih =>
    have weaker : (decide (e.outerTier < t)).toNat ≤ (decide (e.outerTier < t.above)).toNat := by
      by_cases lt : e.outerTier < t
      · have lt' : e.outerTier < t.above := Nat.lt_of_lt_of_le lt t.le_above
        rw [decide_eq_true lt, decide_eq_true lt']
      · rw [decide_eq_false lt]
        exact Nat.zero_le _
    omega

end Grammar

/-- Lexemes that open fewer parentheses than the layout of an expression are not read as it, not
even if others are left behind it. -/
theorem bare_ne_of_openings_lt {e : Expr} {ys : List Lexeme}
    (lt : openings (ys.map Lexeme.token) < openings e.tokens) {n : Nat} {e' : Expr} {d : Cursor}
    (read : expression n .lowest (Cursor.ofLexemes ys) = (.ok e', d)) : e'.bare ≠ e.bare := by
  intro same
  obtain ⟨w, k, l, take, derived, -⟩ :=
    sound_expression (Cursor.closed_ofLexemes ys) e' d read
  have sub : w.Sublist ys := by
    have ahead := take.ahead
    rw [Cursor.ahead_ofLexemes] at ahead
    have taken : w.Sublist (w ++ d.ahead) := List.sublist_append_left w d.ahead
    rw [← ahead] at taken
    exact taken.trans ((List.takeWhile_sublist _).trans List.filter_sublist)
  have enough := derived.openings_le
  have fewer : openings (w.map Lexeme.token) ≤ openings (ys.map Lexeme.token) :=
    (sub.map Lexeme.token).count_le _
  rw [Expr.tokens_congr same] at enough
  omega

/-! ## Printing -/

/-- Where the text `s` is printed, it is read as the expression `e`, but for its places. -/
def Expr.ReadFrom (e : Expr) (s : String) : Prop :=
  ∃ p, Program.ofSource ("kem bhai\nbhai bol " ++ s ++ "\naavjo bhai\n") = .ok p ∧
    p.bare = ⟨[.print e.bare .nowhere], .nowhere⟩

/-- A program that is a print statement but for its places. -/
theorem Program.exists_of_bare_eq_print {p : Program} {e : Expr}
    (same : p.bare = ⟨[.print e.bare .nowhere], .nowhere⟩) :
    ∃ f s t, p = ⟨[.print f s], t⟩ ∧ f.bare = e.bare := by
  rcases p with ⟨body, t⟩
  match body with
  | [] => cases same
  | [.print f s] =>
    simp only [Program.bare, allBare, Stmt.bare, Program.mk.injEq, List.cons.injEq, and_true,
      Stmt.print.injEq] at same
    exact ⟨f, s, t, rfl, same⟩
  | _ :: _ :: _ => cases congrArg (fun q => q.body.length) same
  | [.declare ..] | [.assign ..] | [.branch _ _ none _] | [.branch _ _ (some _) _] | [.loop ..]
  | [.leave _] | [.again _] | [.block _] => cases same

/-- Lexemes that are a program which prints an expression open enough parentheses for it. -/
theorem Grammar.Fenced.openings_le {w : List Lexeme} {p : Program} {l : Nat} (h : Fenced w p l)
    {e : Expr} (same : p.bare = ⟨[.print e.bare .nowhere], .nowhere⟩) :
    openings e.tokens ≤ openings (w.map Lexeme.token) := by
  obtain ⟨f, s, t, rfl, bare⟩ := Program.exists_of_bare_eq_print same
  rcases h with @⟨x, y, _, rest, _, _, -, sequence, -⟩
  rcases sequence with - | @⟨_, v, _, _, _, _, statement, -⟩
  rcases statement with @⟨x', u, _, _, _, -, derived⟩
  have inside : u.Sublist (x :: (x' :: u ++ v ++ y :: rest)) :=
    ((List.sublist_append_left u v).cons x').trans (List.sublist_append_left _ _) |>.cons x
  have enough := derived.openings_le
  rw [Expr.tokens_congr bare] at enough
  have fewer : openings (u.map Lexeme.token) ≤ _ := (inside.map Lexeme.token).count_le .leftParen
  exact (Nat.le_of_add_right_le enough).trans fewer

namespace Expr

variable {e : Expr}

theorem readFrom_layout (proper : ∀ t ∈ e.tokens, t.Proper) (le : e.levels ≤ maxNesting) :
    e.ReadFrom e.layout := by
  have tokens : Program.tokens ⟨[.print e .nowhere], .nowhere⟩ =
      .word .kemBhai :: .word .bhaiBol :: (e.tokens ++ [.word .aavjoBhai]) := by
    simp [Program.tokens, allTokens, Stmt.tokens]
  have whole := Lexes.printing (e.lexed proper)
  rw [← tokens] at whole
  exact ofSource_of_lexes whole rfl (Nat.max_le.2 ⟨le, Nat.zero_le _⟩)

theorem not_readFrom {s : String} {ts : List Token}
    (h : ∀ rest us, Closes rest → Lexes rest us → Lexes (s.toList ++ rest) (ts ++ us))
    (lt : openings ts < openings e.tokens) : ¬ e.ReadFrom s := by
  rintro ⟨p, read, same⟩
  obtain ⟨xs, lexemes, parsed⟩ := ofSource_eq_ok_iff.1 read
  obtain ⟨l, derived, -, -⟩ := fenced_of_ofLexemes parsed
  obtain ⟨xs', lexemes', tokens⟩ := (Lexes.printing h).tokenize
  obtain rfl : xs = xs' := Except.ok.inj (lexemes.symm.trans lexemes')
  have enough := derived.openings_le same
  rw [tokens] at enough
  have all : openings (.word .kemBhai :: .word .bhaiBol :: (ts ++ [.word .aavjoBhai]) ++ [.eof]) =
      openings ts := by
    simp [openings_cons]
  omega

end Expr

/-! ## The expressions of a program -/

mutual

/-- The expressions of a statement, with all their parts. -/
def Stmt.exprs : Stmt → List Expr
  | .print e _ => e.nodes
  | .declare _ e _ => e.nodes
  | .assign _ e _ => e.nodes
  | .branch c yes none _ => c.nodes ++ yes.exprs
  | .branch c yes (some no) _ => c.nodes ++ (yes.exprs ++ no.exprs)
  | .loop body c _ => body.exprs ++ c.nodes
  | .leave _ => []
  | .again _ => []
  | .block b => b.exprs
termination_by structural s => s

/-- The expressions of a block. -/
def Block.exprs : Block → List Expr
  | ⟨body, _⟩ => allExprs body
termination_by structural b => b

/-- The expressions of statements. -/
def allExprs : List Stmt → List Expr
  | [] => []
  | s :: rest => s.exprs ++ allExprs rest
termination_by structural l => l

end

/-- The expressions of a program. -/
def Program.exprs (p : Program) : List Expr := allExprs p.body

theorem Expr.self_mem_nodes (e : Expr) : e ∈ e.nodes := by
  cases e with
  | negate | binary => simp [nodes]
  | _ => exact List.mem_singleton_self _

/-- The tokens of a part of an expression are among those of the expression. -/
theorem Expr.tokens_subset_of_mem_nodes {e f : Expr} (h : e ∈ f.nodes) :
    e.tokens ⊆ f.tokens := by
  induction f with
  | int | str | bool | var | input =>
    rw [List.mem_singleton.1 h]
    exact List.Subset.refl _
  | negate f _ ih =>
    rcases List.mem_append.1 h with inner | here
    · exact fun t mem => List.mem_cons_of_mem _ (mem_enclosed (ih inner mem))
    · rw [List.mem_singleton.1 here]
      exact List.Subset.refl _
  | binary o l r _ _ ihl ihr =>
    rcases List.mem_append.1 h with left | h
    · exact fun t mem => List.mem_append_left _ (mem_enclosed (ihl left mem))
    · rcases List.mem_append.1 h with right | here
      · exact fun t mem => List.mem_append_right _
          (List.mem_cons_of_mem _ (mem_enclosed (ihr right mem)))
      · rw [List.mem_singleton.1 here]
        exact List.Subset.refl _

mutual

/-- The tokens of an expression in a statement are among those of the statement. -/
theorem Stmt.tokens_subset_of_mem_exprs (s : Stmt) : ∀ e ∈ s.exprs, e.tokens ⊆ s.tokens := by
  intro e mem t ht
  match s with
  | .print f _ => exact List.mem_cons_of_mem _ (Expr.tokens_subset_of_mem_nodes mem ht)
  | .declare _ f _ =>
    have inner := Expr.tokens_subset_of_mem_nodes mem ht
    exact List.mem_cons_of_mem _ (List.mem_cons_of_mem _ (List.mem_cons_of_mem _ inner))
  | .assign _ f _ =>
    have inner := Expr.tokens_subset_of_mem_nodes mem ht
    exact List.mem_cons_of_mem _ (List.mem_cons_of_mem _ inner)
  | .branch c yes none _ =>
    refine List.mem_cons_of_mem _ (List.mem_append.2 ?_)
    exact (List.mem_append.1 mem).imp (fun h => Expr.tokens_subset_of_mem_nodes h ht)
      fun h => yes.tokens_subset_of_mem_exprs e h ht
  | .branch c yes (some no) _ =>
    refine List.mem_cons_of_mem _ (List.mem_append.2 ?_)
    refine (List.mem_append.1 mem).imp (fun h => Expr.tokens_subset_of_mem_nodes h ht) fun h => ?_
    refine List.mem_append.2 ((List.mem_append.1 h).imp ?_ ?_)
    · exact fun h => yes.tokens_subset_of_mem_exprs e h ht
    · exact fun h => List.mem_cons_of_mem _ (no.tokens_subset_of_mem_exprs e h ht)
  | .loop body c _ =>
    refine List.mem_cons_of_mem _ (List.mem_append.2 ((List.mem_append.1 mem).imp ?_ ?_))
    · exact fun h => body.tokens_subset_of_mem_exprs e h ht
    · exact fun h => List.mem_cons_of_mem _ (Expr.tokens_subset_of_mem_nodes h ht)
  | .leave _ | .again _ => cases mem
  | .block b => exact b.tokens_subset_of_mem_exprs e mem ht

theorem Block.tokens_subset_of_mem_exprs (b : Block) : ∀ e ∈ b.exprs, e.tokens ⊆ b.tokens := by
  intro e mem t ht
  match b with
  | ⟨body, _⟩ =>
    have inner := tokens_subset_of_mem_allExprs body e mem ht
    exact List.mem_cons_of_mem _ (List.mem_append_left _ inner)

theorem tokens_subset_of_mem_allExprs (body : List Stmt) :
    ∀ e ∈ allExprs body, e.tokens ⊆ allTokens body := by
  intro e mem t ht
  match body with
  | [] => cases mem
  | s :: rest =>
    refine List.mem_append.2 ((List.mem_append.1 mem).imp ?_ ?_)
    · exact fun h => s.tokens_subset_of_mem_exprs e h ht
    · exact fun h => tokens_subset_of_mem_allExprs rest e h ht

end

/-! ## Every parenthesis is needed -/

/-- The layout of an expression of a program that was read is read as that expression where it is
printed, if the levels suffice. Without two of its parentheses it is read as the other tokens, which
neither are that expression where they are printed nor begin with it. -/
theorem parentheses_are_necessary {text : String} {p : Program}
    (h : Program.ofSource text = .ok p) {e : Expr} (he : e ∈ p.exprs) :
    (e.levels ≤ maxNesting → e.ReadFrom e.layout) ∧
      ∀ u x v y w, tokenize e.layout = .ok (u ++ x :: (v ++ y :: w)) →
        x.token = .leftParen → y.token = .rightParen →
          ¬ e.ReadFrom (without e.layout u.length (u.length + 1 + v.length)) ∧
            ∃ ys, tokenize (without e.layout u.length (u.length + 1 + v.length)) = .ok ys ∧
              ys.map Lexeme.token = (u ++ (v ++ w)).map Lexeme.token ∧
              ∀ n e' d, expression n .lowest (Cursor.ofLexemes ys) = (.ok e', d) →
                e'.bare ≠ e.bare := by
  have proper : ∀ t ∈ e.tokens, t.Proper := fun t mem =>
    (sound_of_ofSource h).proper t <| List.mem_cons_of_mem _ <| List.mem_append_left _ <|
      tokens_subset_of_mem_allExprs p.body e he mem
  refine ⟨Expr.readFrom_layout proper, fun u x v y w read hx hy => ?_⟩
  obtain ⟨qs, left, written, tokens⟩ :=
    (e.spaced_pieces proper).without e.toList_layout read (.inl hx) (.inr hy)
  -- the text has the tokens of the expression, and one parenthesis less is opened without the two
  have lt : openings qs.reduceOption < openings e.tokens := by
    have all : (u ++ x :: (v ++ y :: w)).map Lexeme.token = e.tokens ++ [.eof] := by
      rw [Except.ok.inj (read.symm.trans (e.tokenize_layout proper)), map_token_lexemesAt,
        e.reduceOption_pieces]
    have whole := congrArg openings all
    have rest := congrArg openings tokens
    simp only [List.map_append, List.map_cons, openings_append, openings_cons, openings_nil, hx, hy,
      reduceCtorEq, if_true, if_false] at whole rest
    omega
  refine ⟨Expr.not_readFrom (fun rest us close later => ?_) lt, lexemesAt .origin qs, ?_, ?_, ?_⟩
  · rw [written]
    exact left.lexes close later
  · rw [tokenize_eq_ok_iff, written]
    exact left.reads .origin
  · rw [map_token_lexemesAt, tokens]
  · intro n e' d
    refine bare_ne_of_openings_lt ?_
    simpa [map_token_lexemesAt, openings_cons] using lt

/-- The negation of a sum. -/
def Expr.negatedSum : Expr := .negate one.addOne .nowhere

/-- The negation of a sum, and the sum of a negation that is left without the parentheses. -/
theorem parentheses_are_necessary_negation :
    ∃ p, Program.ofSource "kem bhai\nbhai bol -(1 + 1)\naavjo bhai\n" = .ok p ∧
      ∃ e ∈ p.exprs, e.layout = "-(1 + 1)" ∧ e.ReadFrom "-(1 + 1)" ∧ ¬ e.ReadFrom "-1 + 1" := by
  have proper : ∀ t ∈ Expr.negatedSum.tokens, t.Proper := by
    show ∀ t ∈ [Token.op .subtract, .leftParen, .int 1, .op .add, .int 1, .rightParen], t.Proper
    simp [Token.Proper]
  obtain ⟨p, read, same⟩ := Expr.readFrom_layout proper (by decide)
  obtain ⟨e, s, _, rfl, bare⟩ := Program.exists_of_bare_eq_print same
  have mem : e ∈ allExprs [.print e s] := List.mem_append_left _ e.self_mem_nodes
  have layout : e.layout = "-(1 + 1)" := by
    rw [← e.layout_bare, bare]
    decide
  have levels : e.levels ≤ maxNesting := by
    rw [← e.levels_bare, bare]
    decide
  obtain ⟨positive, negative⟩ := parentheses_are_necessary read mem
  have lexemes : tokenize e.layout = .ok (lexemesAt .origin Expr.negatedSum.pieces) := by
    rw [← e.layout_bare, bare, Expr.layout_bare]
    exact Expr.negatedSum.tokenize_layout proper
  -- the parentheses are the lexemes with numbers one and five
  have parts : lexemesAt .origin Expr.negatedSum.pieces =
      [_] ++ _ :: ([_, _, _] ++ _ :: [_]) := rfl
  have fails := (negative _ _ _ _ _ (lexemes.trans (congrArg _ parts)) rfl rfl).1
  refine ⟨_, read, e, mem, layout, layout ▸ positive levels, ?_⟩
  have rest : without "-(1 + 1)" 1 5 = "-1 + 1" := String.toList_inj.1 <|
    toList_without (a := ['-']) (b := ['(']) (c := "1 + 1".toList) (d := [')']) (e := [])
      rfl rfl rfl
  rw [layout] at fails
  rw [← rest]
  exact fails

end GujaratiScript
