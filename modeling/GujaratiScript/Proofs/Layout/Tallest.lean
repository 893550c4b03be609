import GujaratiScript.Proofs.Grammar.Height
import GujaratiScript.Proofs.Layout.Growth

/-!
# The highest trees

The limit on nesting does not bound the height of the programs that are read. What does is the
height of the tallest program that fits into the limit: sums between parentheses, each at the head
of another one that is as long as the levels allow.

* `tallText`, `Expr.tall` : expressions of the greatest height for their levels;
* `forall_height_le_iff` : the least bound on the height of all programs (`tallest_maxNesting` is its
  value);
* `height_ofSource_le_iff` : which programs keep to the limit;
* `height_ofSource_exceeds` : a program that does not.
-/

namespace GujaratiScript

open Grammar

/-! ## Tall expressions -/

/-- A long negation at the head of a sum. -/
def Expr.negatedOne : Expr := .negate (.negate .one .nowhere) .nowhere

/-- The text of the tallest expression that takes `n + 3` levels. -/
def tallText : Nat → String
  | 0 => "--1" ++ addedOnes 1
  | n + 1 => "(" ++ tallText n ++ ")" ++ addedOnes (n + 2)

/-- The tallest expression that takes `n + 3` levels. -/
def Expr.tall : Nat → Expr
  | 0 => Expr.negatedOne.addOnes 1
  | n + 1 => (Expr.tall n).addOnes (n + 2)

theorem readsAs_negatedOne : ReadsAs "--1" .negatedOne 0 3 := by
  refine ReadsAs.layout .negatedOne ?_ (by decide)
  show ∀ t ∈ [Token.op .subtract, .op .subtract, .int 1], t.Proper
  simp [Token.Proper]

/-- Parentheses take a level, and give back those of the links inside. -/
theorem readsAs_tall (n : Nat) : ReadsAs (tallText n) (.tall n) (n + 1) (n + 3) := by
  induction n with
  | zero => exact readsAs_negatedOne.addOnes 1
  | succ n ih =>
    have longer := ih.parens.addOnes (n + 2)
    have links : 0 + (n + 2) = n + 1 + 1 := by omega
    have levels : max (n + 3 + 1) (n + 1 + 1 + 2) = n + 1 + 3 := by omega
    rw [links, levels] at longer
    exact longer

theorem Expr.height_pos (e : Expr) : 0 < e.height := by
  cases e <;> exact Nat.succ_pos _

theorem Expr.height_addOnes (e : Expr) (n : Nat) : (e.addOnes n).height = e.height + n := by
  induction n generalizing e with
  | zero => rfl
  | succ n ih =>
    have pos := e.height_pos
    have one : e.addOne.height = e.height + 1 := by
      show max e.height 1 + 1 = e.height + 1
      omega
    rw [addOnes, ih, one]
    omega

theorem Expr.height_tall (n : Nat) : (Expr.tall n).height = tallest (n + 3) := by
  induction n with
  | zero => rfl
  | succ n ih =>
    have step : tallestOperand (n + 1 + 3) = tallestOperand (n + 3) + max (n + 3 - 2) 1 := rfl
    rw [tall, height_addOnes, ih]
    unfold tallest
    omega

/-! ## Programs -/

/-- The greatest height that fits into the limit on nesting, as a number. -/
theorem tallest_maxNesting : tallest maxNesting = 32388 := by
  decide +kernel

/-- A program of that height is read. -/
theorem exists_tallest :
    ∃ text p, Program.ofSource text = .ok p ∧ p.height = tallest maxNesting := by
  obtain ⟨p, read, bare⟩ := (readsAs_tall 253).ofSource_printing (Nat.le_refl _)
  refine ⟨_, p, read, ?_⟩
  have high : (Expr.tall 253).height = tallest maxNesting := Expr.height_tall 253
  rw [← p.height_bare, bare, ← high]
  exact Nat.max_eq_left (Nat.zero_le _)

/-- The height of the programs that are read is bounded, and not by the limit on nesting. -/
theorem forall_height_le_iff (bound : Nat) :
    (∀ text p, Program.ofSource text = .ok p → p.height ≤ bound) ↔
      tallest maxNesting ≤ bound := by
  constructor
  · intro all
    obtain ⟨text, p, read, high⟩ := exists_tallest
    rw [← high]
    exact all text p read
  · intro enough text p read
    obtain ⟨xs, -, parsed⟩ := ofSource_eq_ok_iff.1 read
    obtain ⟨l, derived, le, -⟩ := fenced_of_ofLexemes parsed
    exact Nat.le_trans (derived.height_le le) enough

/-- A program that was read keeps to the limit on nesting iff each operand of its chains does, with
the blocks around it and the operators above it, which are those of its chain from it on. No program
is higher than the tallest one, and that one is read. -/
theorem height_ofSource_le_iff {text : String} {p : Program}
    (h : Program.ofSource text = .ok p) :
    (p.height ≤ maxNesting ↔ ∀ x ∈ p.operands, x.1.height + x.2 ≤ maxNesting) ∧
      p.height ≤ tallest maxNesting ∧
        ∃ t q, Program.ofSource t = .ok q ∧ q.height = tallest maxNesting := by
  obtain ⟨xs, -, parsed⟩ := ofSource_eq_ok_iff.1 h
  obtain ⟨l, derived, le, -⟩ := fenced_of_ofLexemes parsed
  refine ⟨derived.height_le_iff le, ?_, exists_tallest⟩
  exact (forall_height_le_iff _).2 (Nat.le_refl _) text p h

/-- A negation of a negation at the head of a sum. -/
theorem height_ofSource_le_iff_sum :
    ∃ p, Program.ofSource "kem bhai\nbhai bol --1 + 1\naavjo bhai\n" = .ok p ∧
      (p.height ≤ maxNesting ↔ ∀ x ∈ p.operands, x.1.height + x.2 ≤ maxNesting) ∧
      p.height ≤ tallest maxNesting ∧
        ∃ t q, Program.ofSource t = .ok q ∧ q.height = tallest maxNesting := by
  obtain ⟨p, read, -⟩ := (readsAs_negatedOne.addOnes 1).ofSource_printing (by decide)
  have text : "kem bhai\nbhai bol " ++ ("--1" ++ addedOnes 1) ++ "\naavjo bhai\n" =
      "kem bhai\nbhai bol --1 + 1\naavjo bhai\n" := by decide
  rw [text] at read
  exact ⟨p, read, height_ofSource_le_iff read⟩

/-- A program that is higher than the limit: a negation of a negation, and as many links behind it
as if it were a single lexeme. -/
theorem height_ofSource_exceeds :
    ∃ p, Program.ofSource ("kem bhai\nbhai bol " ++
        ("--1" ++ String.join (List.replicate 254 " + 1")) ++ "\naavjo bhai\n") = .ok p ∧
      ¬ p.height ≤ maxNesting := by
  obtain ⟨p, read, bare⟩ := (readsAs_negatedOne.addOnes 254).ofSource_printing (by decide)
  refine ⟨p, read, ?_⟩
  have high : p.height = max (Expr.negatedOne.addOnes 254).height 0 := by
    rw [← p.height_bare, bare]
    rfl
  rw [Expr.height_addOnes] at high
  have limit : maxNesting = 256 := rfl
  have base : Expr.negatedOne.height = 3 := rfl
  omega

end GujaratiScript
