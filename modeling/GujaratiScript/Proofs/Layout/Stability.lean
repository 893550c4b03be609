import GujaratiScript.Proofs.Layout.Growth

/-!
# Formatting twice

Formatting keeps what it has formatted, and turns no program into a text that is none, exactly where
the formatted text does not take more levels of nesting than there are. It may take more than the
text that was formatted: where the head of a chain of operators stands between parentheses, its own
operators do not count as links of the chain, but the layout leaves the parentheses out.

* `formatSource_layout_iff` : when a formatted text is accepted, and kept;
* `formatSource_rejected` : a program whose formatted text is rejected.
-/

namespace GujaratiScript

open Grammar

theorem formatSource_of_ofSource {text : String} {p : Program} (h : Program.ofSource text = .ok p) :
    formatSource text = .ok p.layout := by
  unfold formatSource
  rw [h]

/-- The formatted text of a program is accepted iff the levels that it takes to read it suffice, and
then formatting keeps it. -/
theorem formatSource_layout_iff {text : String} {p : Program} (h : Program.ofSource text = .ok p) :
    formatSource text = .ok p.layout ∧
      ((∃ q, Program.ofSource p.layout = .ok q) ↔ p.levels ≤ maxNesting) ∧
      (formatSource p.layout = .ok p.layout ↔ p.levels ≤ maxNesting) := by
  obtain ⟨enough, needed⟩ := ofSource_layout (sound_of_ofSource h)
  refine ⟨formatSource_of_ofSource h, ⟨needed, ?_⟩, ?_, ?_⟩
  · intro le
    obtain ⟨q, accepted, -⟩ := enough le
    exact ⟨q, accepted⟩
  · intro kept
    apply needed
    unfold formatSource at kept
    rcases eq : Program.ofSource p.layout with failure | q
    · rw [eq] at kept
      cases kept
    · exact ⟨q, rfl⟩
  · intro le
    obtain ⟨q, accepted, same⟩ := enough le
    rw [formatSource_of_ofSource accepted, Program.layout_congr same]

/-- One and one, printed and formatted twice. -/
theorem formatSource_layout_iff_sum :
    ∃ p, Program.ofSource "kem bhai\nbhai bol 1 + 1\naavjo bhai\n" = .ok p ∧
      formatSource "kem bhai\nbhai bol 1 + 1\naavjo bhai\n" = .ok p.layout ∧
      ((∃ q, Program.ofSource p.layout = .ok q) ↔ p.levels ≤ maxNesting) ∧
      (formatSource p.layout = .ok p.layout ↔ p.levels ≤ maxNesting) := by
  have one : ReadsAs "1" .one 0 1 := ReadsAs.layout .one Expr.proper_one (by decide)
  obtain ⟨p, read, -⟩ := (one.addOnes 1).ofSource_printing (by decide)
  have text : "kem bhai\nbhai bol " ++ ("1" ++ addedOnes 1) ++ "\naavjo bhai\n" =
      "kem bhai\nbhai bol 1 + 1\naavjo bhai\n" := by decide
  rw [text] at read
  exact ⟨p, read, formatSource_layout_iff read⟩

/-! ## A program whose formatted text is rejected -/

/-- Each one that is added is a link of the chain and takes a level more. -/
theorem Expr.le_levels_addOnes {e : Expr} (sum : .sum ≤ e.outerTier) (n : Nat) :
    e.links + n + 3 ≤ (e.addOnes (n + 1)).levels := by
  have open_ : wrapsLeft .add e = false := by
    unfold wrapsLeft
    unfold outerTier at sum
    rcases eq : e.tier? with _ | t
    · rfl
    · rw [eq] at sum
      exact decide_eq_false (Tier.not_lt.2 sum)
  have links : e.addOne.links = e.links + 1 := by
    simp only [addOne, Expr.links, open_, Bool.false_eq_true, if_false]
  induction n generalizing e with
  | zero =>
    have right : one.levels + (wrapsRight .add one).toNat = 1 := rfl
    simp only [addOnes, addOne, levels, open_, Bool.false_eq_true, if_false, right]
    omega
  | succ n ih =>
    have later := ih (e := e.addOne) (Tier.le_refl _) rfl rfl
    rw [links] at later
    rw [addOnes]
    omega

/-- A sum between parentheses at the head of a long one: in the formatted text its operator is one
more link. -/
theorem formatSource_rejected :
    ∃ t, formatSource
        ("kem bhai\nbhai bol " ++
          ("(" ++ "1 + 1" ++ ")" ++ String.join (List.replicate 254 " + 1")) ++
          "\naavjo bhai\n") = .ok t ∧
      ¬ ∃ q, Program.ofSource t = .ok q := by
  have sum : ReadsAs "1 + 1" Expr.one.addOne 1 3 := by
    refine ReadsAs.layout Expr.one.addOne ?_ (by decide)
    show ∀ t ∈ [Token.int 1, .op .add, .int 1], t.Proper
    simp [Token.Proper]
  -- what is in parentheses takes a level more than it would without, but no link of the chain
  obtain ⟨p, read, bare⟩ := (sum.parens.addOnes 254).ofSource_printing (by decide)
  refine ⟨p.layout, formatSource_of_ofSource read, fun accepted => ?_⟩
  have enough := (ofSource_layout (sound_of_ofSource read)).2 accepted
  have tall : 257 ≤ (Expr.one.addOne.addOnes 254).levels :=
    Expr.le_levels_addOnes (e := Expr.one.addOne) (by decide) 253
  have same : p.levels = max (Expr.one.addOne.addOnes 254).levels 0 := by
    rw [← p.levels_bare, bare]
    rfl
  have limit : maxNesting = 256 := rfl
  omega

end GujaratiScript
