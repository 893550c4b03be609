import GujaratiScript.Proofs.Grammar.Acceptance
import GujaratiScript.Proofs.Layout.Lexing
import GujaratiScript.Session

/-!
# Reading the layout of a program

The canonical layout of a program that was read from some text is read as the same program, unless
it nests too deeply; whether it does can be told from the tree.

* `Program.Sound` : the programs that could have been read;
* `ofLexemes_of_lexes`, `ofSource_layout` : how the layout of such a program is read;
* `layout_reads_back` : the layout of a program that was read.
-/

namespace GujaratiScript

open Grammar

/-! ## Programs that were read -/

/-- A text is a program iff its lexemes are. -/
theorem ofSource_eq_ok_iff {text : String} {p : Program} :
    Program.ofSource text = .ok p ↔
      ∃ xs, tokenize text = .ok xs ∧ Program.ofLexemes xs = .ok p := by
  unfold Program.ofSource
  rcases tokenize text with fault | xs
  · constructor
    · intro eq
      cases eq
    · rintro ⟨xs, eq, -⟩
      cases eq
  · simp only
    rcases eq : Program.ofLexemes xs with faults | q
    · constructor
      · intro h
        cases h
      · rintro ⟨ys, h, h'⟩
        cases h
        rw [eq] at h'
        cases h'
    · constructor
      · intro h
        cases h
        exact ⟨xs, rfl, eq⟩
      · rintro ⟨ys, h, h'⟩
        cases h
        rw [eq] at h'
        cases h'
        rfl

/-- A program that some text can be read as, but for its places: every token of its layout has a
spelling and its loop control stands inside loops. -/
structure Program.Sound (p : Program) : Prop where
  proper : ∀ t ∈ p.tokens, t.Proper
  placed : allPlaced false p.body = true

theorem sound_of_ofSource {text : String} {p : Program} (h : Program.ofSource text = .ok p) :
    p.Sound := by
  obtain ⟨xs, read, parsed⟩ := ofSource_eq_ok_iff.1 h
  obtain ⟨l, derived, -, placed⟩ := fenced_of_ofLexemes parsed
  refine ⟨derived.forall_tokens trivial trivial ?_, placed⟩
  intro x mem
  exact proper_of_tokenize read x (List.mem_filter.1 mem).1

/-! ## Reading a layout -/

/-- A text with the tokens of a layout is read as the program that was laid out, if its levels
suffice, and otherwise too deep nesting is reported. -/
theorem ofLexemes_of_lexes {text : String} {p : Program} (lexes : Lexes text.toList p.tokens)
    (placed : allPlaced false p.body = true) :
    ∃ xs q, tokenize text = .ok xs ∧ q.bare = p.bare ∧
      (p.levels ≤ maxNesting → Program.ofLexemes xs = .ok q) ∧
      (¬ p.levels ≤ maxNesting → ∃ faults, Program.ofLexemes xs = .error faults ∧
        ∃ fault ∈ faults, fault.cause = .nestingTooDeep maxNesting) := by
  obtain ⟨xs, read, tokens⟩ := lexes.tokenize
  obtain ⟨q, derived, same⟩ := p.derives tokens
  have placed' : allPlaced false q.body = true := (Program.placed_congr same false).trans placed
  exact ⟨xs, q, read, same, ofLexemes_of_fenced derived placed'⟩

theorem ofSource_of_lexes {text : String} {p : Program} (lexes : Lexes text.toList p.tokens)
    (placed : allPlaced false p.body = true) (le : p.levels ≤ maxNesting) :
    ∃ q, Program.ofSource text = .ok q ∧ q.bare = p.bare := by
  obtain ⟨xs, q, read, same, enough, -⟩ := ofLexemes_of_lexes lexes placed
  exact ⟨q, ofSource_eq_ok_iff.2 ⟨xs, read, enough le⟩, same⟩

/-- The layout of a sound program is accepted iff the levels that it takes to read it suffice. -/
theorem ofSource_layout {p : Program} (h : p.Sound) :
    (p.levels ≤ maxNesting → ∃ q, Program.ofSource p.layout = .ok q ∧ q.bare = p.bare) ∧
      ((∃ q, Program.ofSource p.layout = .ok q) → p.levels ≤ maxNesting) := by
  obtain ⟨xs, q, read, same, enough, deep⟩ := ofLexemes_of_lexes (p.lexes h.proper) h.placed
  constructor
  · intro le
    exact ⟨q, ofSource_eq_ok_iff.2 ⟨xs, read, enough le⟩, same⟩
  · rintro ⟨q', accepted⟩
    obtain ⟨ys, read', parsed⟩ := ofSource_eq_ok_iff.1 accepted
    obtain rfl : xs = ys := Except.ok.inj (read.symm.trans read')
    -- were the levels not enough, these lexemes would be rejected
    by_cases le : p.levels ≤ maxNesting
    · exact le
    · obtain ⟨faults, failed, -⟩ := deep le
      rw [failed] at parsed
      cases parsed

/-- The layout of a program that was read is read as lexemes, and these as the same program but for
its places, unless too deep nesting is reported. -/
theorem layout_reads_back {text : String} {p : Program} (h : Program.ofSource text = .ok p) :
    ∃ xs, tokenize p.layout = .ok xs ∧
      ((∃ q, Program.ofLexemes xs = .ok q ∧ q.bare = p.bare) ∨
        ∃ faults, Program.ofLexemes xs = .error faults ∧
          ∃ fault ∈ faults, fault.cause = .nestingTooDeep maxNesting) := by
  have sound := sound_of_ofSource h
  obtain ⟨xs, q, read, same, enough, deep⟩ :=
    ofLexemes_of_lexes (p.lexes sound.proper) sound.placed
  refine ⟨xs, read, ?_⟩
  by_cases le : p.levels ≤ maxNesting
  · exact .inl ⟨q, enough le, same⟩
  · exact .inr (deep le)

/-- A loop that is left at once, and the same loop read from its layout. -/
theorem layout_reads_back_loop :
    ∃ p, Program.ofSource
        "kem bhai\nfarvu \x7b\n  tame jao\n\x7d jya sudhi bhai chhe\naavjo bhai\n" = .ok p ∧
      ∃ xs, tokenize p.layout = .ok xs ∧
        ((∃ q, Program.ofLexemes xs = .ok q ∧ q.bare = p.bare) ∨
          ∃ faults, Program.ofLexemes xs = .error faults ∧
            ∃ fault ∈ faults, fault.cause = .nestingTooDeep maxNesting) := by
  have sound : Program.Sound ⟨[.loop ⟨[.leave .nowhere], .nowhere⟩ (.bool true .nowhere) .nowhere],
      .nowhere⟩ := by
    refine ⟨?_, rfl⟩
    simp [Program.tokens, allTokens, Stmt.tokens, Block.tokens, Expr.tokens, Token.Proper]
  obtain ⟨p, read, -⟩ := (ofSource_layout sound).1 (by decide)
  exact ⟨p, read, layout_reads_back read⟩

end GujaratiScript
