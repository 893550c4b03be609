import Mathlib.Data.List.TakeWhile
import GujaratiScript.Proofs.Reading.Built

/-!
# Where the nodes of a tree lie

What holds of the spans of all lexemes, and of a span that reaches from one such span to another,
holds of every node of the tree that is read and of every fault.

* `Cursor.Within` : the condition holds of all spans at a cursor, its faults included;
* `matching_within` : the basic readers keep to that, and so all readers do;
* `spans_ofLexemes` : so it holds of the program, or of all faults, that lexemes are read as.
-/

namespace GujaratiScript

/-! ## Cursors -/

/-- The condition holds of the spans of all lexemes ahead and of all faults met. -/
structure Cursor.Within (P : Span → Prop) (c : Cursor) : Prop where
  ahead : ∀ x ∈ c.ahead, P x.span
  endMark : P c.endMark.span
  faults : ∀ f ∈ c.faults, P f.span

namespace Cursor.Within

variable {P : Span → Prop} {c : Cursor}

/-- The lexeme ahead is at such a place, also the end mark. -/
theorem current (h : c.Within P) : P c.current.span := by
  rcases c with ⟨_ | ⟨x, v⟩, endMark, faults⟩
  · exact h.endMark
  · exact h.ahead x List.mem_cons_self

/-- Stepping over a lexeme keeps all places. -/
theorem step (h : c.Within P) : c.step.Within P :=
  ⟨fun x mem => h.ahead x (List.mem_of_mem_tail mem), h.endMark, h.faults⟩

/-- Skipping lexemes keeps all places. -/
theorem skip (h : c.Within P) : c.skip.Within P :=
  ⟨fun x mem => h.ahead x ((List.dropWhile_suffix _).subset mem), h.endMark, h.faults⟩

/-- Reporting a fault keeps all places if the fault is at one. -/
theorem report (h : c.Within P) {fault : ParseFault} (hf : P fault.span) :
    (c.report fault).Within P :=
  ⟨h.ahead, h.endMark, List.forall_mem_append.2 ⟨h.faults, List.forall_mem_singleton.2 hf⟩⟩

/-- Recovery keeps all places: what it skips to was ahead before. -/
theorem recover (h : c.Within P) (start : Cursor) : (c.recover start).Within P := by
  unfold Cursor.recover
  split
  · exact h.step.skip
  · exact h.skip

end Cursor.Within

/-- Reading passes on what holds of all spans at a cursor. -/
theorem matching_within (P : Span → Prop) :
    Reading.Matching.Trials P (fun c d : Cursor => c.Within P ∧ d = c) where
  current := by
    rintro _ d ⟨-, rfl⟩
    rfl
  seen h := h.1.current
  step := by
    rintro _ d ⟨h, rfl⟩
    exact ⟨h.step, rfl⟩
  nest := by
    rintro _ d (_ | levels) span ⟨h, rfl⟩ <;> exact ⟨rfl, h, rfl⟩
  restore _ h := h
  enterLoop h := h
  exitLoop h := h
  insideLoop _ _ := rfl
  trial h := h
  resume := by
    rintro _ _ d d' fault ⟨-, rfl⟩ ⟨h, rfl⟩ blamed
    exact ⟨(h.report blamed).recover d, rfl⟩
  left := by
    rintro _ _ d d' ⟨-, rfl⟩ ⟨-, rfl⟩
    exact Iff.rfl

/-! ## Programs -/

variable {P : Span → Prop}

/-- The cursor over lexemes that have an end mark holds no other span. -/
theorem within_ofLexemes {xs : List Lexeme} (h : ∀ x ∈ xs, x.token ≠ .newline → P x.span)
    (closed : ∃ x ∈ xs, x.token = .eof) : (Cursor.ofLexemes xs).Within P := by
  have kept : ∀ x ∈ xs.filter (fun x => x.token ≠ .newline), P x.span := by
    intro x mem
    obtain ⟨mem, other⟩ := List.mem_filter.1 mem
    exact h x mem (of_decide_eq_true other)
  have ahead : ∀ x ∈ (xs.filter (fun x => x.token ≠ .newline)).takeWhile (fun x => x.token ≠ .eof),
      P x.span := fun x mem => kept x ((List.takeWhile_prefix _).subset mem)
  unfold Cursor.ofLexemes
  dsimp only
  split
  · rename_i none
    obtain ⟨x, mem, eof⟩ := closed
    have all := List.dropWhile_eq_nil_iff.1 none x
      (List.mem_filter.2 ⟨mem, decide_eq_true (by rw [eof]; exact nofun)⟩)
    exact absurd eof (of_decide_eq_true all)
  · rename_i stop rest some
    have mem : stop ∈ stop :: rest := List.mem_cons_self
    rw [← some] at mem
    exact ⟨ahead, kept stop ((List.dropWhile_suffix _).subset mem), List.forall_mem_nil _⟩

/-- What holds of the spans of all lexemes holds of all spans of the program that they are, or of
those of all faults. -/
theorem spans_ofLexemes (join : ClosedUnderUpTo P) {xs : List Lexeme}
    (h : ∀ x ∈ xs, x.token ≠ .newline → P x.span) (closed : ∃ x ∈ xs, x.token = .eof) :
    match Program.ofLexemes xs with
    | .ok p => ∀ s ∈ p.spans, P s
    | .error faults => ∀ f ∈ faults, P f.span := by
  have read := Reading.matches_program (matching_within P) join maxNesting false _ _
    ⟨within_ofLexemes h closed, rfl⟩
  rcases eq : program maxNesting false (Cursor.ofLexemes xs) with ⟨fault | p, c⟩
  · rw [eq] at read
    rw [ofLexemes_of_error eq]
    exact (read.rel.1.report (read.blamed fault rfl)).faults
  · rw [eq] at read
    rw [ofLexemes_of_ok eq]
    by_cases none : c.faults = []
    · rw [if_pos none]
      exact read.post p rfl
    · rw [if_neg none]
      exact read.rel.1.faults

end GujaratiScript
