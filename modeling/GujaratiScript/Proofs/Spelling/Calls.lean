import GujaratiScript.Proofs.Spelling.Places

/-!
# Calls of a lexer in any order

A cursor over a text can be asked for the next item, which it refuses once the lexemes have come to
an end, or for the next lexeme, which it always reads. The two may be mixed as one likes, also
behind a fault and behind the end mark.

* `Lexer.Passes` : the characters that a cursor has passed on its way to another;
* `Lexer.passes_call` : what one call passes;
* `Lexer.finished_call_iff` : the answers after which no item follows;
* `Lexer.exists_drained` : how many items are left;
* `orderly` : what holds after any calls.
-/

namespace GujaratiScript

/-- What a cursor may be asked for. -/
inductive Call where
  /-- The next item: a lexeme or a fault, and nothing once either the end mark or a fault was one. -/
  | item
  /-- The next lexeme, whatever was read before. -/
  | lexeme

namespace Lexer

/-! ## What is passed -/

/-- On its way from `l` to `l'` the cursor has passed the characters `passed`, and its mark has
moved over them. -/
structure Passes (l : Lexer) (passed : List Char) (l' : Lexer) : Prop where
  rest : l.rest = passed ++ l'.rest
  mark : l'.mark = l.mark.advance passed

theorem Passes.refl (l : Lexer) : l.Passes [] l := ⟨rfl, rfl⟩

/-- The cursor of a text is where the characters that it has passed have taken it. -/
theorem Passes.on {l l' : Lexer} {passed : List Char} {text : String} (h : l.Passes passed l')
    (hl : l.On text) : l'.On text := by
  obtain ⟨before, cut, mark⟩ := hl
  refine ⟨before ++ passed, ?_, ?_⟩
  · rw [cut, h.rest, List.append_assoc]
  · rw [h.mark, mark, Mark.advance_append]

/-- A lexeme or a fault passes characters, and a lexeme other than the end mark at least one. -/
theorem passes_nextLexeme (l : Lexer) :
    ∃ passed, l.Passes passed l.nextLexeme.2 ∧
      ∀ x, l.nextLexeme.1 = .ok x → x.token ≠ .eof → passed ≠ [] := by
  have parts : l.rest.takeWhile isBlank ++ l.rest.dropWhile isBlank = l.rest :=
    List.takeWhile_append_dropWhile
  unfold nextLexeme
  split
  · rename_i none
    rw [none] at parts
    refine ⟨_, ⟨parts.symm, rfl⟩, ?_⟩
    intro x eq ne
    cases eq
    exact absurd rfl ne
  · rename_i c cs some
    rw [some] at parts
    have fault := placed_scan c cs
    split
    · rename_i t text rest found
      obtain ⟨-, nonempty, eq⟩ := scan_append found
      refine ⟨l.rest.takeWhile isBlank ++ text, ⟨?_, (Mark.advance_append _ _ _).symm⟩, ?_⟩
      · rw [List.append_assoc, ← eq, parts]
      · intro x _ _ none
        exact nonempty (List.append_eq_nil_iff.1 none).2
    · rename_i cause before extent passed rest found
      rw [found] at fault
      refine ⟨l.rest.takeWhile isBlank ++ passed, ⟨?_, (Mark.advance_append _ _ _).symm⟩, ?_⟩
      · rw [List.append_assoc, ← fault.1, parts]
      · intro x eq
        cases eq

/-- At the end of the text there is nothing but the end mark. -/
theorem nextLexeme_of_rest_eq_nil {l : Lexer} (h : l.rest = []) :
    l.nextLexeme = (.ok ⟨.eof, "", .between l.mark l.mark⟩, ⟨[], l.mark, true⟩) := by
  obtain ⟨rest, mark, finished⟩ := l
  cases h
  rfl

/-! ## Calls -/

/-- The answer to a call, and the cursor after it. -/
def call (l : Lexer) : Call → Option (Except LexFault Lexeme) × Lexer
  | .item => l.next?
  | .lexeme => (some l.nextLexeme.1, l.nextLexeme.2)

/-- The cursor after some calls in turn. -/
def after (l : Lexer) (calls : List Call) : Lexer :=
  calls.foldl (fun l call => (l.call call).2) l

theorem after_append (l : Lexer) (calls later : List Call) :
    l.after (calls ++ later) = (l.after calls).after later :=
  List.foldl_append

/-- There is no item for a cursor that is finished. -/
theorem next?_of_finished {l : Lexer} (h : l.finished = true) : l.next? = (none, l) := by
  rw [next?, if_pos h]

/-- Otherwise the next lexeme is the item, and a fault finishes the cursor. -/
theorem next?_of_not_finished {l : Lexer} (h : ¬ l.finished = true) :
    l.next?.1 = some l.nextLexeme.1 ∧ l.next?.2.rest = l.nextLexeme.2.rest ∧
      l.next?.2.mark = l.nextLexeme.2.mark := by
  rw [next?, if_neg h]
  rcases eq : l.nextLexeme with ⟨fault | x, l'⟩
  · exact ⟨rfl, rfl, rfl⟩
  · exact ⟨rfl, rfl, rfl⟩

/-- No call takes the cursor back, and a call that is answered by a lexeme other than the end mark
takes it at least one character further. -/
theorem passes_call (l : Lexer) (call : Call) :
    ∃ passed, l.Passes passed (l.call call).2 ∧
      ∀ x, (l.call call).1 = some (.ok x) → x.token ≠ .eof → passed ≠ [] := by
  obtain ⟨passed, passes, some⟩ := l.passes_nextLexeme
  cases call with
  | lexeme =>
    refine ⟨passed, passes, ?_⟩
    intro x eq
    exact some x (Option.some.inj eq)
  | item =>
    show ∃ passed, l.Passes passed l.next?.2 ∧ ∀ x, l.next?.1 = _ → _
    by_cases finished : l.finished = true
    · rw [next?_of_finished finished]
      refine ⟨[], .refl l, ?_⟩
      intro x eq
      cases eq
    · obtain ⟨answer, rest, mark⟩ := next?_of_not_finished finished
      refine ⟨passed, ⟨?_, ?_⟩, ?_⟩
      · rw [rest, passes.rest]
      · rw [mark, passes.mark]
      · intro x eq
        rw [answer] at eq
        exact some x (Option.some.inj eq)

/-- After any calls the mark is that of the characters which are passed. -/
theorem on_after {l : Lexer} {text : String} (h : l.On text) (calls : List Call) :
    (l.after calls).On text := by
  induction calls generalizing l with
  | nil => exact h
  | cons call calls ih =>
    obtain ⟨passed, passes, -⟩ := l.passes_call call
    exact ih (passes.on h)

/-! ## The end of the items -/

/-- An answer after which there are no more items: a fault that is an item, or the end mark. -/
inductive Final : Call → Option (Except LexFault Lexeme) → Prop
  | fault (fault : LexFault) : Final .item (some (.error fault))
  | endMark {call : Call} {x : Lexeme} : x.token = .eof → Final call (some (.ok x))

/-- Reading a lexeme finishes the cursor at the end mark only. -/
theorem finished_nextLexeme_iff (l : Lexer) :
    l.nextLexeme.2.finished = true ↔
      l.finished = true ∨ ∃ x, l.nextLexeme.1 = .ok x ∧ x.token = .eof := by
  unfold nextLexeme
  split
  · constructor
    · intro _
      exact .inr ⟨_, rfl, rfl⟩
    · intro _
      rfl
  · split
    · rename_i found
      constructor
      · intro finished
        exact .inl finished
      · rintro (finished | ⟨x, eq, eof⟩)
        · exact finished
        · cases eq
          exact absurd eof (scan_append found).1
    · constructor
      · intro finished
        exact .inl finished
      · rintro (finished | ⟨x, eq, -⟩)
        · exact finished
        · cases eq

/-- A call finishes the cursor if its answer is final. -/
theorem finished_call_iff (l : Lexer) (call : Call) :
    (l.call call).2.finished = true ↔ l.finished = true ∨ Final call (l.call call).1 := by
  cases call with
  | lexeme =>
    show l.nextLexeme.2.finished = true ↔ _ ∨ Final .lexeme (some l.nextLexeme.1)
    rw [finished_nextLexeme_iff]
    refine or_congr_right ⟨?_, ?_⟩
    · rintro ⟨x, eq, eof⟩
      rw [eq]
      exact .endMark eof
    · intro final
      rcases eq : l.nextLexeme.1 with fault | x
      · rw [eq] at final
        cases final
      · rw [eq] at final
        cases final with
        | endMark eof => exact ⟨x, rfl, eof⟩
  | item =>
    show l.next?.2.finished = true ↔ _ ∨ Final .item l.next?.1
    by_cases finished : l.finished = true
    · rw [next?_of_finished finished]
      simp only [finished, true_or]
    · have read := l.finished_nextLexeme_iff
      rw [next?, if_neg finished]
      rcases eq : l.nextLexeme with ⟨fault | x, l'⟩
      · exact iff_of_true rfl (.inr (.fault fault))
      · rw [eq] at read
        refine read.trans (or_congr_right ⟨?_, ?_⟩)
        · rintro ⟨y, same, eof⟩
          cases same
          exact .endMark eof
        · intro final
          cases final with
          | endMark eof => exact ⟨x, rfl, eof⟩

/-- The calls have finished the cursor if one of their answers was final. -/
theorem finished_after_iff (l : Lexer) (calls : List Call) :
    (l.after calls).finished = true ↔
      l.finished = true ∨ ∃ before call later, calls = before ++ call :: later ∧
        Final call ((l.after before).call call).1 := by
  -- the last of the calls is the one that finishes, or the cursor was finished before it
  induction calls using List.reverseRecOn with
  | nil => simp [after]
  | append_singleton calls call ih =>
    have last : (l.after (calls ++ [call])).finished = true ↔
        (l.after calls).finished = true ∨ Final call ((l.after calls).call call).1 := by
      rw [after_append]
      exact (l.after calls).finished_call_iff call
    rw [last, ih, or_assoc]
    refine or_congr_right ⟨?_, ?_⟩
    · rintro (⟨before, call', later, rfl, final⟩ | final)
      · exact ⟨before, call', later ++ [call], by simp, final⟩
      · exact ⟨calls, call, [], rfl, final⟩
    · rintro ⟨before, call', later, eq, final⟩
      rcases later.eq_nil_or_concat with rfl | ⟨later, other, rfl⟩
      · obtain ⟨rfl, same⟩ := List.append_inj' eq rfl
        cases same
        exact .inr final
      · have cut : calls ++ [call] = (before ++ call' :: later) ++ [other] := by
          rw [eq, List.concat_eq_append, List.append_assoc, List.cons_append]
        obtain ⟨rfl, -⟩ := List.append_inj' cut rfl
        exact .inl ⟨before, call', later, rfl, final⟩

/-- Asking for items again and again gives some, at most one more than characters are left, and then
never one again. -/
theorem exists_drained (l : Lexer) :
    ∃ k ≤ l.rest.length + 1,
      ∀ n, (l.after (List.replicate n .item)).next?.1.isSome = true ↔ n < k := by
  -- each item but the last takes at least one character
  induction size : l.rest.length using Nat.strong_induction_on generalizing l with
  | _ m ih =>
    have same : ∀ {l : Lexer}, l.finished = true → ∀ n,
        (l.after (List.replicate n .item)).next? = (none, l) := by
      intro l finished n
      induction n with
      | zero => exact next?_of_finished finished
      | succ n ihn =>
        rw [List.replicate_succ]
        show (l.next?.2.after (List.replicate n .item)).next? = _
        rw [next?_of_finished finished]
        exact ihn
    by_cases finished : l.finished = true
    · refine ⟨0, Nat.zero_le _, ?_⟩
      intro n
      rw [same finished]
      simp
    · obtain ⟨answer, rest, -⟩ := next?_of_not_finished finished
      have more : ∀ k, (∀ n, (l.next?.2.after (List.replicate n .item)).next?.1.isSome = true ↔
          n < k) → ∀ n, (l.after (List.replicate n .item)).next?.1.isSome = true ↔ n < k + 1 := by
        intro k count n
        cases n with
        | zero =>
          show l.next?.1.isSome = true ↔ _
          rw [answer]
          simp
        | succ n =>
          rw [Nat.succ_lt_succ_iff]
          exact count n
      by_cases last : l.next?.2.finished = true
      · refine ⟨0 + 1, by omega, more 0 ?_⟩
        intro n
        rw [same last]
        simp
      · have shorter : l.next?.2.rest.length < m := by
          have unfinished : ¬ Final .item l.next?.1 := by
            intro final
            exact last ((l.finished_call_iff .item).2 (.inr final))
          rw [answer] at unfinished
          rcases eq : l.nextLexeme with ⟨fault | x, l'⟩
          · rw [eq] at unfinished
            exact absurd (.fault fault) unfinished
          · rw [eq] at unfinished
            have ne : x.token ≠ .eof := fun eof => unfinished (.endMark eof)
            rw [rest, eq, ← size]
            exact length_rest_nextLexeme eq ne
        obtain ⟨k, le, count⟩ := ih _ shorter l.next?.2 rfl
        exact ⟨k + 1, by omega, more k count⟩

end Lexer

/-! ## Any calls -/

open Lexer

/-- The cursor `l`, which some calls have led to, is in order: it stands in the text where its mark
says, the next call does not take it back, and its items end. -/
structure Orderly (text : String) (calls : List Call) (l : Lexer) : Prop where
  /-- The cursor is between two characters, and line and column are those of what is passed. -/
  place : (Span.between l.mark l.mark).Located text
  /-- What is left is all of the text behind that place. -/
  left : slice text l.mark.offset text.utf8ByteSize = .ofList l.rest
  /-- A call passes some of the characters that are left, and at least one if it is answered by a
  lexeme other than the end mark. -/
  forward : ∀ call, ∃ passed, l.Passes passed (l.call call).2 ∧
    ∀ x, (l.call call).1 = some (.ok x) → x.token ≠ .eof → passed ≠ []
  /-- At the end of the text, every lexeme is the end mark, which stands there. -/
  atEnd : l.rest = [] →
    l.nextLexeme = (.ok ⟨.eof, "", .between l.mark l.mark⟩, ⟨[], l.mark, true⟩)
  /-- There is no item if and only if the answer to one of the calls was final. -/
  silent : l.next? = (none, l) ↔ ∃ before call later, calls = before ++ call :: later ∧
    Final call (((ofText text).after before).call call).1
  /-- There are at most as many items as characters are left, and one. -/
  drained : ∃ k ≤ l.rest.length + 1,
    ∀ n, (l.after (List.replicate n .item)).next?.1.isSome = true ↔ n < k

/-- Whatever a cursor over a text is asked for, it is in order, if a line and a column more than the
text has bytes fit into 32 bits. -/
theorem orderly (text : String) (small : text.utf8ByteSize < 2 ^ 32 - 1) (calls : List Call) :
    Orderly text calls ((ofText text).after calls) := by
  obtain ⟨before, cut, mark⟩ := on_after (on_ofText text) calls
  have silent := (ofText text).finished_after_iff calls
  generalize (ofText text).after calls = l at *
  constructor
  case place =>
    have covers : (Span.between l.mark (l.mark.advance [])).Covers text before [] l.rest :=
      .between mark (by rw [cut, List.append_nil])
    exact covers.located small
  case left =>
    have whole : text.toList = before ++ l.rest ++ [] := by rw [cut, List.append_nil]
    rw [mark, Mark.advance_origin, ← byteLength_toList, cut]
    exact slice_of_append whole
  case forward => exact l.passes_call
  case atEnd => exact nextLexeme_of_rest_eq_nil
  case silent =>
    have fresh : ¬ (ofText text).finished = true := Bool.false_ne_true
    rw [or_iff_right fresh] at silent
    rw [← silent]
    constructor
    · intro none
      by_contra finished
      have answer := (next?_of_not_finished finished).1
      rw [none] at answer
      cases answer
    · exact next?_of_finished
  case drained => exact l.exists_drained

/-- Any calls at all over a text of one line. -/
theorem orderly_line : "a che 1".utf8ByteSize < 2 ^ 32 - 1 ∧
    Orderly "a che 1" [.item, .lexeme, .item, .lexeme, .item]
      ((ofText "a che 1").after [.item, .lexeme, .item, .lexeme, .item]) :=
  ⟨by decide, orderly _ (by decide) _⟩

/-- With one blank less than `2 ^ 32` passed, the cursor is said to be in column zero. -/
theorem orderly_too_wide : (blanks (2 ^ 32 - 1)).utf8ByteSize < 2 ^ 32 ∧
    ¬ Orderly (blanks (2 ^ 32 - 1)) [.lexeme] ((ofText (blanks (2 ^ 32 - 1))).after [.lexeme]) := by
  have passed : ∀ n, ((ofText (blanks n)).after [.lexeme]).mark =
      Mark.origin.advance (List.replicate n ' ') := by
    intro n
    have next := nextLexeme_gap (isBlank_of_mem_replicate (n := n)) [] .origin false
    rw [List.append_nil, ← toList_blanks] at next
    show (ofText (blanks n)).nextLexeme.2.mark = _
    rw [ofText, next, toList_blanks]
    rfl
  refine ⟨by rw [utf8ByteSize_blanks]; decide, fun ordered => ?_⟩
  exact Span.not_located_of_wide (passed _) ordered.place

end GujaratiScript
