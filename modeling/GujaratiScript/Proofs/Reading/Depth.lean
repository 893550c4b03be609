import GujaratiScript.Proofs.Reading.Advance

/-!
# Outcomes that depend on the levels of nesting alone

A reader that meets what it is for can fail for one reason only: it runs out of levels.

* `TooDeep` : an outcome that reports so, now or earlier;
* `YieldsIff p out want` : `out` is `want` if `p` holds, and reports too deep nesting if not;
* `YieldsIff.bind` : readers in sequence, each with its own condition.

The equations of the basic readers at a cursor with lexemes ahead stand here as well.
-/

namespace GujaratiScript.Reading

variable {α β : Type}

/-! ## Outcomes -/

/-- An outcome that reports too deep nesting: as its fault, or as one of the faults met. -/
def TooDeep (out : Except ParseFault α × Cursor) : Prop :=
  (∃ span, out.1 = .error ⟨.nestingTooDeep maxNesting, span⟩) ∨
    ∃ fault ∈ out.2.faults, fault.cause = .nestingTooDeep maxNesting

/-- The outcome is `want` if `p` holds, and reports too deep nesting if not. -/
structure YieldsIff (p : Prop) (out want : Except ParseFault α × Cursor) : Prop where
  eq_of : p → out = want
  tooDeep_of : ¬ p → TooDeep out

/-- A fault of the first reader, or one it met, is not lost by the second. -/
theorem TooDeep.bind {x : Reading α} {f : α → Reading β} {c : Cursor} (h : TooDeep (x c))
    (hf : ∀ a, (f a).Advances) : TooDeep ((x >>= f) c) := by
  rw [bind_apply]
  rcases eq : x c with ⟨fault | a, d⟩
  · rw [eq] at h
    rcases h with ⟨span, h⟩ | h
    · exact .inl ⟨span, by cases h; rfl⟩
    · exact .inr h
  · rw [eq] at h
    rcases h with ⟨span, h⟩ | ⟨fault, mem, h⟩
    · cases h
    · exact .inr ⟨fault, (hf a d).faults.subset mem, h⟩

namespace YieldsIff

variable {p q : Prop} {out mid want : Except ParseFault α × Cursor}

/-- With enough levels the outcome is as wanted. -/
theorem of_eq (hp : p) (h : out = want) : YieldsIff p out want :=
  ⟨fun _ => h, fun no => absurd hp no⟩

/-- Without enough levels the outcome reports too deep nesting. -/
theorem of_tooDeep (hp : ¬ p) (h : TooDeep out) : YieldsIff p out want :=
  ⟨fun yes => absurd yes hp, fun _ => h⟩

/-- The condition may be put in another way. -/
theorem congr (h : YieldsIff p out want) (iff : p ↔ q) : YieldsIff q out want :=
  ⟨fun hq => h.eq_of (iff.2 hq), fun hq => h.tooDeep_of fun hp => hq (iff.1 hp)⟩

/-- Two outcomes in turn, each with its own condition. -/
theorem trans (h : YieldsIff p out mid) (h' : YieldsIff q mid want) :
    YieldsIff (p ∧ q) out want := by
  constructor
  · rintro ⟨hp, hq⟩
    exact (h.eq_of hp).trans (h'.eq_of hq)
  · intro no
    by_cases hp : p
    · rw [h.eq_of hp]
      exact h'.tooDeep_of fun hq => no ⟨hp, hq⟩
    · exact h.tooDeep_of hp

/-- Readers in sequence yield if both do. -/
theorem bind {x : Reading α} {f : α → Reading β} {c d : Cursor} {a : α}
    {want : Except ParseFault β × Cursor} (hx : YieldsIff p (x c) (.ok a, d))
    (hf : YieldsIff q (f a d) want) (adv : ∀ a, (f a).Advances) :
    YieldsIff (p ∧ q) ((x >>= f) c) want := by
  constructor
  · rintro ⟨hp, hq⟩
    rw [bind_apply, hx.eq_of hp]
    exact hf.eq_of hq
  · intro no
    by_cases hp : p
    · rw [bind_apply, hx.eq_of hp]
      exact hf.tooDeep_of fun hq => no ⟨hp, hq⟩
    · exact (hx.tooDeep_of hp).bind adv

/-- If the second reader cannot fail, it is the first that decides. -/
theorem bind_eq {x : Reading α} {f : α → Reading β} {c d : Cursor} {a : α}
    {want : Except ParseFault β × Cursor} (hx : YieldsIff p (x c) (.ok a, d))
    (hf : f a d = want) (adv : ∀ a, (f a).Advances) : YieldsIff p ((x >>= f) c) want :=
  (hx.bind (of_eq trivial hf) adv).congr (and_iff_left trivial)

/-- A reader whose result is only wrapped up yields if it does. -/
theorem bind_pure {x : Reading α} {g : α → β} {c d : Cursor} {a : α}
    (hx : YieldsIff p (x c) (.ok a, d)) :
    YieldsIff p ((x >>= fun a => pure (g a)) c) (.ok (g a), d) :=
  hx.bind_eq rfl fun _ => advances_pure _

end YieldsIff

/-! ## Basic readers at a lexeme -/

variable (x : Lexeme) (w : List Lexeme) (m : Lexeme) (fs : List ParseFault)

/-- A look at a lexeme ahead. -/
theorem peek_cons : peek (Cursor.mk (x :: w) m fs) = (.ok x, ⟨x :: w, m, fs⟩) := rfl

/-- A lexeme ahead is taken. -/
theorem take_cons : take (Cursor.mk (x :: w) m fs) = (.ok x, ⟨w, m, fs⟩) := rfl

/-- A lexeme ahead is passed over. -/
theorem step_cons : step (Cursor.mk (x :: w) m fs) = (.ok (), ⟨w, m, fs⟩) := rfl

/-- A look for a token at a lexeme ahead. -/
theorem at?_cons (t : Token) :
    at? t (Cursor.mk (x :: w) m fs) = (.ok (x.token == t), ⟨x :: w, m, fs⟩) := rfl

variable {x}

/-- A token that is expected and there is passed over. -/
theorem expect_cons {t : Token} (h : x.token = t) (after : String) :
    expect t after (Cursor.mk (x :: w) m fs) = (.ok x, ⟨w, m, fs⟩) := by
  unfold expect
  rw [bind_eq_of_eq_ok (peek_cons x w m fs), if_pos (beq_iff_eq.2 h)]
  rfl

/-- A name that is expected and there is read. -/
theorem expectName_cons {name : String} (h : x.token = .ident name) :
    expectName (Cursor.mk (x :: w) m fs) = (.ok ⟨name, x.span⟩, ⟨w, m, fs⟩) := by
  unfold expectName
  rw [bind_eq_of_eq_ok (peek_cons x w m fs)]
  simp only [h]
  rfl

end GujaratiScript.Reading

namespace GujaratiScript

/-! ## Sequences of statements -/

section

variable {ends : Token → Bool} {r : Reading Stmt} {c d : Cursor}

/-- A sequence that has to stop takes nothing. -/
theorem sequence_of_stop (h : ends c.current.token = true) : sequence ends r c = (.ok [], c) := by
  unfold sequence
  rw [statements_eq, if_pos h]
  rfl

/-- A sequence whose first statement is skipped ends where the others end. -/
theorem snd_sequence_of_attempt (goes : ends c.current.token = false)
    (skipped : attempt r c = (none, d)) (took : d.ahead.length < c.ahead.length) :
    (sequence ends r c).2 = (sequence ends r d).2 := by
  unfold sequence
  rw [statements_eq, if_neg (Bool.eq_false_iff.1 goes), skipped]
  dsimp only
  rw [if_pos took]
  rfl

end

end GujaratiScript
