import GujaratiScript.Proofs.Reading.Advance

/-!
# What a reading ensures

* `Cursor.Takes` : the lexemes that a reading has taken;
* `Reading.Ensures` : what holds of the result of a reader, and of the cursor after it, whenever it
  gives one; a rule for each basic reader and one for readers in sequence.
-/

namespace GujaratiScript

/-! ## The lexemes taken -/

namespace Cursor

/-- Reading has led from `c` to `d` over the lexemes `w`. -/
structure Takes (c : Cursor) (w : List Lexeme) (d : Cursor) : Prop where
  ahead : c.ahead = w ++ d.ahead
  endMark : d.endMark = c.endMark

/-- To take nothing is to stay. -/
theorem Takes.nil (c : Cursor) : c.Takes [] c := ⟨rfl, rfl⟩

/-- What is taken in two parts is taken as a whole. -/
theorem Takes.append {c d e : Cursor} {u v : List Lexeme} (h : c.Takes u d) (h' : d.Takes v e) :
    c.Takes (u ++ v) e :=
  ⟨by rw [h.ahead, h'.ahead, List.append_assoc], h'.endMark.trans h.endMark⟩

/-- A lexeme taken, and then the rest. -/
theorem Takes.cons {c d e : Cursor} {x : Lexeme} {v : List Lexeme} (h : c.Takes [x] d)
    (h' : d.Takes v e) : c.Takes (x :: v) e := h.append h'

/-- A cursor whose end mark is one. -/
def Closed (c : Cursor) : Prop := c.endMark.token = .eof

/-- The end mark is still the last lexeme after some have been taken. -/
theorem Takes.closed {c d : Cursor} {w : List Lexeme} (h : c.Takes w d) (hc : c.Closed) :
    d.Closed := by
  unfold Closed
  rw [h.endMark]
  exact hc

/-- Stepping takes the current lexeme unless it is the end mark. -/
theorem Closed.takes_step {c : Cursor} (hc : c.Closed) (h : c.current.token ≠ .eof) :
    c.Takes [c.current] c.step := by
  rcases c with ⟨_ | ⟨x, v⟩, m, fs⟩
  · exact absurd hc h
  · exact ⟨rfl, rfl⟩

end Cursor

/-! ## Conditions on results -/

namespace Reading

variable {α β : Type} {c : Cursor}

/-- Whenever `r` gives a result from `c`, the condition holds of it and of the cursor after it. -/
def Ensures (c : Cursor) (r : Reading α) (post : α → Cursor → Prop) : Prop :=
  ∀ a d, r c = (.ok a, d) → post a d

/-- Readers in sequence: what the first one ensures is what the second may use. -/
theorem Ensures.bind {x : Reading α} {f : α → Reading β} {mid : α → Cursor → Prop}
    {post : β → Cursor → Prop} (hx : Ensures c x mid)
    (hf : ∀ a d, mid a d → Ensures d (f a) post) : Ensures c (x >>= f) post := by
  intro b e h
  obtain ⟨a, d, hd, he⟩ := bind_eq_ok_iff.1 h
  exact hf a d (hx a d hd) b e he

/-- A reader that reads nothing ensures what holds already. -/
theorem ensures_pure {a : α} {post : α → Cursor → Prop} (h : post a c) :
    Ensures c (pure a) post := by
  intro b d eq
  cases eq
  exact h

/-- A reader that fails ensures anything of its results: it has none. -/
theorem ensures_fail (cause : ParseCause) (span : Span) (post : α → Cursor → Prop) :
    Ensures c (fail cause span) post := nofun

/-- A look gives the current lexeme. -/
theorem ensures_peek : Ensures c peek fun x d => x = c.current ∧ d = c := by
  intro x d h
  cases h
  exact ⟨rfl, rfl⟩

/-- Taking gives the current lexeme and steps over it. -/
theorem ensures_take : Ensures c take fun x d => x = c.current ∧ d = c.step := by
  intro x d h
  cases h
  exact ⟨rfl, rfl⟩

/-- Passing over a lexeme steps over it. -/
theorem ensures_step : Ensures c step fun _ d => d = c.step := by
  intro x d h
  cases h
  rfl

/-- A look for a token says whether it is the current one. -/
theorem ensures_at? (t : Token) :
    Ensures c (at? t) fun b d => b = (c.current.token == t) ∧ d = c := by
  intro b d h
  cases h
  exact ⟨rfl, rfl⟩

/-- A token that is expected, if it is found, is the one lexeme taken. -/
theorem ensures_expect (hc : c.Closed) {t : Token} (ht : t ≠ .eof) (after : String) :
    Ensures c (expect t after) fun x d => x.token = t ∧ c.Takes [x] d := by
  refine ensures_peek.bind ?_
  rintro x d ⟨rfl, rfl⟩
  split
  · rename_i eq
    have eq := beq_iff_eq.1 eq
    rintro x e h
    cases h
    exact ⟨eq, hc.takes_step (eq ▸ ht)⟩
  · exact ensures_fail _ _ _

/-- A name that is expected, if it is found, is the one lexeme taken. -/
theorem ensures_expectName (hc : c.Closed) :
    Ensures c expectName fun ident d =>
      ∃ x : Lexeme, x.token = .ident ident.name ∧ x.span = ident.span ∧ c.Takes [x] d := by
  refine ensures_peek.bind ?_
  rintro x d ⟨rfl, rfl⟩
  split
  · rename_i name eq
    rintro ident e h
    cases h
    exact ⟨_, eq, rfl, hc.takes_step (by simp [eq])⟩
  · exact ensures_fail _ _ _

/-! ## Conditions on readings without fault -/

/-- Whenever `r` gives a result from `c` and meets no fault, the condition holds. -/
def Clean (c : Cursor) (r : Reading α) (post : α → Cursor → Prop) : Prop :=
  ∀ a d, r c = (.ok a, d) → d.faults = c.faults → post a d

/-- What holds after every reading holds after those without a fault. -/
theorem Ensures.clean {r : Reading α} {post : α → Cursor → Prop} (h : Ensures c r post) :
    Clean c r post :=
  fun a d eq _ => h a d eq

/-- No fault in a sequence is no fault in either part, since faults are never forgotten. -/
theorem Clean.bind {x : Reading α} {f : α → Reading β} {mid : α → Cursor → Prop}
    {post : β → Cursor → Prop} (hx : Clean c x mid) (ax : x.Advances) (af : ∀ a, (f a).Advances)
    (hf : ∀ a d, mid a d → Clean d (f a) post) : Clean c (x >>= f) post := by
  intro b e h faults
  obtain ⟨a, d, hd, he⟩ := bind_eq_ok_iff.1 h
  have first := ax c
  have second := af a d
  rw [hd] at first
  rw [he] at second
  -- the faults at both ends are the same, so those between are too
  have same := first.faults_eq second faults
  exact hf a d (hx a d hd same) b e he (faults.trans same.symm)

/-- Looking at the current lexeme changes nothing. -/
theorem Clean.peek_bind {f : Lexeme → Reading β} {post : β → Cursor → Prop}
    (h : Clean c (f c.current) post) : Clean c (peek >>= f) post := by
  intro b d eq
  obtain ⟨x, c', hp, eq⟩ := bind_eq_ok_iff.1 eq
  cases hp
  exact h b d eq

end Reading

end GujaratiScript
