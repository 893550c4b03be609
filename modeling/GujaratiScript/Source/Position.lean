/-!
# Places in a source text

* `Mark` : the place of one character, as byte offset, line and column;
* `Mark.advance` : the place after a piece of text;
* `Span` : a byte range together with the line and column of its first character.

The offset of a mark grows by the size of each character in UTF-8 (`offset_advance`), and passing a
text piece by piece is passing it at once (`advance_append`).

Lines, columns and the ends of spans are kept in 32 bits. Counting beyond the largest of these
numbers begins at zero again, and of an offset that does not fit only the lower bits are kept. So
they are right for texts below 4 GiB, and no further.
-/

namespace GujaratiScript

/-! ## Numbers in 32 bits -/

/-- What is kept of a number in 32 bits. -/
instance coeOfNat32 : Coe Nat UInt32 := ⟨UInt32.ofNat⟩

/-- The number that is kept. -/
instance coeToNat32 : Coe UInt32 Nat := ⟨UInt32.toNat⟩

/-! ## Marks -/

/-- The place of a character: its byte offset in UTF-8, and its line and column, both from one. -/
structure Mark where
  offset : Nat
  line : UInt32
  col : UInt32
  deriving DecidableEq, Repr, Inhabited

/-- The number of bytes a text takes in UTF-8. -/
def byteLength (cs : List Char) : Nat :=
  cs.foldl (fun n c => n + c.utf8Size) 0

namespace Mark

/-- The place of the first character of a text. -/
def origin : Mark := ⟨0, 1, 1⟩

/-- The place after one character; a line break starts the next line. -/
def next (m : Mark) (c : Char) : Mark :=
  if c = '\n' then ⟨m.offset + c.utf8Size, m.line + 1, 1⟩
  else ⟨m.offset + c.utf8Size, m.line, m.col + 1⟩

/-- The place after a piece of text. -/
def advance (m : Mark) (cs : List Char) : Mark :=
  cs.foldl next m

@[simp] theorem advance_nil (m : Mark) : m.advance [] = m := rfl

@[simp] theorem advance_cons (m : Mark) (c : Char) (cs : List Char) :
    m.advance (c :: cs) = (m.next c).advance cs := rfl

/-- Passing one text and then another is passing both at once. -/
theorem advance_append (m : Mark) (cs ds : List Char) :
    m.advance (cs ++ ds) = (m.advance cs).advance ds := by
  simp [advance, List.foldl_append]

/-- Each character moves the offset by its size. -/
theorem offset_next (m : Mark) (c : Char) : (m.next c).offset = m.offset + c.utf8Size := by
  unfold next
  split <;> rfl

end Mark

/-- The size of a text is the size of its first character and that of the others. -/
theorem byteLength_cons (c : Char) (cs : List Char) :
    byteLength (c :: cs) = c.utf8Size + byteLength cs := by
  have shift : ∀ (ds : List Char) (n : Nat),
      ds.foldl (fun n c => n + c.utf8Size) n = n + ds.foldl (fun n c => n + c.utf8Size) 0 := by
    intro ds
    induction ds with
    | nil => simp
    | cons d ds ih =>
      intro n
      simp only [List.foldl_cons]
      rw [ih (n + d.utf8Size), ih (0 + d.utf8Size)]
      omega
  simp only [byteLength, List.foldl_cons]
  rw [shift]
  omega

/-- A piece of text moves the offset by its size in bytes. -/
theorem Mark.offset_advance (m : Mark) (cs : List Char) :
    (m.advance cs).offset = m.offset + byteLength cs := by
  induction cs generalizing m with
  | nil => rfl
  | cons c cs ih =>
    rw [advance_cons, ih, offset_next, byteLength_cons]
    omega

/-! ## Spans -/

/-- A byte range, with the line and column of its first character. -/
structure Span where
  start : UInt32
  stop : UInt32
  line : UInt32
  col : UInt32
  deriving DecidableEq, Repr, Inhabited

namespace Span

/-- The empty span before any text. -/
def nowhere : Span := ⟨0, 0, 0, 0⟩

/-- The span of the text passed between two marks. -/
def between (m n : Mark) : Span := ⟨m.offset, n.offset, m.line, m.col⟩

/-- The span that starts with `s` and reaches to the end of `t`, or of `s` if that is later. -/
def upTo (s t : Span) : Span := ⟨s.start, max t.stop s.stop, s.line, s.col⟩

/-- A span is named by its line and column. -/
def text (s : Span) : String := toString s.line ++ ":" ++ toString s.col

/-- Nothing is added by a span that ends no later. -/
theorem upTo_of_le {s t : Span} (h : t.stop ≤ s.stop) : s.upTo t = s :=
  congrArg (Span.mk s.start · s.line s.col) (if_pos h)

/-- A span that ends later is where the joined one ends. -/
theorem upTo_of_lt {s t : Span} (h : s.stop < t.stop) :
    s.upTo t = ⟨s.start, t.stop, s.line, s.col⟩ :=
  congrArg (Span.mk s.start · s.line s.col) (if_neg (UInt32.not_le.2 h))

/-- Both spans end no later than the joined one. -/
theorem stop_le_upTo (s t : Span) : s.stop ≤ (s.upTo t).stop := by
  by_cases h : t.stop ≤ s.stop
  · rw [upTo_of_le h]
    exact UInt32.le_refl _
  · rw [upTo_of_lt (UInt32.not_le.1 h)]
    exact UInt32.le_of_lt (UInt32.not_le.1 h)

theorem le_stop_upTo (s t : Span) : t.stop ≤ (s.upTo t).stop := by
  by_cases h : t.stop ≤ s.stop
  · rw [upTo_of_le h]
    exact h
  · rw [upTo_of_lt (UInt32.not_le.1 h)]
    exact UInt32.le_refl _

end Span

end GujaratiScript
