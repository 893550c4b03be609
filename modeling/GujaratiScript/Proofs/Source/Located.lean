import Mathlib.Data.List.DropRight
import GujaratiScript.Proofs.Spelling.Extent

/-!
# Spans that say where they are

A span names a byte range and, beside it, the line and the column of its first character. These two
are counted while the text is read, so they are right only if nothing was missed on the way.

* `Span.Located` : the range lies in the text, and line and column are those of its beginning;
* `Span.Covers` : the span is the one between two marks of the text, which is why it is located;
* `Span.Solid` : it covers a piece that begins with no line break, or the very end of the text;
* `Span.Solid.upTo` : so does a span that reaches from one such span to another.
-/

namespace GujaratiScript

/-! ## Lines and columns -/

/-- What stands behind the last line break of a text. -/
def lastLine (cs : List Char) : List Char := cs.rtakeWhile (· != '\n')

theorem lastLine_break (cs : List Char) : lastLine (cs ++ ['\n']) = [] :=
  List.rtakeWhile_concat_neg _ _ _ (by decide)

theorem lastLine_concat {c : Char} (h : c ≠ '\n') (cs : List Char) :
    lastLine (cs ++ [c]) = lastLine cs ++ [c] :=
  List.rtakeWhile_concat_pos _ _ _ (bne_iff_ne.2 h)

/-- The place behind a text: its bytes, its line breaks and what stands behind the last of them, the
latter two in 32 bits. -/
theorem Mark.advance_origin (cs : List Char) :
    origin.advance cs =
      ⟨byteLength cs, (1 + cs.count '\n' : Nat), (1 + (lastLine cs).length : Nat)⟩ := by
  induction cs using List.reverseRecOn with
  | nil => rfl
  | append_singleton cs c ih =>
    have size : byteLength (cs ++ [c]) = byteLength cs + c.utf8Size := by
      rw [byteLength_append, byteLength_cons]
      rfl
    rw [advance_append, ih, size, List.count_append]
    by_cases line : c = '\n'
    · have next : UInt32.ofNat (1 + (cs.count '\n' + 1)) = UInt32.ofNat (1 + cs.count '\n') + 1 :=
        UInt32.ofNat_add (1 + cs.count '\n') 1
      subst line
      rw [lastLine_break, List.count_singleton_self, next]
      rfl
    · have next : UInt32.ofNat (1 + ((lastLine cs).length + 1)) =
          UInt32.ofNat (1 + (lastLine cs).length) + 1 := UInt32.ofNat_add (1 + (lastLine cs).length) 1
      rw [lastLine_concat line, List.length_append, List.length_singleton, List.count_singleton, next]
      show Mark.next _ c = _
      rw [Mark.next, if_neg line, if_neg (by simpa using line)]
      rfl

/-- Every character takes a byte. -/
theorem length_le_byteLength (cs : List Char) : cs.length ≤ byteLength cs := by
  induction cs with
  | nil => exact Nat.zero_le _
  | cons c cs ih =>
    have pos := c.utf8Size_pos
    rw [byteLength_cons, List.length_cons]
    omega

/-- The last line is no longer than the text. -/
theorem length_lastLine_le (cs : List Char) : (lastLine cs).length ≤ cs.length :=
  (List.rtakeWhile_suffix _ _).length_le

/-- Behind `n` blanks stands column `n + 1`, which begins at zero again with `2 ^ 32`. -/
theorem Mark.advance_origin_replicate_blank (n : Nat) :
    origin.advance (List.replicate n ' ') = ⟨n, 1, (1 + n : Nat)⟩ := by
  have line : (List.replicate n ' ').count '\n' = 0 :=
    List.count_eq_zero.2 fun mem => absurd (List.eq_of_mem_replicate mem) (by decide)
  have last : lastLine (List.replicate n ' ') = List.replicate n ' ' :=
    List.rtakeWhile_eq_self_iff.2 fun c mem => by
      rw [List.eq_of_mem_replicate mem]
      rfl
  rw [advance_origin, line, last, byteLength_replicate_blank, List.length_replicate]
  rfl

/-! ## Located spans -/

/-- The span is a range of the text between two of its characters, and its line and column are those
of the place where the range begins. -/
structure Span.Located (text : String) (s : Span) : Prop where
  start_le : s.start ≤ s.stop
  stop_le : (s.stop : Nat) ≤ text.utf8ByteSize
  /-- No character is cut. -/
  boundaries : (⟨s.start⟩ : String.Pos.Raw).IsValid text ∧ (⟨s.stop⟩ : String.Pos.Raw).IsValid text
  /-- One line for each line break before the range, and one more. -/
  line : (s.line : Nat) = 1 + (slice text 0 s.start).toList.count '\n'
  /-- One column for each character behind the last of these line breaks, and one more. -/
  col : (s.col : Nat) = 1 + (lastLine (slice text 0 s.start).toList).length

/-- The span of the characters `piece`, which stand between `before` and `after`. -/
structure Span.Covers (text : String) (before piece after : List Char) (s : Span) : Prop where
  cut : text.toList = before ++ piece ++ after
  place : s = .between (Mark.origin.advance before) (Mark.origin.advance (before ++ piece))

namespace Span

variable {text : String} {before piece after : List Char} {s t : Span}

namespace Covers

/-- A piece is covered by the span between the marks before and behind it. -/
theorem between {m : Mark} (mark : m = Mark.origin.advance before)
    (cut : text.toList = before ++ piece ++ after) :
    (Span.between m (m.advance piece)).Covers text before piece after := by
  refine ⟨cut, ?_⟩
  rw [mark, Mark.advance_append]

/-- The piece ends within the text. -/
theorem byteLength_le (h : s.Covers text before piece after) :
    byteLength (before ++ piece) ≤ text.utf8ByteSize := by
  rw [← byteLength_toList, h.cut, byteLength_append (before ++ piece)]
  exact Nat.le_add_right _ _

theorem stop (h : s.Covers text before piece after) (small : text.utf8ByteSize < 2 ^ 32) :
    (s.stop : Nat) = byteLength (before ++ piece) := by
  have fits : (Mark.origin.advance (before ++ piece)).offset < 2 ^ 32 := by
    rw [Mark.advance_origin]
    exact Nat.lt_of_le_of_lt h.byteLength_le small
  rw [h.place, stop_between fits, Mark.advance_origin]

theorem start (h : s.Covers text before piece after) (small : text.utf8ByteSize < 2 ^ 32) :
    (s.start : Nat) = byteLength before := by
  have le := h.byteLength_le
  have fits : (Mark.origin.advance before).offset < 2 ^ 32 := by
    rw [byteLength_append] at le
    rw [Mark.advance_origin]
    show byteLength before < 2 ^ 32
    omega
  rw [h.place, start_between fits, Mark.advance_origin]

/-- What is covered is what stands in the range. -/
theorem slice_eq (h : s.Covers text before piece after) (small : text.utf8ByteSize < 2 ^ 32) :
    slice text s.start s.stop = .ofList piece := by
  rw [h.start small, h.stop small]
  exact slice_of_append h.cut

/-- There are fewer line breaks and columns before the piece than the text has bytes, and one. -/
theorem length_le (h : s.Covers text before piece after) :
    before.count '\n' ≤ text.utf8ByteSize ∧ (lastLine before).length ≤ text.utf8ByteSize := by
  have le : before.length ≤ text.utf8ByteSize := by
    refine (length_le_byteLength before).trans (Nat.le_trans ?_ h.byteLength_le)
    rw [byteLength_append]
    exact Nat.le_add_right _ _
  exact ⟨List.count_le_length.trans le, (length_lastLine_le before).trans le⟩

/-- One line more than line breaks has to fit into 32 bits. -/
theorem line (h : s.Covers text before piece after) (small : text.utf8ByteSize < 2 ^ 32 - 1) :
    (s.line : Nat) = 1 + before.count '\n' := by
  have le := h.length_le.1
  rw [h.place, Span.between, Mark.advance_origin]
  exact UInt32.toNat_ofNat_of_lt' (show _ < 2 ^ 32 by omega)

theorem col (h : s.Covers text before piece after) (small : text.utf8ByteSize < 2 ^ 32 - 1) :
    (s.col : Nat) = 1 + (lastLine before).length := by
  have le := h.length_le.2
  rw [h.place, Span.between, Mark.advance_origin]
  exact UInt32.toNat_ofNat_of_lt' (show _ < 2 ^ 32 by omega)

theorem located (h : s.Covers text before piece after) (small : text.utf8ByteSize < 2 ^ 32 - 1) :
    s.Located text := by
  have start := h.start (by omega)
  have stop := h.stop (by omega)
  have cut : text.toList = before ++ (piece ++ after) := h.cut.trans (List.append_assoc _ _ _)
  have before_eq : (slice text 0 s.start).toList = before := by
    have first : slice text (byteLength []) (byteLength ([] ++ before)) = .ofList before :=
      slice_of_append cut
    rw [start]
    exact (congrArg String.toList first).trans String.toList_ofList
  constructor
  case start_le =>
    rw [UInt32.le_iff_toNat_le, start, stop, byteLength_append]
    exact Nat.le_add_right _ _
  case stop_le =>
    rw [stop]
    exact h.byteLength_le
  case boundaries =>
    rw [start, stop]
    exact ⟨isValid_of_append cut, isValid_of_append h.cut⟩
  case line => rw [before_eq, h.line small]
  case col => rw [before_eq, h.col small]

end Covers

/-- A span behind one blank less than `2 ^ 32` is not located: there is no column zero. -/
theorem not_located_of_wide {m : Mark}
    (wide : m = Mark.origin.advance (List.replicate (2 ^ 32 - 1) ' ')) :
    ¬ (between m m).Located text := by
  have zero : m.col = 0 := by
    rw [wide, Mark.advance_origin_replicate_blank]
    decide
  intro located
  have col : (m.col : Nat) = 1 + _ := located.col
  rw [zero] at col
  have none : (0 : UInt32).toNat = 0 := rfl
  omega

/-- The span covers a piece that begins with no line break, or else the very end of the text. -/
def Solid (text : String) (s : Span) : Prop :=
  ∃ before piece after, s.Covers text before piece after ∧
    piece.head? ≠ some '\n' ∧ (piece = [] → after = [])

theorem Solid.located (h : s.Solid text) (small : text.utf8ByteSize < 2 ^ 32 - 1) :
    s.Located text := by
  obtain ⟨_, _, _, covers, -⟩ := h
  exact covers.located small

/-- A span that reaches from one solid span to another begins as the first does. -/
theorem Solid.upTo (small : text.utf8ByteSize < 2 ^ 32) (hs : s.Solid text) (ht : t.Solid text) :
    (s.upTo t).Solid text := by
  obtain ⟨before, piece, after, covers, first, end_⟩ := hs
  obtain ⟨before', piece', after', covers', first', end'⟩ := ht
  by_cases le : t.stop ≤ s.stop
  · rw [upTo_of_le le]
    exact ⟨before, piece, after, covers, first, end_⟩
  · -- the second span ends later, so all of the first is passed where it ends
    obtain ⟨more, eq⟩ : before ++ piece <+: before' ++ piece' := by
      have left : before ++ piece <+: text.toList := ⟨after, covers.cut.symm⟩
      have right : before' ++ piece' <+: text.toList := ⟨after', covers'.cut.symm⟩
      rcases List.prefix_or_prefix_of_prefix left right with pre | ⟨more, eq⟩
      · exact pre
      · refine absurd ?_ le
        rw [UInt32.le_iff_toNat_le, covers.stop small, covers'.stop small, ← eq,
          byteLength_append (before' ++ piece')]
        exact Nat.le_add_right _ _
    rw [List.append_assoc] at eq
    have cut : text.toList = before ++ (piece ++ more) ++ after' := covers'.cut.trans (eq ▸ rfl)
    -- the joined span begins as the first and ends as the second
    have place : s.upTo t =
        .between (Mark.origin.advance before) (Mark.origin.advance (before ++ (piece ++ more))) := by
      rw [eq, upTo_of_lt (UInt32.not_le.1 le), covers.place, covers'.place]
      rfl
    have rest : piece = [] → more ++ after' = [] := by
      rintro rfl
      have whole := cut.symm.trans (covers.cut.trans (by rw [end_ rfl]))
      simpa using whole
    refine ⟨before, piece ++ more, after', ⟨cut, place⟩, ?_, fun none => ?_⟩
    · rcases piece with _ | ⟨c, piece⟩
      · intro line
        rw [(List.append_eq_nil_iff.1 (rest rfl)).1] at line
        cases line
      · exact first
    · exact (List.append_eq_nil_iff.1 (rest (List.append_eq_nil_iff.1 none).1)).2

end Span

end GujaratiScript
