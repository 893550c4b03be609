import Mathlib.Data.String.Basic
import GujaratiScript.Proofs.Spelling.Reads

/-!
# The extent of lexemes

Between them, the lexemes of a text and the blanks before each account for every character.

* `slice` : the piece of a text between two byte offsets;
* `Reads.split` : where one of the lexemes stands in the text;
* `Tiles` : what holds of the places of all lexemes;
* `tiles_tokenize` : it holds of the lexemes of every text.
-/

namespace GujaratiScript

/-! ## Pieces of a text -/

/-- The piece of a text between two byte offsets. -/
def slice (text : String) (start stop : Nat) : String :=
  String.Pos.Raw.extract text ⟨start⟩ ⟨stop⟩

theorem byteLength_eq_utf8Len (cs : List Char) : byteLength cs = String.utf8Len cs := by
  induction cs with
  | nil => rfl
  | cons c cs ih => rw [byteLength_cons, String.utf8Len_cons, ih, Nat.add_comm]

theorem byteLength_append (cs ds : List Char) :
    byteLength (cs ++ ds) = byteLength cs + byteLength ds := by
  rw [byteLength_eq_utf8Len, byteLength_eq_utf8Len, byteLength_eq_utf8Len, String.utf8Len_append]

theorem byteLength_toList (text : String) : byteLength text.toList = text.utf8ByteSize := by
  rw [byteLength_eq_utf8Len, String.utf8Len_toList]

/-- The offset behind the first characters of a text is a boundary. -/
theorem isValid_of_append {text : String} {before after : List Char}
    (h : text.toList = before ++ after) :
    (⟨byteLength before⟩ : String.Pos.Raw).IsValid text := by
  refine String.Pos.Raw.isValid_iff_exists_append.2 ⟨.ofList before, .ofList after, ?_, ?_⟩
  · rw [← String.ofList_append, ← h, String.ofList_toList]
  · rw [String.rawEndPos_ofList, byteLength_eq_utf8Len]

/-- What stands between two boundaries. -/
theorem slice_of_append {text : String} {before piece after : List Char}
    (h : text.toList = before ++ piece ++ after) :
    slice text (byteLength before) (byteLength (before ++ piece)) = String.ofList piece := by
  rw [slice, ← String.ofList_toList (s := text), h, byteLength_append, byteLength_eq_utf8Len,
    byteLength_eq_utf8Len]
  exact String.extract_of_valid before piece after

/-! ## Blanks -/

/-- A text of `n` blanks. Texts with a run of `2 ^ 32` of them show where numbers begin at zero
again. -/
def blanks (n : Nat) : String := .ofList (List.replicate n ' ')

theorem toList_blanks (n : Nat) : (blanks n).toList = List.replicate n ' ' := String.toList_ofList

theorem byteLength_replicate_blank (n : Nat) : byteLength (List.replicate n ' ') = n := by
  induction n with
  | zero => rfl
  | succ n ih =>
    rw [List.replicate_succ, byteLength_cons, ih, Nat.add_comm]
    rfl

@[simp] theorem utf8ByteSize_blanks (n : Nat) : (blanks n).utf8ByteSize = n := by
  rw [← byteLength_toList, toList_blanks, byteLength_replicate_blank]

theorem isBlank_of_mem_replicate {n : Nat} : ∀ d ∈ List.replicate n ' ', isBlank d = true := by
  intro d mem
  rw [List.eq_of_mem_replicate mem]
  rfl

/-! ## Where lexemes stand -/

/-- The text `cs`, which begins at the mark, ends at an offset that fits into 32 bits. -/
def Mark.Fits (m : Mark) (cs : List Char) : Prop := m.offset + byteLength cs < 2 ^ 32

namespace Mark.Fits

variable {m : Mark} {cs ds : List Char}

/-- So does the rest of the text behind a piece of it. -/
theorem advance (h : m.Fits (cs ++ ds)) : (m.advance cs).Fits ds := by
  unfold Fits at h ⊢
  rw [byteLength_append] at h
  rw [offset_advance]
  omega

/-- The offset itself fits. -/
theorem lt (h : m.Fits cs) : m.offset < 2 ^ 32 := Nat.lt_of_le_of_lt (Nat.le_add_right _ _) h

/-- So does the one at the end. -/
theorem advance_lt (h : m.Fits cs) : (m.advance cs).offset < 2 ^ 32 := by
  rw [offset_advance]
  exact h

end Mark.Fits

/-- An offset that fits is what a span keeps of it. -/
theorem Span.start_between {m : Mark} (h : m.offset < 2 ^ 32) (n : Mark) :
    ((between m n).start : Nat) = m.offset :=
  UInt32.toNat_ofNat_of_lt' h

theorem Span.stop_between {n : Mark} (h : n.offset < 2 ^ 32) (m : Mark) :
    ((between m n).stop : Nat) = n.offset :=
  UInt32.toNat_ofNat_of_lt' h

/-- Where the last of some lexemes ends, if the first of them begins behind `p`. -/
def endOf (p : Nat) (xs : List Lexeme) : Nat :=
  xs.foldl (fun _ x => x.span.stop) p

variable {m : Mark} {cs : List Char} {xs : List Lexeme}

/-- One of the lexemes stands behind those before it and its blanks. -/
theorem Reads.split (h : Reads m cs xs) (fits : m.Fits cs) {init rest : List Lexeme} {x : Lexeme}
    (eq : xs = init ++ x :: rest) :
    ∃ passed gap after, cs = passed ++ gap ++ x.text.toList ++ after ∧
      (∀ d ∈ gap, isBlank d = true) ∧ endOf m.offset init = (m.advance passed).offset ∧
      x.span = .between (m.advance (passed ++ gap)) (m.advance (passed ++ gap ++ x.text.toList)) := by
  -- the first lexeme is the one in question, or it is passed
  induction h generalizing init with
  | @done m gap blank =>
    rcases init with _ | ⟨y, init⟩
    · cases eq
      exact ⟨[], gap, [], by simp, blank, rfl, by simp⟩
    · simp at eq
  | @token m gap cs text behind c t xs blank _ found _ ih =>
    have covers := (scan_append found).2.2
    rcases init with _ | ⟨y, init⟩
    · cases eq
      refine ⟨[], gap, behind, ?_, blank, rfl, ?_⟩
      · rw [String.toList_ofList, covers, List.nil_append, List.append_assoc]
      · rw [String.toList_ofList, List.nil_append, Mark.advance_append]
    · cases eq
      rw [covers] at fits
      have later := fits.advance.advance
      obtain ⟨passed, gap', after, cut, blank', ends, span⟩ := ih later rfl
      rw [← Span.stop_between later.lt (m.advance gap)] at ends
      refine ⟨gap ++ text ++ passed, gap', after, ?_, blank', ?_, ?_⟩
      · rw [covers, cut]
        simp only [List.append_assoc]
      · rw [Mark.advance_append, Mark.advance_append]
        exact ends
      · rw [span]
        simp only [Mark.advance_append]

/-- All lexemes begin at or behind the mark. -/
theorem Reads.offset_le (h : Reads m cs xs) (fits : m.Fits cs) :
    ∀ x ∈ xs, m.offset ≤ x.span.start := by
  induction h with
  | @done m gap =>
    intro x mem
    rw [List.mem_singleton.1 mem, Span.start_between fits.advance_lt, Mark.offset_advance]
    exact Nat.le_add_right _ _
  | @token m gap cs text behind c t xs _ _ found _ ih =>
    rw [(scan_append found).2.2] at fits
    have gapEnd := Mark.offset_advance m gap
    have textEnd := Mark.offset_advance (m.advance gap) text
    refine List.forall_mem_cons.2 ⟨?_, fun x mem => ?_⟩
    · rw [Span.start_between fits.advance.lt]
      omega
    · have := ih fits.advance.advance x mem
      omega

/-- The lexemes stand one behind the other. -/
theorem Reads.pairwise (h : Reads m cs xs) (fits : m.Fits cs) :
    xs.Pairwise fun x y => x.span.stop ≤ y.span.start := by
  induction h with
  | done => exact List.pairwise_singleton _ _
  | @token m gap cs text behind c t xs _ _ found later ih =>
    rw [(scan_append found).2.2] at fits
    have fits' := fits.advance.advance
    refine List.pairwise_cons.2 ⟨fun x mem => ?_, ih fits'⟩
    rw [UInt32.le_iff_toNat_le, Span.stop_between fits'.lt]
    exact later.offset_le fits' x mem

/-- The last lexeme is the end mark, and the only one. -/
theorem Reads.last (h : Reads m cs xs) :
    ∃ init, xs = init ++ [⟨.eof, "", .between (m.advance cs) (m.advance cs)⟩] ∧
      ∀ x ∈ init, x.token ≠ .eof ∧ x.text ≠ "" := by
  induction h with
  | done => exact ⟨[], rfl, List.forall_mem_nil _⟩
  | @token m gap cs text behind c t xs _ _ found _ ih =>
    obtain ⟨ne, some, covers⟩ := scan_append found
    obtain ⟨init, rfl, all⟩ := ih
    have first : String.ofList text ≠ "" := fun empty => some (String.ofList_eq_empty_iff.1 empty)
    refine ⟨⟨t, String.ofList text, .between (m.advance gap) ((m.advance gap).advance text)⟩ :: init,
      ?_, List.forall_mem_cons.2 ⟨⟨ne, first⟩, all⟩⟩
    rw [covers, Mark.advance_append, Mark.advance_append]
    rfl

/-! ## Every character -/

/-- The lexemes of a text in turn, each with what stands before it from the one before, the first
from the offset `p`. -/
def interleaved (text : String) : Nat → List Lexeme → String
  | _, [] => ""
  | p, x :: xs => slice text p x.span.start ++ x.text ++ interleaved text x.span.stop xs

/-- Behind the characters `before`, the lexemes and what stands between them are all the others. -/
theorem Reads.interleaved_eq (h : Reads m cs xs) (fits : m.Fits cs) {text : String}
    {before : List Char} (cut : text.toList = before ++ cs) (start : m.offset = byteLength before) :
    interleaved text m.offset xs = String.ofList cs := by
  -- `before` grows by the blanks and the characters of each lexeme
  induction h generalizing before with
  | @done m gap blank =>
    have piece : slice text m.offset (m.advance gap).offset = String.ofList gap := by
      have cut' : text.toList = before ++ gap ++ [] := by rw [cut, List.append_nil]
      rw [Mark.offset_advance, start, ← byteLength_append]
      exact slice_of_append cut'
    rw [interleaved, Span.start_between fits.advance_lt, piece]
    exact (String.append_empty).trans String.append_empty
  | @token m gap cs word behind c t xs _ _ found _ ih =>
    rw [(scan_append found).2.2] at cut fits ⊢
    have fits' := fits.advance.advance
    have cut' : text.toList = before ++ gap ++ word ++ behind := by
      rw [cut]
      simp only [List.append_assoc]
    have piece : slice text m.offset (m.advance gap).offset = String.ofList gap := by
      rw [Mark.offset_advance, start, ← byteLength_append]
      exact slice_of_append (cut.trans (List.append_assoc _ _ _).symm)
    have start' : ((m.advance gap).advance word).offset = byteLength (before ++ gap ++ word) := by
      rw [Mark.offset_advance, Mark.offset_advance, start, byteLength_append, byteLength_append]
    rw [interleaved, Span.start_between fits.advance.lt, Span.stop_between fits'.lt, piece,
      ih fits' cut' start', String.ofList_append, String.ofList_append, String.append_assoc]

/-- The lexemes `xs` and the blanks between them make up the text. -/
structure Tiles (text : String) (xs : List Lexeme) : Prop where
  /-- Ranges begin and end between characters. -/
  boundaries : ∀ x ∈ xs, (⟨x.span.start⟩ : String.Pos.Raw).IsValid text ∧
    (⟨x.span.stop⟩ : String.Pos.Raw).IsValid text
  /-- A lexeme is what stands in its range. -/
  slices : ∀ x ∈ xs, x.span.start ≤ x.span.stop ∧ slice text x.span.start x.span.stop = x.text
  /-- Ranges are in order and do not overlap. -/
  ordered : xs.Pairwise fun x y => x.span.stop ≤ y.span.start
  /-- Before a lexeme, from the one before it or from the beginning, stand only blanks. -/
  gaps : ∀ init x rest, xs = init ++ x :: rest →
    ∀ c ∈ (slice text (endOf 0 init) x.span.start).toList, c = ' ' ∨ c = '\t' ∨ c = '\r'
  /-- The last lexeme is the only end mark and the only empty one; it stands at the end. -/
  ends : ∃ init last, xs = init ++ [last] ∧ (∀ x ∈ init, x.token ≠ .eof ∧ x.text ≠ "") ∧
    last.token = .eof ∧ last.text = "" ∧
    last.span.start = text.utf8ByteSize ∧ last.span.stop = text.utf8ByteSize
  /-- So the text is all of these in turn. -/
  whole : interleaved text 0 xs = text

/-- A text below 4 GiB fits from its beginning on. -/
theorem Mark.fits_origin {text : String} (small : text.utf8ByteSize < 2 ^ 32) :
    origin.Fits text.toList := by
  unfold Fits
  rw [byteLength_toList]
  exact (Nat.zero_add _).trans_lt small

/-- A lexeme of a text stands behind those before it and its blanks. -/
theorem split_tokenize {text : String} (small : text.utf8ByteSize < 2 ^ 32)
    (h : tokenize text = .ok xs) {init rest : List Lexeme} {x : Lexeme}
    (eq : xs = init ++ x :: rest) :
    ∃ passed gap after, text.toList = passed ++ gap ++ x.text.toList ++ after ∧
      (∀ d ∈ gap, isBlank d = true) ∧ endOf 0 init = byteLength passed ∧
      (x.span.start : Nat) = byteLength (passed ++ gap) ∧
      (x.span.stop : Nat) = byteLength (passed ++ gap ++ x.text.toList) := by
  have origin : ∀ cs, (Mark.origin.advance cs).offset = byteLength cs := fun cs =>
    (Mark.offset_advance _ _).trans (Nat.zero_add _)
  have fits := Mark.fits_origin small
  obtain ⟨passed, gap, after, cut, blank, ends, span⟩ := (tokenize_eq_ok_iff.1 h).split fits eq
  refine ⟨passed, gap, after, cut, blank, ends.trans (origin _), ?_, ?_⟩
  · rw [cut, List.append_assoc _ x.text.toList] at fits
    rw [span, Span.start_between fits.advance.lt, origin]
  · rw [cut] at fits
    rw [span, Span.stop_between fits.advance.lt, origin]

/-- Every character of a text below 4 GiB that is read belongs to one lexeme or to the blanks before
one. -/
theorem tiles_tokenize (text : String) (small : text.utf8ByteSize < 2 ^ 32) (xs : List Lexeme)
    (h : tokenize text = .ok xs) : Tiles text xs := by
  have reads := tokenize_eq_ok_iff.1 h
  have fits := Mark.fits_origin small
  -- each lexeme splits the text into what is before it, the blanks, itself and what is left
  refine ⟨fun x mem => ?_, fun x mem => ?_, reads.pairwise fits, fun init x rest eq => ?_, ?_, ?_⟩
  · obtain ⟨init, rest, eq⟩ := List.append_of_mem mem
    obtain ⟨passed, gap, after, cut, -, -, start, stop⟩ := split_tokenize small h eq
    rw [start, stop]
    constructor
    · exact isValid_of_append (cut.trans (List.append_assoc _ _ _))
    · exact isValid_of_append cut
  · obtain ⟨init, rest, eq⟩ := List.append_of_mem mem
    obtain ⟨passed, gap, after, cut, -, -, start, stop⟩ := split_tokenize small h eq
    constructor
    · rw [UInt32.le_iff_toNat_le, start, stop, byteLength_append (passed ++ gap)]
      exact Nat.le_add_right _ _
    · rw [start, stop, slice_of_append cut, String.ofList_toList]
  · obtain ⟨passed, gap, after, cut, blank, ends, start, -⟩ := split_tokenize small h eq
    rw [start, ends, slice_of_append (cut.trans (List.append_assoc _ _ _)), String.toList_ofList]
    intro c mem
    simpa [isBlank, or_assoc] using blank c mem
  · obtain ⟨init, eq, all⟩ := reads.last
    have atEnd : (Mark.origin.advance text.toList).offset = text.utf8ByteSize := by
      rw [Mark.offset_advance, byteLength_toList]
      exact Nat.zero_add _
    have last := fits.advance_lt
    exact ⟨init, _, eq, all, rfl, rfl, (Span.start_between last _).trans atEnd,
      (Span.stop_between last _).trans atEnd⟩
  · have cut : text.toList = [] ++ text.toList := rfl
    exact (reads.interleaved_eq fits cut rfl).trans String.ofList_toList

/-- A sign and a string over two lines, with blanks around them. -/
theorem tiles_tokenize_string :
    ∃ xs, "\t<= \"a\nb\" ".utf8ByteSize < 2 ^ 32 ∧ tokenize "\t<= \"a\nb\" " = .ok xs ∧
      Tiles "\t<= \"a\nb\" " xs := by
  have sign : scan '<' ['=', ' ', '\x22', 'a', '\n', 'b', '\x22', ' '] =
      .token (.op .lessEqual) ['<', '='] [' ', '\x22', 'a', '\n', 'b', '\x22', ' '] := rfl
  have string : scan '\x22' ['a', '\n', 'b', '\x22', ' '] =
      .token (.str (String.ofList ['a', '\n', 'b'])) ['\x22', 'a', '\n', 'b', '\x22'] [' '] := rfl
  have first : ∀ d ∈ ['\t'], isBlank d = true := List.forall_mem_singleton.2 rfl
  have second : ∀ d ∈ [' '], isBlank d = true := List.forall_mem_singleton.2 rfl
  have reads := Reads.token (m := .origin) first rfl sign (.token second rfl string (.done second))
  have cut : "\t<= \"a\nb\" ".toList =
      ['\t'] ++ '<' :: ['=', ' ', '\x22', 'a', '\n', 'b', '\x22', ' '] := rfl
  have read := tokenize_eq_ok_iff.2 (cut ▸ reads)
  exact ⟨_, by decide, read, tiles_tokenize _ (by decide) _ read⟩

/-- A text of blanks has no lexeme but the end mark, behind all of them. -/
theorem tokenize_blanks (n : Nat) :
    tokenize (blanks n) =
      .ok [⟨.eof, "", .between (Mark.origin.advance (List.replicate n ' '))
        (Mark.origin.advance (List.replicate n ' '))⟩] := by
  rw [tokenize_eq_ok_iff, toList_blanks]
  exact .done isBlank_of_mem_replicate

end GujaratiScript
