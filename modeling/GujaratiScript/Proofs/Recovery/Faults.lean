import Mathlib.Data.List.Perm.Subperm
import GujaratiScript.Proofs.Reading.Frame
import GujaratiScript.Proofs.Recovery.Order
import GujaratiScript.Proofs.Spelling.Extent

/-!
# The faults of a whole sequence

* `Tally.leads_placedFaults` : the journal of a whole sequence leads to all its faults;
* `Tally.faults_parse` : they are the faults that the parser reports;
* `pairwise_placedFaults`, `span_placedFaults`, `length_placedFaults_le` : what this says of them;
* `faults_in_order` : the faults of a text come in its order.
-/

namespace GujaratiScript

/-! ## The faults and their places -/

namespace Tally

/-- The journal beside it changes nothing of a reading. -/
theorem program_eq_chronicle (s : Tally) :
    program maxNesting false s.fresh = (s.chronicle.1, s.chronicle.2.tally) := by
  have read := Reading.matches_program matching_tally closedUnderUpTo_true maxNesting false
    (Journal.blank s.fresh) _ rfl
  exact Prod.ext read.same read.rel

/-- Reading a whole sequence leads to its faults. -/
theorem leads_placedFaults (s : Tally) : ∃ tried t,
    (Journal.blank s.fresh).Leads tried s.placedFaults t ∧
      s.placedFaults.length ≤ tried.length + 1 ∧ s.parse.2.faults = t.tally.faults := by
  obtain ⟨⟨tried, met, leads, -, fewer⟩, sited, -⟩ :=
    orderly_program maxNesting false (.blank s.fresh)
  have erased := s.program_eq_chronicle
  unfold parse placedFaults
  rw [erased]
  unfold chronicle Noting.closing
  generalize program maxNesting false (Journal.blank s.fresh) = out at leads sited ⊢
  rcases out with ⟨fault | p, t⟩
  · -- the fault of the program itself comes last
    have last := leads.noteFault (sited fault rfl)
    have all : (t.noteFault fault).met = met ++ [(t.place, fault)] := last.met_eq
    dsimp only
    rw [all]
    refine ⟨tried, t.noteFault fault, last, ?_, rfl⟩
    rw [List.length_append]
    exact Nat.succ_le_succ fewer
  · have all : t.met = met := leads.met_eq
    dsimp only
    rw [all]
    refine ⟨tried, t, leads, Nat.le_succ_of_le fewer, ?_⟩
    split <;> rfl

/-- The faults reported are those in the journal, in its order. -/
theorem faults_parse (s : Tally) : s.parse.2.faults = s.placedFaults.map Prod.snd := by
  obtain ⟨tried, t, leads, -, same⟩ := s.leads_placedFaults
  exact same.trans leads.faults

/-- The places of the faults do not fall. -/
theorem pairwise_placedFaults (s : Tally) : s.placedFaults.Pairwise fun m n => m.1 ≤ n.1 := by
  obtain ⟨tried, t, leads, -⟩ := s.leads_placedFaults
  exact leads.ordered

/-- Each fault lies at the token at its place. -/
theorem span_placedFaults (s : Tally) :
    ∀ m ∈ s.placedFaults, s.tokens[m.1]?.map Lexeme.span = some m.2.span := by
  obtain ⟨tried, t, leads, -⟩ := s.leads_placedFaults
  exact leads.sited

/-- There is at most one fault for each token: one for each trial, and one for the program. -/
theorem length_placedFaults_le (s : Tally) : s.placedFaults.length ≤ s.tokens.length := by
  obtain ⟨tried, t, leads, fewer, -⟩ := s.leads_placedFaults
  -- the places of the trials are distinct, and lie before the one reached
  have distinct : tried.Nodup := leads.rising.imp Nat.ne_of_lt
  have before : tried ⊆ List.range t.place := fun i mem =>
    List.mem_range.2 (leads.between i mem).2
  have count : tried.length ≤ t.tally.place := by
    have le := (List.Nodup.subperm distinct before).length_le
    rwa [List.length_range] at le
  have tokens : t.tally.tokens = s.tokens := leads.tokens
  have inside := t.tally.inside
  rw [tokens] at inside
  omega

/-- A program is given just when there is no fault, and else the first one. -/
theorem parse_fst_iff (s : Tally) : ((∃ p, s.parse.1 = .ok p) ↔ s.parse.2.faults = []) ∧
    ∀ fault, s.parse.1 = .error fault ↔ s.parse.2.faults.head? = some fault := by
  unfold parse
  rcases program maxNesting false s.fresh with ⟨fault | p, t⟩
  · dsimp only
    have some : (t.report fault).faults = t.faults ++ [fault] := rfl
    refine ⟨iff_of_false nofun (by simp [some]), fun first => ?_⟩
    rw [some, List.head?_eq_some_head (by simp), Except.error.injEq, Option.some.injEq]
  · dsimp only
    split
    · rename_i none
      simp [none]
    · rename_i first rest some
      simp [some]

end Tally

/-! ## The order of the text -/

/-- The lexemes of a text that fits begin one behind the other. -/
theorem Reads.pairwise_start {m : Mark} {cs : List Char} {xs : List Lexeme} (h : Reads m cs xs)
    (fits : m.Fits cs) : xs.Pairwise fun x y => x.span.start ≤ y.span.start := by
  induction h with
  | done => exact List.pairwise_singleton _ _
  | @token m gap cs text behind c t xs _ _ found reads ih =>
    rw [(scan_append found).2.2] at fits
    have fits' := fits.advance.advance
    refine List.pairwise_cons.2 ⟨fun y mem => ?_, ih fits'⟩
    have behind := reads.offset_le fits' y mem
    rw [Mark.offset_advance] at behind
    rw [UInt32.le_iff_toNat_le, Span.start_between fits.advance.lt]
    exact Nat.le_trans (Nat.le_add_right _ _) behind

/-- Of two lexemes, the one at the smaller index begins first. -/
theorem start_le_of_index_le {xs : List Lexeme}
    (starts : xs.Pairwise fun x y => x.span.start ≤ y.span.start) {i j : Nat} {x y : Lexeme}
    (hx : xs[i]? = some x) (hy : xs[j]? = some y) (le : i ≤ j) : x.span.start ≤ y.span.start := by
  rcases Nat.lt_or_eq_of_le le with lt | rfl
  · obtain ⟨hi, rfl⟩ := List.getElem?_eq_some_iff.1 hx
    obtain ⟨hj, rfl⟩ := List.getElem?_eq_some_iff.1 hy
    exact List.pairwise_iff_getElem.1 starts i j hi hj lt
  · rw [hx] at hy
    cases hy
    exact UInt32.le_refl _

/-- The tokens of a text are those lexemes that are no line break: an end mark is among them. -/
theorem Reads.tokens_ofLexemes {m : Mark} {cs : List Char} {xs : List Lexeme}
    (h : Reads m cs xs) : (Tally.ofLexemes xs).tokens = solid xs := by
  obtain ⟨init, rfl, -⟩ := h.last
  have closed : (solid (init ++ [⟨.eof, "", .between (m.advance cs) (m.advance cs)⟩])).getLast?.map
      Lexeme.token = some .eof := by
    simp [solid]
  rw [Tally.ofLexemes, dif_pos closed]

/-- For every text: each of its faults lies at a token of it that is no line break, and a program is
given just when there is none; else the first one is given. The faults come in the order of the
text if offsets in it fit into 32 bits. -/
theorem faults_in_order (text : String) (xs : List Lexeme) (h : tokenize text = .ok xs) :
    let (result, p) := (Parser.ofLexemes xs).readProgram
    (text.utf8ByteSize < 2 ^ 32 → p.faults.Pairwise fun f g => f.span.start ≤ g.span.start) ∧
    (∀ f ∈ p.faults, ∃ x ∈ xs, x.token ≠ .newline ∧ f.span = x.span) ∧
    ((∃ t, result = .ok t) ↔ p.faults = []) ∧
    ∀ f, result = .error f ↔ p.faults.head? = some f := by
  have reads := tokenize_eq_ok_iff.1 h
  have same := (Tally.ofLexemes xs).parser_readProgram
  rw [Tally.parser_ofLexemes] at same
  rw [same]
  -- faults stand in the order of their places, and a place is a number among the solid lexemes
  have faults : (Tally.ofLexemes xs).parse.2.parser.faults =
      (Tally.ofLexemes xs).placedFaults.map Prod.snd := (Tally.ofLexemes xs).faults_parse
  have sited := (Tally.ofLexemes xs).span_placedFaults
  rw [reads.tokens_ofLexemes] at sited
  have located : ∀ m ∈ (Tally.ofLexemes xs).placedFaults,
      ∃ x, (solid xs)[m.1]? = some x ∧ x.span = m.2.span :=
    fun m mem => Option.map_eq_some_iff.1 (sited m mem)
  refine ⟨fun small => ?_, ?_, (Tally.ofLexemes xs).parse_fst_iff⟩
  · have starts := reads.pairwise_start (Mark.fits_origin small)
    rw [faults, List.pairwise_map]
    refine (Tally.ofLexemes xs).pairwise_placedFaults.imp_of_mem fun {m n} mem mem' le => ?_
    obtain ⟨x, atx, spanx⟩ := located m mem
    obtain ⟨y, aty, spany⟩ := located n mem'
    rw [← spanx, ← spany]
    exact start_le_of_index_le (starts.filter _) atx aty le
  · intro f mem
    rw [faults] at mem
    obtain ⟨m, met, rfl⟩ := List.mem_map.1 mem
    obtain ⟨x, here, span⟩ := located m met
    obtain ⟨inText, line⟩ := List.mem_filter.1 (List.mem_of_getElem? here)
    exact ⟨x, inText, of_decide_eq_true line, span.symm⟩

/-- Two faults of one text: a statement inside a block, and the end of the program behind it. -/
theorem faults_in_order_nested : ∃ xs, tokenize "kem bhai \x7b bhai bol ) \x7d" = .ok xs ∧
    let (result, p) := (Parser.ofLexemes xs).readProgram
    p.faults.Pairwise (fun f g => f.span.start ≤ g.span.start) ∧
    (∀ f ∈ p.faults, ∃ x ∈ xs, x.token ≠ .newline ∧ f.span = x.span) ∧
    ((∃ t, result = .ok t) ↔ p.faults = []) ∧
    ∀ f, result = .error f ↔ p.faults.head? = some f := by
  have none : ∀ d ∈ ([] : List Char), isBlank d = true := List.forall_mem_nil _
  have blank : ∀ d ∈ [' '], isBlank d = true := List.forall_mem_singleton.2 rfl
  have fence : scan 'k' "em bhai \x7b bhai bol ) \x7d".toList =
      .token (.word .kemBhai) "kem bhai".toList " \x7b bhai bol ) \x7d".toList := rfl
  have opened : scan '\x7b' " bhai bol ) \x7d".toList =
      .token .leftBrace ['\x7b'] " bhai bol ) \x7d".toList := rfl
  have word : scan 'b' "hai bol ) \x7d".toList =
      .token (.word .bhaiBol) "bhai bol".toList " ) \x7d".toList := rfl
  have stray : scan ')' " \x7d".toList = .token .rightParen [')'] " \x7d".toList := rfl
  have closed : scan '\x7d' [] = .token .rightBrace ['\x7d'] [] := rfl
  have reads := Reads.token (m := .origin) none rfl fence (.token blank rfl opened
    (.token blank rfl word (.token blank rfl stray (.token blank rfl closed (.done none)))))
  have read := tokenize_eq_ok_iff.2
    (show Reads .origin "kem bhai \x7b bhai bol ) \x7d".toList _ from reads)
  have small : "kem bhai \x7b bhai bol ) \x7d".utf8ByteSize < 2 ^ 32 := by decide
  obtain ⟨ordered, more⟩ := faults_in_order _ _ read
  exact ⟨_, read, ordered small, more⟩

/-- The faults of a first fence, a stray parenthesis and the end mark: one at each of the last
two. -/
theorem faults_stray (s t u : Span) :
    (Parser.ofLexemes [⟨.word .kemBhai, "kem bhai", s⟩, ⟨.rightParen, ")", t⟩,
      ⟨.eof, "", u⟩]).readProgram.2.faults =
      [⟨.unexpectedToken ")", t⟩, ⟨.expectedEnd, u⟩] := by
  have skipped : attempt (statement maxNesting false (block maxNesting))
      (Cursor.mk [⟨.rightParen, ")", t⟩] ⟨.eof, "", u⟩ []) =
      (none, ⟨[], ⟨.eof, "", u⟩, [⟨.unexpectedToken ")", t⟩]⟩) := rfl
  have passed := Cursor.remainder_congr (snd_sequence_of_attempt rfl skipped Nat.zero_lt_one)
  refine (Cursor.faults_readProgram (w := [_]) rfl rfl).trans (passed.trans ?_)
  rw [Cursor.remainder, sequence_of_stop rfl]
  rfl

/-- A stray parenthesis at the offset 9 and the end mark at `2 ^ 32`, of which nothing is kept: the
faults of the text do not come in its order. -/
theorem faults_in_order_too_long :
    ∃ text xs, text = "kem bhai )" ++ blanks (2 ^ 32 - 10) ∧ tokenize text = .ok xs ∧
      ¬ (Parser.ofLexemes xs).readProgram.2.faults.Pairwise fun f g =>
        f.span.start ≤ g.span.start := by
  have none : ∀ d ∈ ([] : List Char), isBlank d = true := List.forall_mem_nil _
  have blank : ∀ d ∈ [' '], isBlank d = true := List.forall_mem_singleton.2 rfl
  have read : ∀ n, ∃ s t, t.start = 9 ∧ tokenize ("kem bhai )" ++ blanks n) =
      .ok [⟨.word .kemBhai, "kem bhai", s⟩, ⟨.rightParen, ")", t⟩,
        ⟨.eof, "", .between ((Mark.origin.advance "kem bhai )".toList).advance (List.replicate n ' '))
          ((Mark.origin.advance "kem bhai )".toList).advance (List.replicate n ' '))⟩] := by
    intro n
    have fence : scan 'k' ("em bhai )".toList ++ List.replicate n ' ') =
        .token (.word .kemBhai) "kem bhai".toList (" )".toList ++ List.replicate n ' ') := rfl
    have stray : scan ')' (List.replicate n ' ') =
        .token .rightParen [')'] (List.replicate n ' ') := rfl
    have reads := Reads.token (m := .origin) none rfl fence
      (.token blank rfl stray (.done isBlank_of_mem_replicate))
    have cut : ("kem bhai )" ++ blanks n).toList =
        "kem bhai )".toList ++ List.replicate n ' ' := by
      rw [String.toList_append, toList_blanks]
    refine ⟨_, _, ?_, reads.tokenize cut⟩
    rfl
  obtain ⟨s, t, start, lexed⟩ := read (2 ^ 32 - 10)
  refine ⟨_, _, rfl, lexed, ?_⟩
  rw [faults_stray, List.pairwise_pair]
  show ¬ t.start ≤ _
  have zero : UInt32.ofNat (2 ^ 32) = 0 := by decide
  have stop : ((Mark.origin.advance "kem bhai )".toList).advance
      (List.replicate (2 ^ 32 - 10) ' ')).offset = 2 ^ 32 := by
    rw [Mark.offset_advance, byteLength_replicate_blank]
    rfl
  rw [start, Span.between, stop, zero]
  decide

end GujaratiScript
