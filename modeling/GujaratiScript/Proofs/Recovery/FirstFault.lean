import GujaratiScript.Proofs.Reading.Depth
import GujaratiScript.Proofs.Recovery.Faults

/-!
# The first fault depends on what has been read

Two sequences with the same tokens up to a place are read alike up to there. So if the first fault
of one of them is met there, it is the first fault of the other as well, whatever comes behind.

* `Tally.Agree`, `Journal.Agree` : two states at one place before any fault, with the same tokens up
  to another;
* `Noting.AlikeUpTo` : two readings that cannot be told apart up to a place;
* `Noting.Foresees` : a reader whose readings are alike from journals that agree;
* `Built.foresees`, `foresees_program` : no reader of the grammar looks ahead;
* `first_fault_is_local` : the main statement.
-/

namespace GujaratiScript

open Reading

/-! ## Two tallies -/

namespace Tally

/-- At one place, with the same counters and the same tokens up to the place `i`. -/
structure Agree (i : Nat) (s t : Tally) : Prop where
  tokens : t.tokens.take (i + 1) = s.tokens.take (i + 1)
  place : t.place = s.place
  place_le : s.place ≤ i
  loopDepth : t.loopDepth = s.loopDepth
  nesting : t.nesting = s.nesting

namespace Agree

variable {i : Nat} {s t : Tally}

/-- The token that comes next is one of those that are the same. -/
theorem current (h : s.Agree i t) : t.current = s.current := by
  have lt : s.place < i + 1 := Nat.lt_succ_of_le h.place_le
  have here := congrArg (·[s.place]?) h.tokens
  simp only [List.getElem?_take, if_pos lt] at here
  rw [s.getElem?_place, ← h.place, t.getElem?_place] at here
  exact Option.some.inj here

/-- A step stays in the common part as long as it does not pass its end. -/
theorem step (h : s.Agree i t) (le : s.step.place ≤ i) : s.step.Agree i t.step := by
  have same := h.current
  by_cases eof : s.current.token = .eof
  · rw [step_of_eof eof, step_of_eof (same ▸ eof)]
    exact h
  · have eof' : t.current.token ≠ .eof := same ▸ eof
    refine ⟨?_, ?_, le, ?_, ?_⟩
    · rw [tokens_step, tokens_step, h.tokens]
    · rw [place_step eof, place_step eof', h.place]
    · exact (t.led_step.loopDepth.trans h.loopDepth).trans s.led_step.loopDepth.symm
    · rw [nesting_step, nesting_step, h.nesting]

/-- Setting the same levels keeps the agreement. -/
theorem restoreNesting (h : s.Agree i t) (n : Nat) :
    (s.restoreNesting n).Agree i (t.restoreNesting n) :=
  ⟨h.tokens, h.place, h.place_le, h.loopDepth, rfl⟩

/-- Entering a loop in both keeps the agreement. -/
theorem enterLoop (h : s.Agree i t) : s.enterLoop.Agree i t.enterLoop :=
  ⟨h.tokens, h.place, h.place_le, congrArg (· + 1) h.loopDepth, h.nesting⟩

/-- Leaving a loop in both keeps the agreement. -/
theorem exitLoop (h : s.Agree i t) : s.exitLoop.Agree i t.exitLoop :=
  ⟨h.tokens, h.place, h.place_le, congrArg (· - 1) h.loopDepth, h.nesting⟩

end Agree

end Tally

/-! ## Two readings -/

namespace Journal

/-- No fault was met yet, and the tallies agree up to the place `i`. -/
structure Agree (i : Nat) (s t : Journal) : Prop where
  tally : s.tally.Agree i t.tally
  none : s.met = []
  none' : t.met = []

namespace Agree

variable {i : Nat} {s t : Journal}

/-- The fault that is noted now is the first of the one journal. -/
theorem met_noteFault (h : s.Agree i t) (fault : ParseFault) :
    (s.noteFault fault).met = [(s.place, fault)] := by
  rw [noteFault, h.none, List.nil_append]

/-- It is the first of the other as well, at the same place. -/
theorem met_noteFault' (h : s.Agree i t) (fault : ParseFault) :
    (t.noteFault fault).met = [(s.place, fault)] := by
  rw [noteFault, h.none', List.nil_append, place, place, h.tally.place]

end Agree

end Journal

namespace Noting

variable {α β : Type} {i : Nat}

/-- Two readings have led to the same place if one of them has met no fault and has not passed the
place `i`. If its first fault was met there or before, it is the first fault of the other. -/
structure AlikeUpTo (i : Nat) (out out' : α × Journal) : Prop where
  alike : out.2.met = [] → out.2.place ≤ i → out'.1 = out.1 ∧ out.2.Agree i out'.2
  first : ∀ m, out.2.met.head? = some m → m.1 ≤ i → out'.2.met.head? = some m

namespace AlikeUpTo

/-- Outcomes are alike that are the same and leave journals that agree. -/
theorem of_agree {out out' : α × Journal} (same : out'.1 = out.1) (h : out.2.Agree i out'.2) :
    AlikeUpTo i out out' := by
  refine ⟨fun _ _ => ⟨same, h⟩, fun m first => ?_⟩
  rw [h.none] at first
  cases first

/-- Two readings that have met one and the same fault are alike. -/
theorem of_met {out out' : α × Journal} {m : Nat × ParseFault} (met : out.2.met = [m])
    (met' : out'.2.met = [m]) : AlikeUpTo i out out' := by
  refine ⟨fun none => ?_, fun m' first _ => ?_⟩
  · rw [met] at none
    cases none
  · rw [met'.trans met.symm]
    exact first

/-- What comes after two readings that are alike matters only where they have led to the same. -/
theorem trans {out out' : α × Journal} {last last' : β × Journal} (h : AlikeUpTo i out out')
    (leads : out.2.LeadsTo last.2) (leads' : out'.2.LeadsTo last'.2)
    (next : out'.1 = out.1 → out.2.Agree i out'.2 → AlikeUpTo i last last') :
    AlikeUpTo i last last' := by
  constructor
  · intro none le
    obtain ⟨same, agree⟩ := h.alike (leads.met_eq_nil none) (Nat.le_trans leads.place le)
    exact (next same agree).alike none le
  · intro m first le
    rcases met : out.2.met with _ | ⟨m', rest⟩
    · -- the fault is met after the first reading, which has not passed the place
      have here := leads.place_le_of_head?_met met first
      obtain ⟨same, agree⟩ := h.alike met (Nat.le_trans here le)
      exact (next same agree).first m first le
    · have already : out.2.met.head? = some m' := by rw [met]; rfl
      rw [leads.head?_met already] at first
      exact leads'.head?_met (h.first m (already.trans first) le)

/-- Noting the fault that has ended a reading is reading on. -/
theorem closing {out out' : Except ParseFault α × Journal} (h : AlikeUpTo i out out')
    (leads : out.2.LeadsTo (Noting.closing out)) (leads' : out'.2.LeadsTo (Noting.closing out')) :
    AlikeUpTo i ((), Noting.closing out) ((), Noting.closing out') := by
  refine h.trans leads leads' fun same after => ?_
  rcases out with ⟨fault | a, u⟩ <;> rcases out' with ⟨fault' | a', u'⟩ <;> cases same
  · exact .of_met (after.met_noteFault fault) (after.met_noteFault' fault)
  · exact .of_agree rfl after

end AlikeUpTo

/-- From journals that agree, readings by `r` are alike. -/
structure Foresees (r : Noting α) : Prop where
  leads : ∀ s : Journal, s.LeadsTo (r s).2
  alike : ∀ (i : Nat) (s t : Journal), s.Agree i t → AlikeUpTo i (r s) (r t)

/-- A reader that only passes tokens, and whose result depends on those up to the place that it gets
to. -/
theorem foresees_of_passed {r : Noting α}
    (passes : ∀ s : Journal, ∃ t, s.tally.Passed t ∧ (r s).2 = s.goTo t)
    (alike : ∀ (i : Nat) (s t : Journal), s.tally.Agree i t.tally → (r s).2.place ≤ i →
      (r t).1 = (r s).1 ∧ (r s).2.tally.Agree i (r t).2.tally) : Foresees r := by
  have silent (s : Journal) : (r s).2.met = s.met := by
    obtain ⟨t, -, eq⟩ := passes s
    rw [eq]
    rfl
  refine ⟨fun s => ?_, fun i s t agree => ⟨fun _ le => ?_, fun m first => ?_⟩⟩
  · obtain ⟨t, passed, eq⟩ := passes s
    rw [eq]
    exact .of_passed passed
  · obtain ⟨same, after⟩ := alike i s t agree.tally le
    exact ⟨same, after, (silent s).trans agree.none, (silent t).trans agree.none'⟩
  · rw [silent, agree.none] at first
    cases first

/-- In sequence: the second reader starts from journals that agree, or a fault was met. -/
theorem Foresees.bind {r : Noting α} {f : α → Noting β} (hr : Foresees r)
    (hf : ∀ s a t, r s = (.ok a, t) → Foresees (f a)) : Foresees (r >>= f) := by
  have goesOn (s : Journal) : (r s).2.LeadsTo ((r >>= f) s).2 := by
    rw [bind_apply]
    rcases eq : r s with ⟨fault | a, u⟩
    · exact .refl u
    · exact (hf s a u eq).leads u
  refine ⟨fun s => (hr.leads s).trans (goesOn s), fun i s t agree => ?_⟩
  refine (hr.alike i s t agree).trans (goesOn s) (goesOn t) fun same after => ?_
  rw [bind_apply, bind_apply]
  rcases eq : r s with ⟨fault | a, u⟩ <;> rcases eq' : r t with ⟨fault' | a', u'⟩ <;>
    rw [eq, eq'] at same after <;> cases same
  · exact .of_agree rfl after
  · exact (hf s a u eq).alike i u u' after

/-- Setting the levels back afterwards changes nothing here. -/
theorem Foresees.restoring {r : Noting α} (h : Foresees r) : Foresees (restoring r) := by
  have set (s t : Journal) : t.LeadsTo (Site.restore s t) :=
    .of_passed (t.tally.passed_restoreNesting _)
  refine ⟨fun s => (h.leads s).trans (set s _), fun i s t agree => ?_⟩
  refine (h.alike i s t agree).trans (set s _) (set t _) fun same after => ?_
  refine .of_agree same ⟨?_, after.none, after.none'⟩
  show ((r s).2.tally.restoreNesting s.tally.nesting).Agree i
    ((r t).2.tally.restoreNesting t.tally.nesting)
  rw [agree.tally.nesting]
  exact after.tally.restoreNesting _

/-- Reading inside a loop changes nothing here. -/
theorem Foresees.looping {r : Noting α} (h : Foresees r) : Foresees (looping r) := by
  have entered (s : Journal) : s.LeadsTo (Site.enterLoop s) :=
    .of_passed s.tally.passed_enterLoop
  have left (s : Journal) : s.LeadsTo (Site.exitLoop s) := .of_passed s.tally.passed_exitLoop
  refine ⟨fun s => ((entered s).trans (h.leads _)).trans (left _), fun i s t agree => ?_⟩
  have start : Journal.Agree i (Site.enterLoop s) (Site.enterLoop t) :=
    ⟨agree.tally.enterLoop, agree.none, agree.none'⟩
  refine (h.alike i _ _ start).trans (left _) (left _) fun same after => ?_
  exact .of_agree same ⟨after.tally.exitLoop, after.none, after.none'⟩

/-! ## Trials -/

section

variable {reader : Noting Stmt} (keeps : ∀ s, Orderly (s.place + 1) s (reader s))

include keeps

/-- What follows the trial of a statement only adds to the journal. -/
theorem attempt_leadsTo (s : Journal) : (reader s.noteTrial).2.LeadsTo (attempt reader s).2 := by
  have closes := (keeps s.noteTrial).leadsTo_closing
  rcases eq : reader s.noteTrial with ⟨fault | x, t⟩
  · rw [eq] at closes
    rw [attempt_of_eq_error eq]
    exact closes.trans (.of_passed ((t.tally.report fault).passed_recover s.place))
  · rw [attempt_of_eq_ok eq]
    exact .refl t

variable (h : Foresees reader)

include h

/-- A trial that meets the first fault notes it where the other trial does. -/
theorem attempt_alike {s t : Journal} (agree : s.Agree i t) :
    AlikeUpTo i (attempt reader s) (attempt reader t) := by
  have start : s.noteTrial.Agree i t.noteTrial := ⟨agree.tally, agree.none, agree.none'⟩
  refine (h.alike i _ _ start).trans (attempt_leadsTo keeps s) (attempt_leadsTo keeps t)
    fun same after => ?_
  rcases eq : reader s.noteTrial with ⟨fault | x, u⟩ <;>
    rcases eq' : reader t.noteTrial with ⟨fault' | x', u'⟩ <;>
    rw [eq, eq'] at same after <;> cases same
  · rw [attempt_of_eq_error eq, attempt_of_eq_error eq']
    exact .of_met (after.met_noteFault fault) (after.met_noteFault' fault)
  · rw [attempt_of_eq_ok eq, attempt_of_eq_ok eq']
    exact .of_agree rfl after

variable {ends : Token → Bool} (eof : ends .eof = true)

include eof

/-- Statement after statement, by the recursion of `statements`. -/
theorem statements_alike (read : List Stmt) {s t : Journal} (agree : s.Agree i t) :
    AlikeUpTo i (statements ends reader read s) (statements ends reader read t) := by
  -- by the tokens that are left: a trial takes one of them
  induction len : s.tally.left using Nat.strongRecOn generalizing s t read with
  | ind n ih =>
    have here : Site.current t = Site.current s := agree.tally.current
    by_cases stops : ends (Site.current s).token = true
    · rw [statements, if_pos stops, statements, here, if_pos stops]
      exact .of_agree rfl agree
    · have went := left_attempt_lt keeps (ne_eof_of_goes eof stops)
      have goes : ¬ ends (Site.current t).token = true := by rwa [here]
      rw [statements_of_goes keeps eof stops, statements_of_goes keeps eof goes]
      refine (attempt_alike keeps h agree).trans (grows_statements keeps eof _ _).leadsTo
        (grows_statements keeps eof _ _).leadsTo fun first after => ?_
      rw [first]
      exact ih _ (len ▸ went) _ after rfl

/-- Statements in sequence are alike if the single ones are. -/
theorem Foresees.sequence : Foresees (GujaratiScript.sequence ends reader) := by
  refine ⟨fun s => (grows_statements keeps eof [] s).leadsTo, fun i s t agree => ?_⟩
  have body := statements_alike keeps h eof [] agree
  exact ⟨fun none le => (body.alike none le).imp (congrArg Except.ok) id, body.first⟩

end

end Noting

/-! ## The readers of the grammar -/

open Noting

/-- No reader that is put together from the basic ones looks ahead, if those of the statements that
it tries are orderly. -/
theorem Reading.Built.foresees {α : Type} {r q : Noting α} {post : α → Prop}
    (h : Built (fun r _ => ∀ s, Orderly (s.place + 1) s (r s)) (fun _ => True) r q post) :
    Foresees r := by
  -- basic readers report nothing: they stay, or they pass one token
  have stay (s : Journal) : ∃ t, s.tally.Passed t ∧ s = s.goTo t := ⟨s.tally, .refl _, rfl⟩
  have went (s : Journal) : ∃ t, s.tally.Passed t ∧ Site.step s = s.goTo t :=
    ⟨s.tally.step, s.tally.passed_step, rfl⟩
  induction h with
  | pure _ => exact foresees_of_passed stay fun _ _ _ agree _ => ⟨rfl, agree⟩
  | fail cause post _ => exact foresees_of_passed stay fun _ _ _ agree _ => ⟨rfl, agree⟩
  | peek =>
    exact foresees_of_passed stay fun _ _ _ agree _ => ⟨congrArg Except.ok agree.current, agree⟩
  | at? x =>
    refine foresees_of_passed stay fun _ _ _ agree _ => ⟨?_, agree⟩
    exact congrArg (fun y : Lexeme => Except.ok (y.token == x)) agree.current
  | take =>
    refine foresees_of_passed went fun _ _ _ agree le => ?_
    exact ⟨congrArg Except.ok agree.current, agree.step le⟩
  | step => exact foresees_of_passed went fun _ _ _ agree le => ⟨rfl, agree.step le⟩
  | nest levels _ =>
    refine foresees_of_passed (fun s => ?_) fun i s t agree _ => ?_
    · by_cases full : maxNesting ≤ s.tally.nesting
      · rw [Journal.nest_of_full full]
        exact stay s
      · rw [Journal.nest_of_not_full full]
        exact ⟨_, s.tally.passed_restoreNesting _, rfl⟩
    · have same := agree.nesting
      by_cases full : maxNesting ≤ s.tally.nesting
      · rw [Journal.nest_of_full full, Journal.nest_of_full (same ▸ full)]
        exact ⟨rfl, agree⟩
      · rw [Journal.nest_of_not_full full, Journal.nest_of_not_full (same ▸ full), same]
        exact ⟨rfl, agree.restoreNesting _⟩
  | insideLoop told =>
    refine foresees_of_passed stay fun _ _ _ agree _ => ⟨?_, agree⟩
    exact congrArg (fun d : Nat => Except.ok (decide (0 < d))) agree.loopDepth
  | restoring _ ih => exact ih.restoring
  | looping _ ih => exact ih.looping
  | bind built _ first last =>
    exact first.bind fun s a t eq => last a (built.post_of_eq_ok eq)
  | sequence eof tried _ ih => exact ih.sequence tried eof

/-- So whole programs are. -/
theorem foresees_program (n : Nat) (inLoop : Bool) : Foresees (program n inLoop) :=
  (built_program closedUnderUpTo_true orderly_trial n inLoop).foresees

/-! ## Whole sequences -/

namespace Tally

/-- The first fault of a sequence is the first fault of any other that has the same tokens up to its
place. -/
theorem head?_placedFaults {s t : Tally} {i : Nat} {fault : ParseFault}
    (first : s.placedFaults.head? = some (i, fault))
    (same : t.tokens.take (i + 1) = s.tokens.take (i + 1)) :
    t.placedFaults.head? = some (i, fault) := by
  have start : Journal.Agree i (.blank s.fresh) (.blank t.fresh) :=
    ⟨⟨same, rfl, Nat.zero_le i, rfl, rfl⟩, rfl, rfl⟩
  have alike := ((foresees_program maxNesting false).alike i _ _ start).closing
    (orderly_program maxNesting false _).leadsTo_closing
    (orderly_program maxNesting false _).leadsTo_closing
  exact alike.first (i, fault) first (Nat.le_refl i)

/-- A fault is given just when it is the first one that is met. -/
theorem readProgram_eq_error_iff (s : Tally) (fault : ParseFault) :
    s.parser.readProgram.1 = .error fault ↔ ∃ i, s.placedFaults.head? = some (i, fault) := by
  rw [parser_readProgram]
  dsimp only
  rw [s.parse_fst_iff.2, s.faults_parse, List.head?_map, Option.map_eq_some_iff]
  constructor
  · rintro ⟨⟨i, _⟩, first, rfl⟩
    exact ⟨i, first⟩
  · rintro ⟨i, first⟩
    exact ⟨_, first, rfl⟩

end Tally

/-- Take any lexemes that are no program. The fault that they are refused with is met at some place,
and it is a fault of the token there. Any other lexemes with the same tokens up to that place are
refused with the same fault, which is met at the same place, whatever comes behind. -/
theorem first_fault_is_local (xs : List Lexeme) (fault : ParseFault)
    (refused : (Parser.ofLexemes xs).readProgram.1 = .error fault) :
    ∃ i, (Tally.ofLexemes xs).placedFaults.head? = some (i, fault) ∧
      (Tally.ofLexemes xs).tokens[i]?.map Lexeme.span = some fault.span ∧
      ∀ ys, (Tally.ofLexemes ys).tokens.take (i + 1) = (Tally.ofLexemes xs).tokens.take (i + 1) →
        (Parser.ofLexemes ys).readProgram.1 = .error fault ∧
        (Tally.ofLexemes ys).placedFaults.head? = some (i, fault) := by
  rw [← Tally.parser_ofLexemes, Tally.readProgram_eq_error_iff] at refused
  obtain ⟨i, first⟩ := refused
  refine ⟨i, first, Tally.span_placedFaults _ _ (List.mem_of_head? first), fun ys same => ?_⟩
  have first' := Tally.head?_placedFaults first same
  refine ⟨?_, first'⟩
  rw [← Tally.parser_ofLexemes, Tally.readProgram_eq_error_iff]
  exact ⟨i, first'⟩

/-- A stray parenthesis is the first fault, whether or not the program ends behind it. -/
theorem first_fault_is_local_stray :
    let start := [⟨.word .kemBhai, "kem bhai", ⟨0, 8, 1, 1⟩⟩, ⟨.rightParen, ")", ⟨9, 10, 1, 10⟩⟩]
    let more := start ++ [⟨.word .aavjoBhai, "aavjo bhai", ⟨11, 21, 1, 12⟩⟩]
    let fault := ⟨.unexpectedToken ")", ⟨9, 10, 1, 10⟩⟩
    (Parser.ofLexemes start).readProgram.1 = .error fault ∧
      (Parser.ofLexemes more).readProgram.1 = .error fault := by
  intro start more fault
  let reader : Reading Stmt := statement maxNesting false (block maxNesting)
  have tried : attempt reader (Cursor.ofLexemes start).step =
      (none, ⟨[], ⟨.eof, "", ⟨10, 10, 1, 10⟩⟩, [fault]⟩) := rfl
  have body : sequence Token.endsProgram reader (Cursor.ofLexemes start).step =
      (.ok [], ⟨[], ⟨.eof, "", ⟨10, 10, 1, 10⟩⟩, [fault]⟩) := by
    rw [sequence, statements_eq, if_neg (by decide), tried]
    dsimp only
    rw [if_pos (by decide), statements_eq]
    rfl
  have all : program maxNesting false (Cursor.ofLexemes start) =
      (.error ⟨.expectedEnd, ⟨10, 10, 1, 10⟩⟩, ⟨[], ⟨.eof, "", ⟨10, 10, 1, 10⟩⟩, [fault]⟩) := by
    have first : Reading.peek (Cursor.ofLexemes start) = (.ok _, Cursor.ofLexemes start) := rfl
    have next : Reading.step (Cursor.ofLexemes start) = (.ok (), (Cursor.ofLexemes start).step) :=
      rfl
    rw [program, Reading.bind_eq_of_eq_ok first, if_pos (by decide),
      Reading.bind_eq_of_eq_ok next, Reading.bind_eq_of_eq_ok body]
    rfl
  have refused : (Parser.ofLexemes start).readProgram.1 = .error fault := by
    unfold Parser.readProgram
    rw [show (Parser.ofLexemes start).source = Cursor.ofLexemes start from rfl, all]
    rfl
  obtain ⟨i, -, here, alike⟩ := first_fault_is_local start fault refused
  refine ⟨refused, (alike more ?_).1⟩
  -- no other token has the place of the parenthesis
  have place : i = 1 := by
    rcases i with _ | _ | _ | i
    · cases here
    · rfl
    · cases here
    · cases here
  rw [place]
  rfl

end GujaratiScript
