import GujaratiScript.Proofs.Recovery.Journal

/-!
# Growing journals

Recovery passes tokens, and the one where the statement began is among them. So the places that a
journal shows only grow: those where statements are tried one behind the other, and those where
faults are met from one to the next or not at all.

* `Tally.Passed` : tokens were passed and nothing else was done; `Tally.place_lt_recover` : recovery
  takes a token;
* `Journal.Leads` : what a reading writes down, and where it may go;
* `Journal.Grows` : a reading that meets at most one fault for each statement that it tries;
* `Journal.LeadsTo` : some reading.
-/

namespace GujaratiScript

/-! ## Tokens passed -/

namespace Tally

/-- The token reached is the one at the place reached. -/
theorem getElem?_place (s : Tally) : s.tokens[s.place]? = some s.current :=
  List.getElem?_eq_getElem s.inside

/-- From `s`, tokens were passed and nothing was reported. -/
structure Passed (s t : Tally) : Prop where
  tokens : t.tokens = s.tokens
  place : s.place ≤ t.place
  faults : t.faults = s.faults

/-- No token needs to be passed. -/
theorem Passed.refl (s : Tally) : s.Passed s := ⟨rfl, Nat.le_refl _, rfl⟩

/-- Tokens passed one after the other. -/
theorem Passed.trans {s t u : Tally} (h : s.Passed t) (h' : t.Passed u) : s.Passed u :=
  ⟨h'.tokens.trans h.tokens, Nat.le_trans h.place h'.place, h'.faults.trans h.faults⟩

/-- Changing the counters passes no token. -/
theorem passed_restoreNesting (s : Tally) (n : Nat) : s.Passed (s.restoreNesting n) :=
  ⟨rfl, Nat.le_refl _, rfl⟩

/-- Entering a loop passes no token. -/
theorem passed_enterLoop (s : Tally) : s.Passed s.enterLoop := ⟨rfl, Nat.le_refl _, rfl⟩

/-- Leaving a loop passes no token. -/
theorem passed_exitLoop (s : Tally) : s.Passed s.exitLoop := ⟨rfl, Nat.le_refl _, rfl⟩

/-- A step passes a token, or stays at an end mark. -/
theorem passed_step (s : Tally) : s.Passed s.step :=
  ⟨s.tokens_step, s.led_step.place, s.faults_step⟩

/-- Skipping passes tokens and reports nothing. -/
theorem passed_skip (s : Tally) : s.Passed s.skip := by
  fun_induction skip s with
  | case1 s h => exact .refl s
  | case2 s h here => exact .refl s
  | case3 s h away ih => exact s.passed_step.trans ih

/-- Recovery passes tokens and reports nothing. -/
theorem passed_recover (s : Tally) (start : Nat) : s.Passed (s.recover start) := by
  unfold recover
  split
  · exact s.passed_step.trans s.step.passed_skip
  · exact s.passed_skip

/-- The token at a place is determined by the tokens. -/
theorem current_congr {s t : Tally} (tokens : t.tokens = s.tokens) (place : t.place = s.place) :
    t.current = s.current := by
  have same := t.getElem?_place
  rw [tokens, place, s.getElem?_place] at same
  exact (Option.some.inj same).symm

/-- Recovery has passed the token where the statement began, unless that is an end mark. -/
theorem place_lt_recover {s t : Tally} (tokens : t.tokens = s.tokens) (le : s.place ≤ t.place)
    (more : s.current.token ≠ .eof) : s.place < (t.recover s.place).place := by
  unfold recover
  split
  · rename_i stayed
    have here : t.current.token ≠ .eof := current_congr tokens stayed ▸ more
    have went := place_step here
    have after := t.step.passed_skip.place
    omega
  · rename_i gone
    have after := t.passed_skip.place
    omega

end Tally

/-! ## Growing journals -/

namespace Journal

/-- From `s`, reading has led to `t`; on the way statements were tried at the places `tried`, and
the faults `met` were met, each at its place. -/
structure Leads (s : Journal) (tried : List Nat) (met : List (Nat × ParseFault)) (t : Journal) :
    Prop where
  tokens : t.tally.tokens = s.tally.tokens
  place : s.place ≤ t.place
  tried_eq : t.tried = s.tried ++ tried
  met_eq : t.met = s.met ++ met
  faults : t.tally.faults = s.tally.faults ++ met.map Prod.snd
  between : ∀ i ∈ tried, s.place ≤ i ∧ i < t.place
  rising : tried.Pairwise (· < ·)
  within : ∀ m ∈ met, s.place ≤ m.1 ∧ m.1 ≤ t.place
  ordered : met.Pairwise fun m n => m.1 ≤ n.1
  /-- A fault lies at the token where it was met. -/
  sited : ∀ m ∈ met, s.tally.tokens[m.1]?.map Lexeme.span = some m.2.span

namespace Leads

variable {s t u : Journal} {tried tried' : List Nat} {met met' : List (Nat × ParseFault)}

/-- What is written down in two readings stands one behind the other. -/
theorem trans (h : s.Leads tried met t) (h' : t.Leads tried' met' u) :
    s.Leads (tried ++ tried') (met ++ met') u := by
  -- what the second reading writes down lies behind the place that the first has reached
  have places := h.place
  have places' := h'.place
  constructor
  case tokens => exact h'.tokens.trans h.tokens
  case place => exact Nat.le_trans places places'
  case tried_eq => rw [h'.tried_eq, h.tried_eq, List.append_assoc]
  case met_eq => rw [h'.met_eq, h.met_eq, List.append_assoc]
  case faults => rw [h'.faults, h.faults, List.map_append, List.append_assoc]
  case between =>
    refine List.forall_mem_append.2 ⟨fun i mem => ?_, fun i mem => ?_⟩
    · have := h.between i mem
      omega
    · have := h'.between i mem
      omega
  case rising =>
    refine List.pairwise_append.2 ⟨h.rising, h'.rising, fun i mem j mem' => ?_⟩
    have := h.between i mem
    have := h'.between j mem'
    omega
  case within =>
    refine List.forall_mem_append.2 ⟨fun m mem => ?_, fun m mem => ?_⟩
    · have := h.within m mem
      omega
    · have := h'.within m mem
      omega
  case ordered =>
    refine List.pairwise_append.2 ⟨h.ordered, h'.ordered, fun m mem n mem' => ?_⟩
    have := h.within m mem
    have := h'.within n mem'
    omega
  case sited =>
    refine List.forall_mem_append.2 ⟨h.sited, ?_⟩
    rw [← h.tokens]
    exact h'.sited

/-- Passing tokens writes nothing down. -/
theorem of_passed {t : Tally} (h : s.tally.Passed t) : s.Leads [] [] (s.goTo t) where
  tokens := h.tokens
  place := h.place
  tried_eq := (List.append_nil _).symm
  met_eq := (List.append_nil _).symm
  faults := h.faults.trans (List.append_nil _).symm
  between := List.forall_mem_nil _
  rising := .nil
  within := List.forall_mem_nil _
  ordered := .nil
  sited := List.forall_mem_nil _

/-- A fault of the token that comes next is met here. -/
theorem noteFault {fault : ParseFault} (h : s.Leads tried met t)
    (here : fault.span = t.tally.current.span) :
    s.Leads tried (met ++ [(t.place, fault)]) (t.noteFault fault) where
  tokens := h.tokens
  place := h.place
  tried_eq := h.tried_eq
  met_eq := by
    show t.met ++ _ = _
    rw [h.met_eq, List.append_assoc]
  faults := by
    show t.tally.faults ++ [fault] = _
    rw [h.faults, List.map_append, List.append_assoc]
    rfl
  between := h.between
  rising := h.rising
  within := List.forall_mem_append.2
    ⟨h.within, List.forall_mem_singleton.2 ⟨h.place, Nat.le_refl _⟩⟩
  ordered := by
    refine List.pairwise_append.2 ⟨h.ordered, List.pairwise_singleton _ _, fun m mem n last => ?_⟩
    rw [List.mem_singleton.1 last]
    exact (h.within m mem).2
  sited := by
    refine List.forall_mem_append.2 ⟨h.sited, List.forall_mem_singleton.2 ?_⟩
    show s.tally.tokens[t.tally.place]?.map Lexeme.span = some fault.span
    rw [← h.tokens, t.tally.getElem?_place, here]
    rfl

/-- A trial tries first of all at its own place. -/
theorem of_trial (h : s.noteTrial.Leads tried met t) (behind : ∀ i ∈ tried, s.place < i)
    (went : s.place < t.place) : s.Leads (s.place :: tried) met t where
  tokens := h.tokens
  place := h.place
  tried_eq := h.tried_eq.trans (List.append_assoc _ _ _)
  met_eq := h.met_eq
  faults := h.faults
  between := List.forall_mem_cons.2 ⟨⟨Nat.le_refl _, went⟩, h.between⟩
  rising := List.pairwise_cons.2 ⟨behind, h.rising⟩
  within := h.within
  ordered := h.ordered
  sited := h.sited

end Leads

/-- Reading has led from `s` to `t`. It has tried no statement before the place `lo`, and met at
most one fault for each that it tried. -/
def Grows (lo : Nat) (s t : Journal) : Prop :=
  ∃ tried met, s.Leads tried met t ∧ (∀ i ∈ tried, lo ≤ i) ∧ met.length ≤ tried.length

namespace Grows

variable {lo : Nat} {s t u : Journal}

/-- Where nothing is tried and nothing met, a journal grows. -/
theorem of_passed {t : Tally} (h : s.tally.Passed t) : s.Grows lo (s.goTo t) :=
  ⟨[], [], .of_passed h, List.forall_mem_nil _, Nat.le_refl _⟩

/-- A reading that does nothing. -/
theorem refl (s : Journal) : s.Grows lo s := of_passed (.refl s.tally)

/-- Readings one after the other. -/
theorem trans (h : s.Grows lo t) (h' : t.Grows lo u) : s.Grows lo u := by
  obtain ⟨tried, met, leads, above, fewer⟩ := h
  obtain ⟨tried', met', leads', above', fewer'⟩ := h'
  refine ⟨_, _, leads.trans leads', List.forall_mem_append.2 ⟨above, above'⟩, ?_⟩
  rw [List.length_append, List.length_append]
  exact Nat.add_le_add fewer fewer'

/-- An earlier bound of the places is a bound as well. -/
theorem mono {lo' : Nat} (h : s.Grows lo t) (le : lo' ≤ lo) : s.Grows lo' t := by
  obtain ⟨tried, met, leads, above, fewer⟩ := h
  exact ⟨tried, met, leads, fun i mem => Nat.le_trans le (above i mem), fewer⟩

/-- Reading takes no token back. -/
theorem place (h : s.Grows lo t) : s.place ≤ t.place := by
  obtain ⟨_, _, leads, _⟩ := h
  exact leads.place

end Grows

/-- Some reading leads from `s` to `t`. -/
def LeadsTo (s t : Journal) : Prop := ∃ tried met, s.Leads tried met t

/-- A journal that grows is one that reading leads to. -/
theorem Grows.leadsTo {lo : Nat} {s t : Journal} (h : s.Grows lo t) : s.LeadsTo t := by
  obtain ⟨tried, met, leads, _⟩ := h
  exact ⟨tried, met, leads⟩

namespace LeadsTo

variable {s t u : Journal}

/-- Passing tokens is such a reading. -/
theorem of_passed {t : Tally} (h : s.tally.Passed t) : s.LeadsTo (s.goTo t) :=
  ⟨[], [], .of_passed h⟩

/-- So is doing nothing. -/
theorem refl (s : Journal) : s.LeadsTo s := of_passed (.refl s.tally)

/-- So are two readings one after the other. -/
theorem trans (h : s.LeadsTo t) (h' : t.LeadsTo u) : s.LeadsTo u := by
  obtain ⟨_, _, leads⟩ := h
  obtain ⟨_, _, leads'⟩ := h'
  exact ⟨_, _, leads.trans leads'⟩

/-- No reading takes a token back. -/
theorem place (h : s.LeadsTo t) : s.place ≤ t.place := by
  obtain ⟨_, _, leads⟩ := h
  exact leads.place

/-- What was not met later was not met before. -/
theorem met_eq_nil (h : s.LeadsTo t) (none : t.met = []) : s.met = [] := by
  obtain ⟨_, _, leads⟩ := h
  rw [leads.met_eq] at none
  exact (List.append_eq_nil_iff.1 none).1

/-- What was met first stays so. -/
theorem head?_met (h : s.LeadsTo t) {m : Nat × ParseFault} (first : s.met.head? = some m) :
    t.met.head? = some m := by
  obtain ⟨_, _, leads⟩ := h
  rw [leads.met_eq, List.head?_append, first]
  rfl

/-- What is met first behind a place lies behind it. -/
theorem place_le_of_head?_met (h : s.LeadsTo t) (none : s.met = []) {m : Nat × ParseFault}
    (first : t.met.head? = some m) : s.place ≤ m.1 := by
  obtain ⟨_, met, leads⟩ := h
  rw [leads.met_eq, none, List.nil_append] at first
  exact (leads.within m (List.mem_of_head? first)).1

end LeadsTo

end Journal

end GujaratiScript
