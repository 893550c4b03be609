import GujaratiScript.Proofs.Reading.Careful
import GujaratiScript.Proofs.Recovery.Growing

/-!
# Readers that go forward

Every reader of the grammar lets the journal grow, and its own fault lies where it stops. A
statement that is read has taken a token, so that no trial stands still.

* `Noting.Orderly` : a reading that keeps to it, and tries no statement before some place;
* `attempt_leads` : a trial goes forward, read or not;
* `grows_statements` : sequences try their statements one behind the other;
* `Careful.orderly_apply` : careful readers are orderly; `orderly_trial`, `orderly_program` : so are
  those of the grammar.
-/

namespace GujaratiScript

open Reading

namespace Noting

variable {α β : Type} {lo : Nat} {s t : Journal}

/-! ## Orderly readings -/

/-- A reading from `s` has come to `out`. The journal has grown, and no statement was tried before
the place `lo`; a fault lies where the reading stops, and a result is given at `lo` or behind it. -/
structure Orderly (lo : Nat) (s : Journal) (out : Except ParseFault α × Journal) : Prop where
  grows : s.Grows lo out.2
  sited : ∀ fault, out.1 = .error fault → fault.span = out.2.tally.current.span
  gains : ∀ a, out.1 = .ok a → lo ≤ out.2.place

/-- A result, after at least `lo` places. -/
theorem Orderly.of_ok {a : α} (grows : s.Grows lo t) (gains : lo ≤ t.place) :
    Orderly lo s (.ok a, t) := by
  refine ⟨grows, fun fault eq => ?_, fun _ _ => gains⟩
  cases eq

/-- A fault, blamed on the token where the reader stopped. -/
theorem Orderly.of_error {fault : ParseFault} (grows : s.Grows lo t)
    (sited : fault.span = t.tally.current.span) :
    Orderly lo s ((.error fault, t) : Except ParseFault α × Journal) := by
  refine ⟨grows, fun fault' eq => ?_, fun a eq => ?_⟩
  · cases eq
    exact sited
  · cases eq

/-- What goes on from a journal that has grown is orderly from before. -/
theorem Orderly.after {out : Except ParseFault α × Journal} (h : Orderly lo t out)
    (grows : s.Grows lo t) : Orderly lo s out :=
  ⟨grows.trans h.grows, h.sited, h.gains⟩

/-- The second reader starts at the place that the first has gained, or behind it. -/
theorem Orderly.bind {r : Noting α} {f : α → Noting β} (hr : Orderly lo s (r s))
    (hf : ∀ a t, lo ≤ t.place → Orderly lo t (f a t)) : Orderly lo s ((r >>= f) s) := by
  rw [bind_apply]
  generalize r s = out at hr ⊢
  rcases out with ⟨fault | a, t⟩
  · exact .of_error hr.grows (hr.sited fault rfl)
  · exact (hf a t (hr.gains a rfl)).after hr.grows

/-- The fault that has ended a reading is the last thing that it met. -/
theorem Orderly.leadsTo_closing {out : Except ParseFault α × Journal} (h : Orderly lo s out) :
    out.2.LeadsTo (closing out) := by
  rcases out with ⟨fault | a, t⟩
  · exact ⟨_, _, (Journal.Leads.of_passed (.refl t.tally)).noteFault (h.sited fault rfl)⟩
  · exact .refl t

/-! ## Trials -/

section

variable {reader : Noting Stmt} (keeps : ∀ s, Orderly (s.place + 1) s (reader s))

include keeps

/-- Unless at an end mark, a trial notes its place, tries others only behind it, and takes a token.
-/
theorem attempt_leads (more : s.tally.current.token ≠ .eof) : ∃ nested met,
    s.Leads (s.place :: nested) met (attempt reader s).2 ∧ (∀ i ∈ nested, s.place < i) ∧
      met.length ≤ nested.length + 1 := by
  obtain ⟨⟨nested, met, leads, behind, fewer⟩, sited, gains⟩ := keeps s.noteTrial
  rcases eq : reader s.noteTrial with ⟨fault | x, t⟩
  · rw [eq] at leads sited
    rw [attempt_of_eq_error eq]
    have passed := (t.tally.report fault).passed_recover s.place
    have went : s.place < ((t.noteFault fault).recover s.place).place :=
      Tally.place_lt_recover (s := s.tally) (t := t.tally.report fault) leads.tokens leads.place
        more
    have recovered := (leads.noteFault (sited fault rfl)).trans (.of_passed passed)
    rw [List.append_nil, List.append_nil] at recovered
    refine ⟨nested, _, recovered.of_trial behind went, behind, ?_⟩
    rw [List.length_append]
    exact Nat.succ_le_succ fewer
  · rw [eq] at leads gains
    rw [attempt_of_eq_ok eq]
    exact ⟨nested, met, leads.of_trial behind (gains x rfl), behind, Nat.le_succ_of_le fewer⟩

/-- A try takes a token: fewer are left, as the loop of a sequence asks. -/
theorem left_attempt_lt (more : s.tally.current.token ≠ .eof) :
    (attempt reader s).2.tally.left < s.tally.left := by
  obtain ⟨_, _, leads, -⟩ := attempt_leads keeps more
  have went : s.tally.place < (attempt reader s).2.tally.place :=
    (leads.between _ List.mem_cons_self).2
  have inside := s.tally.inside
  rw [Tally.left, Tally.left, leads.tokens]
  omega

/-- A try notes one place, and a fault at most once it has done so. -/
theorem grows_attempt (more : s.tally.current.token ≠ .eof) :
    s.Grows s.place (attempt reader s).2 := by
  obtain ⟨nested, met, leads, behind, fewer⟩ := attempt_leads keeps more
  exact ⟨_, _, leads,
    List.forall_mem_cons.2 ⟨Nat.le_refl _, fun i mem => Nat.le_of_lt (behind i mem)⟩, fewer⟩

variable {ends : Token → Bool} (eof : ends .eof = true)

include eof

omit keeps in
/-- A sequence that goes on is not at an end mark. -/
theorem ne_eof_of_goes (goes : ¬ ends (Site.current s).token = true) :
    s.tally.current.token ≠ .eof := by
  intro here
  rw [show (Site.current s).token = .eof from here] at goes
  exact goes eof

/-- A sequence that does not end here goes on behind the next statement. -/
theorem statements_of_goes (goes : ¬ ends (Site.current s).token = true) (read : List Stmt) :
    statements ends reader read s =
      statements ends reader ((attempt reader s).1.toList ++ read) (attempt reader s).2 := by
  rw [statements, if_neg goes]
  exact if_pos (left_attempt_lt keeps (ne_eof_of_goes eof goes))

/-- A sequence tries statements from its own place on. -/
theorem grows_statements (read : List Stmt) (s : Journal) :
    s.Grows s.place (statements ends reader read s).2 := by
  -- the sequence has stopped, goes on, or met an attempt that took nothing
  fun_induction statements ends reader read s with
  | case1 read s stops => exact .refl s
  | case2 read s goes x t eq read' took ih =>
    have first := grows_attempt keeps (ne_eof_of_goes eof goes)
    rw [eq] at first
    exact first.trans (ih.mono first.place)
  | case3 read s goes x t eq read' none =>
    have first := grows_attempt keeps (ne_eof_of_goes eof goes)
    rw [eq] at first
    exact first

end

end Noting

/-! ## The readers of the grammar -/

open Noting

/-- A careful reader that starts at the place `lo`, if a token was taken before, or else one token
before it, is orderly. -/
theorem Reading.Careful.orderly_apply {α : Type} {taken : Prop} {s : Journal} {r : Noting α}
    (h : Careful (fun t => t ≠ .eof) taken s r) {lo : Nat} (above : taken → lo ≤ s.place)
    (near : lo ≤ s.place + 1) : Orderly lo s (r s) := by
  -- a step goes to the next place, so from there on `lo` is reached
  have stepped {s : Journal} {lo : Nat} (more : s.tally.current.token ≠ .eof)
      (near : lo ≤ s.place + 1) : lo ≤ (Site.step s).place :=
    Nat.le_trans near (Nat.le_of_eq (Tally.place_step more).symm)
  induction h generalizing lo with
  | pure a taken => exact .of_ok (.refl _) (above taken)
  | fail cause => exact .of_error (.refl _) rfl
  | @take _ s more =>
    exact .of_ok (.of_passed s.tally.passed_step) (stepped more near)
  | @take_bind _ _ s _ more _ ih =>
    have here := stepped more near
    exact (ih (fun _ => here) (Nat.le_succ_of_le here)).after (.of_passed s.tally.passed_step)
  | @step_bind _ _ s _ more _ ih =>
    have here := stepped more near
    exact (ih (fun _ => here) (Nat.le_succ_of_le here)).after (.of_passed s.tally.passed_step)
  | peek_bind _ ih => exact ih above near
  | at?_bind t _ ih => exact ih above near
  | insideLoop_bind told _ ih => exact ih above near
  | @nest_bind _ _ s f levels _ ih =>
    rw [bind_apply]
    by_cases full : maxNesting ≤ s.tally.nesting
    · rw [Journal.nest_of_full full]
      exact .of_error (.refl s) rfl
    · rw [Journal.nest_of_not_full full]
      have deeper := s.tally.passed_restoreNesting (s.tally.nesting + 1)
      exact (ih (s.goTo (s.tally.restoreNesting _)) rfl above near).after (.of_passed deeper)
  | restoring _ ih =>
    have inner := ih above near
    exact ⟨inner.grows.trans (.of_passed (Tally.passed_restoreNesting _ _)), inner.sited,
      inner.gains⟩
  | @looping _ _ s _ _ ih =>
    have inner := (ih above near).after (.of_passed s.tally.passed_enterLoop)
    exact ⟨inner.grows.trans (.of_passed (Tally.passed_exitLoop _)), inner.sited, inner.gains⟩
  | bind _ _ first last =>
    exact (first above near).bind fun a t here =>
      last a t (fun _ => here) (Nat.le_succ_of_le here)
  | @sequence _ s _ _ taken _ eof _ ih =>
    have inner := fun s : Journal => ih s False.elim (Nat.le_refl _)
    have body := grows_statements inner eof [] s
    exact .of_ok (body.mono (above taken)) (Nat.le_trans (above taken) body.place)

/-- A statement that is tried is orderly: it tries others only behind its first token, and has one
if it is read. -/
theorem orderly_trial (n : Nat) (inLoop : Bool) (s : Journal) :
    Orderly (s.place + 1) s (statement n inLoop (block n) s) :=
  (careful_statement (fun _ more => more) (careful_block (fun _ more => more) n)).orderly_apply
    False.elim (Nat.le_refl _)

/-- A whole program keeps its journal in order, from any place. -/
theorem orderly_program (n : Nat) (inLoop : Bool) (s : Journal) :
    Orderly (s.place + 1) s (program n inLoop s) :=
  (careful_program (fun _ more => more) n).orderly_apply False.elim (Nat.le_refl _)

end GujaratiScript
