import GujaratiScript.Proofs.Counting.Moves

/-!
# Reading with a journal

A `Journal` is a tally with the places where a statement was tried, and the faults that were met,
each with the place where it was met. It is read from as the tally in it is, and grows only where
a statement is tried and where its fault is reported.

* `Journal` : the state, which is read from as it is; `Noting` : a reader of something that keeps a
  journal;
* `matching_tally` : the journal changes nothing of what is read;
* `Tally.placedFaults` : the faults of a whole sequence with their places.
-/

namespace GujaratiScript

/-- A tally with the places where statements were tried, first to last, and the faults met, each
behind the place where it was met. -/
structure Journal where
  tally : Tally
  tried : List Nat
  met : List (Nat × ParseFault)

namespace Journal

/-- A journal with nothing in it yet. -/
def blank (s : Tally) : Journal := ⟨s, [], []⟩

/-- The place reached. -/
def place (s : Journal) : Nat := s.tally.place

/-- The journal with nothing more in it, and another tally. -/
def goTo (s : Journal) (t : Tally) : Journal := ⟨t, s.tried, s.met⟩

/-- Notes that a statement is tried here. -/
def noteTrial (s : Journal) : Journal := ⟨s.tally, s.tried ++ [s.place], s.met⟩

/-- Reports a fault and notes that it was met here. -/
def noteFault (s : Journal) (fault : ParseFault) : Journal :=
  ⟨s.tally.report fault, s.tried, s.met ++ [(s.place, fault)]⟩

/-- Goes on after a fault of the statement that began at `start`. -/
def recover (s : Journal) (start : Nat) : Journal := s.goTo (s.tally.recover start)

/-- A journal is read from as its tally. A trial is noted before it begins, and its fault before
reading goes on. -/
instance siteJournal : Site Journal where
  current s := s.tally.current
  step s := s.goTo s.tally.step
  left s := s.tally.left
  nest _ span s := ((s.tally.nest span).1, s.goTo (s.tally.nest span).2)
  restore start s := s.goTo (s.tally.restoreNesting start.tally.nesting)
  enterLoop s := s.goTo s.tally.enterLoop
  exitLoop s := s.goTo s.tally.exitLoop
  insideLoop told s := Site.insideLoop told s.tally
  trial := noteTrial
  resume start fault s := (s.noteFault fault).recover start.place
  nest_eq_error {levels _ s _} h := @Site.nest_eq_error Tally _ levels _ s.tally _ h

variable {s : Journal}

/-- With no level left, no deeper level is entered. -/
theorem nest_of_full (full : maxNesting ≤ s.tally.nesting) (levels : Nat) (span : Span) :
    Reading.nest levels span s = (.error ⟨.nestingTooDeep maxNesting, span⟩, s) := by
  show ((s.tally.nest span).1, s.goTo (s.tally.nest span).2) = _
  rw [Tally.nest, if_pos full]
  rfl

/-- With a level left, nesting goes one deeper. -/
theorem nest_of_not_full (more : ¬ maxNesting ≤ s.tally.nesting) (levels : Nat) (span : Span) :
    Reading.nest levels span s =
      (.ok (), s.goTo (s.tally.restoreNesting (s.tally.nesting + 1))) := by
  show ((s.tally.nest span).1, s.goTo (s.tally.nest span).2) = _
  rw [Tally.nest, if_neg more]

end Journal

/-- Reads a value and keeps a journal, or meets a fault. -/
abbrev Noting (α : Type) := ReadingFrom Journal α

/-- Without the journal, everything is read as with it. -/
theorem matching_tally :
    Reading.Matching.Trials (fun _ => True) (fun (s : Journal) (t : Tally) => t = s.tally) where
  current := by
    rintro s _ rfl
    rfl
  seen _ := trivial
  step := by
    rintro s _ rfl
    rfl
  nest := by
    rintro s _ levels span rfl
    exact ⟨rfl, rfl⟩
  restore := by
    rintro s s' _ _ rfl rfl
    rfl
  enterLoop := by
    rintro s _ rfl
    rfl
  exitLoop := by
    rintro s _ rfl
    rfl
  insideLoop := by
    rintro s _ told rfl
    rfl
  trial := by
    rintro s _ rfl
    rfl
  resume := by
    rintro s s' _ _ fault rfl rfl -
    rfl
  left := by
    rintro s s' _ _ rfl rfl
    exact Iff.rfl

/-! ## Whole sequences -/

/-- The journal after a reading, with the fault that has ended it. -/
def Noting.closing {α : Type} : Except ParseFault α × Journal → Journal
  | (.ok _, s) => s
  | (.error fault, s) => s.noteFault fault

namespace Tally

/-- The journal of a whole sequence, with the program or the fault that its reading ends with. -/
def chronicle (s : Tally) : Except ParseFault Program × Journal :=
  program maxNesting false (Journal.blank s.fresh)

/-- All faults of a whole sequence, first to last, each behind the place where it is met. -/
def placedFaults (s : Tally) : List (Nat × ParseFault) := (Noting.closing s.chronicle).met

end Tally

end GujaratiScript
