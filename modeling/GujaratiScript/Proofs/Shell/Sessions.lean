import GujaratiScript.Proofs.Shell.Submission

/-!
# Sessions with the loop over snippets

The loop and the programs that it runs read the same lines. A session shares these out: some are
typed for the loop, and behind each snippet that is submitted some are read by its program.

* `Draft`, `Exchange`, `Ending` : the lines typed for one snippet, a snippet that is submitted with
  the lines that its program reads, and how a session ends;
* `Begins`, `Session.Fits` : how a session over some lines begins, by an exchange or by its ending,
  and the whole of it, one exchange after the other;
* `Begins.unique`, `Session.exists_fits`, `Session.Fits.unique` : there is one session over any
  lines;
* `Session.Fits.lines_eq` : it takes the lines in order, each of them once;
* `Session.Fits.runsOf_typed` : its snippets are the runs of lines that are not blank among those
  that are typed.
-/

namespace GujaratiScript

/-! ## Lines of the shell -/

/-- Nothing but white space stands in the line. -/
def isBlankLine (line : String) : Bool := trimmed line == ""

/-- The line is the word that leaves, apart from white space around it. -/
def isExit (line : String) : Bool := trimmed line == ".exit"

theorem isBlankLine_of_isExit {line : String} (h : isExit line = true) :
    isBlankLine line = false := by
  rw [isExit, beq_iff_eq] at h
  rw [isBlankLine, h]
  decide

/-- What ends a line is white space, so it does not matter to what the line is without. -/
theorem trimmed_withoutLineEnd (line : String) : trimmed (withoutLineEnd line) = trimmed line := by
  obtain ⟨ws, white, parts⟩ : ∃ ws, (∀ c ∈ ws, Unicode.isWhite c = true) ∧
      line.toList = (withoutLineEnd line).toList ++ ws := by
    refine ⟨(line.toList.reverse.takeWhile fun c => c == '\n' || c == '\r').reverse, ?_, ?_⟩
    · intro c mem
      have isBreak := List.mem_takeWhile_imp (List.mem_reverse.1 mem)
      rw [Bool.or_eq_true, beq_iff_eq, beq_iff_eq] at isBreak
      obtain rfl | rfl := isBreak <;> decide
    · rw [withoutLineEnd, String.toList_ofList, ← List.reverse_append,
        List.takeWhile_append_dropWhile, List.reverse_reverse]
  unfold trimmed
  rw [parts, List.dropWhile_append]
  -- the white space is dropped from the front if there is nothing else, and else from the back
  split
  · rename_i empty
    rw [List.isEmpty_iff.1 empty, List.dropWhile_eq_nil_iff.2 white]
  · dsimp only
    rw [List.reverse_append, List.dropWhile_append_of_pos]
    intro c mem
    exact white c (List.mem_reverse.1 mem)

/-! ## What is shown -/

/-- What is shown by something that may not end, if `events` are shown first. -/
def shownFirst (events : List Event) (later : Option (List Event)) : Option (List Event) :=
  later.map (events ++ ·)

@[simp] theorem shownFirst_nil (later : Option (List Event)) : shownFirst [] later = later := by
  cases later <;> rfl

@[simp] theorem shownFirst_some (events later : List Event) :
    shownFirst events (some later) = some (events ++ later) := rfl

theorem shownFirst_append (events events' : List Event) (later : Option (List Event)) :
    shownFirst (events ++ events') later = shownFirst events (shownFirst events' later) := by
  cases later with
  | none => rfl
  | some later => simp

/-! ## Stages of a session -/

/-- The lines that are typed for one snippet: blank ones, and then those of the snippet. -/
structure Draft where
  blanks : List String
  first : String
  more : List String

namespace Draft

/-- The lines of the snippet. -/
def body (e : Draft) : List String := e.first :: e.more

def lines (e : Draft) : List String := e.blanks ++ e.body

/-- The snippet itself: its lines without what ends them, joined by line breaks. -/
def text (e : Draft) : String := "\n".intercalate (e.body.map withoutLineEnd)

/-- Only the lines before the snippet are blank, and the snippet does not begin by leaving. -/
structure Proper (e : Draft) : Prop where
  blanks : ∀ line ∈ e.blanks, isBlankLine line = true
  body : ∀ line ∈ e.body, isBlankLine line = false
  first : isExit e.first = false

/-- One prompt for each line. -/
def prompts (e : Draft) : List Event :=
  e.blanks.map (fun _ => .out ">>> ") ++ .out ">>> " :: e.more.map fun _ => .out "... "

end Draft

/-- A snippet that is submitted by a line, with the lines that its program reads and with what is
shown of its run. -/
structure Exchange where
  draft : Draft
  submit : String
  read : List String
  shown : List Event

namespace Exchange

/-- The lines that are typed for the loop. -/
def typed (x : Exchange) : List String := x.draft.lines ++ [x.submit]

def lines (x : Exchange) : List String := x.typed ++ x.read

/-- The prompts, and then what is shown of the run. -/
def events (x : Exchange) : List Event := x.draft.prompts ++ .out "... " :: x.shown

end Exchange

/-- How a session ends. -/
inductive Ending where
  /-- The input is over, behind blank lines at most. -/
  | atEnd (blanks : List String)
  /-- A line leaves. -/
  | exit (blanks : List String) (line : String)
  /-- The input is over behind a snippet, which is run. -/
  | cutOff (draft : Draft) (shown : List Event)
  /-- A snippet is submitted, by a line or because the input is over, and its program does not end
  within the allowance. -/
  | endless (draft : Draft) (submit : Option String)

namespace Ending

def lines : Ending → List String
  | atEnd blanks => blanks
  | exit blanks line => blanks ++ [line]
  | cutOff draft _ => draft.lines
  | endless draft submit => draft.lines ++ submit.toList

/-- The lines that are typed for the loop, except for one that leaves. -/
def typed : Ending → List String
  | atEnd blanks | exit blanks _ => blanks
  | cutOff draft _ => draft.lines
  | endless draft submit => draft.lines ++ submit.toList

/-- The lines of the snippet that is submitted last, if the session does not end without. -/
def body? : Ending → Option (List String)
  | atEnd _ | exit _ _ => none
  | cutOff draft _ | endless draft _ => some draft.body

/-- What is shown, unless there is no end. -/
def events? : Ending → Option (List Event)
  | atEnd blanks => some (blanks.map (fun _ => .out ">>> ") ++ [.out ">>> ", .out "\n"])
  | exit blanks _ => some (blanks.map (fun _ => .out ">>> ") ++ [.out ">>> "])
  | cutOff draft shown => some (draft.prompts ++ .out "... " :: .out "\n" :: shown ++ [.out "\n"])
  | endless _ _ => none

end Ending

/-- The first stage of a session over some lines, with the lines behind it. -/
inductive Stage where
  | last (ending : Ending) (behind : List String)
  | next (x : Exchange) (rest : List String)

/-- How a session over some lines begins. -/
inductive Begins (rounds : Nat) : List String → Stage → Prop
  | atEnd {blanks : List String} :
      (∀ line ∈ blanks, isBlankLine line = true) → Begins rounds blanks (.last (.atEnd blanks) [])
  | exit {blanks : List String} {line : String} (behind : List String) :
      (∀ line ∈ blanks, isBlankLine line = true) → isExit line = true →
      Begins rounds (blanks ++ line :: behind) (.last (.exit blanks line) behind)
  | cutOff {e : Draft} {shown : List Event} :
      e.Proper → Ran rounds e.text [] [] shown → Begins rounds e.lines (.last (.cutOff e shown) [])
  | endless {e : Draft} {submit : Option String} {rest : List String} :
      e.Proper → (∀ line ∈ submit, isBlankLine line = true) → (submit = none → rest = []) →
      Endless rounds e.text rest →
      Begins rounds (e.lines ++ (submit.toList ++ rest)) (.last (.endless e submit) rest)
  | exchange {x : Exchange} {rest : List String} :
      x.draft.Proper → isBlankLine x.submit = true →
      Ran rounds x.draft.text x.read rest x.shown →
      Begins rounds (x.lines ++ rest) (.next x rest)

/-! ## One beginning only -/

/-- What becomes of a snippet, given what stands behind its lines: nothing, or the line that submits
it and those that its program may read. -/
def Draft.submitted (rounds : Nat) (e : Draft) : List String → Stage
  | [] =>
    match runSnippet rounds e.text [] with
    | none => .last (.endless e none) []
    | some (shown, _) => .last (.cutOff e shown) []
  | submit :: ahead =>
    match runSnippet rounds e.text ahead with
    | none => .last (.endless e (some submit)) ahead
    | some (shown, n) => .next ⟨e, submit, ahead.take n, shown⟩ (ahead.drop n)

/-- How a session over the lines begins, found by looking for blank lines and for others. -/
def firstStage (rounds : Nat) (lines : List String) : Stage :=
  let blanks := lines.takeWhile isBlankLine
  match lines.dropWhile isBlankLine with
  | [] => .last (.atEnd blanks) []
  | first :: later =>
    if isExit first then .last (.exit blanks first) later
    else
      Draft.submitted rounds ⟨blanks, first, later.takeWhile fun line => !isBlankLine line⟩
        (later.dropWhile fun line => !isBlankLine line)

section

variable {rounds : Nat} {lines : List String} {stage stage' : Stage}

theorem Draft.lines_append (e : Draft) (tail : List String) :
    e.lines ++ tail = e.blanks ++ e.first :: (e.more ++ tail) := by
  rw [lines, body, List.append_assoc, List.cons_append]

theorem Exchange.lines_append (x : Exchange) (rest : List String) :
    x.lines ++ rest = x.draft.lines ++ x.submit :: (x.read ++ rest) := by
  rw [lines, typed, List.append_assoc, List.append_assoc, List.singleton_append]

/-- Lines of one kind are cut off in front of a line that is not of this kind, or at the end. -/
theorem span_append {p : String → Bool} {front after : List String}
    (h : ∀ line ∈ front, p line = true) (stops : ∀ line ∈ after.head?, p line = false) :
    (front ++ after).takeWhile p = front ∧ (front ++ after).dropWhile p = after := by
  rw [List.takeWhile_append_of_pos h, List.dropWhile_append_of_pos h]
  cases after with
  | nil => exact ⟨List.append_nil _, rfl⟩
  | cons line rest =>
    have other : ¬ p line = true := by
      rw [stops line rfl]
      exact Bool.false_ne_true
    rw [List.takeWhile_cons_of_neg other, List.dropWhile_cons_of_neg other, List.append_nil]
    exact ⟨rfl, rfl⟩

/-- All lines can be cut in this way. -/
theorem exists_span (p : String → Bool) (lines : List String) :
    ∃ front after, lines = front ++ after ∧ (∀ line ∈ front, p line = true) ∧
      ∀ line ∈ after.head?, p line = false := by
  refine ⟨lines.takeWhile p, lines.dropWhile p, List.takeWhile_append_dropWhile.symm,
    fun line mem => List.mem_takeWhile_imp mem, fun line mem => ?_⟩
  have stops := List.head?_dropWhile_not p lines
  rw [Option.mem_def.1 mem] at stops
  simpa using stops

/-- Behind the lines that are typed for a snippet the input is over or goes on with a blank line. -/
theorem firstStage_draft (rounds : Nat) {e : Draft} (h : e.Proper) (tail : List String)
    (blank : ∀ line ∈ tail.head?, isBlankLine line = true) :
    firstStage rounds (e.lines ++ tail) = e.submitted rounds tail := by
  obtain ⟨first, more⟩ := List.forall_mem_cons.1 h.body
  have visible : ∀ line ∈ (e.first :: (e.more ++ tail)).head?, isBlankLine line = false := by
    simpa using first
  have body : ∀ line ∈ e.more, (!isBlankLine line) = true := by simpa using more
  have stops : ∀ line ∈ tail.head?, (!isBlankLine line) = false := by simpa using blank
  obtain ⟨cut, rest⟩ := span_append h.blanks visible
  obtain ⟨cut', rest'⟩ := span_append body stops
  unfold firstStage
  rw [e.lines_append, cut, rest]
  dsimp only
  rw [if_neg (by simp [h.first]), cut', rest']

theorem Begins.eq_firstStage (h : Begins rounds lines stage) : stage = firstStage rounds lines := by
  -- each beginning determines the stage that is computed from its lines
  cases h with
  | atEnd blank =>
    unfold firstStage
    rw [List.dropWhile_eq_nil_iff.2 blank, List.takeWhile_eq_self_iff.2 blank]
  | @exit blanks line behind blank leaves =>
    have visible : ∀ line' ∈ (line :: behind).head?, isBlankLine line' = false := by
      simpa using isBlankLine_of_isExit leaves
    obtain ⟨cut, rest⟩ := span_append blank visible
    unfold firstStage
    rw [cut, rest]
    dsimp only
    rw [if_pos leaves]
  | @cutOff e shown proper ran =>
    have run : runSnippet rounds e.text [] = _ := ran.runSnippet
    have same := firstStage_draft rounds proper [] nofun
    rw [List.append_nil, Draft.submitted, run] at same
    exact same.symm
  | @endless e submit rest proper blank none endless =>
    cases submit with
    | none =>
      obtain rfl := none rfl
      rw [Option.toList_none, List.nil_append, firstStage_draft rounds proper [] nofun,
        Draft.submitted, endless.runSnippet]
    | some submit =>
      rw [Option.toList_some, List.singleton_append,
        firstStage_draft rounds proper _ (by simpa using blank), Draft.submitted,
        endless.runSnippet]
  | @exchange x rest proper blank ran =>
    rw [x.lines_append, firstStage_draft rounds proper _ (by simpa using blank), Draft.submitted,
      ran.runSnippet]
    dsimp only
    rw [List.take_left, List.drop_left]

/-- A session over some lines begins in one way only. -/
theorem Begins.unique (h : Begins rounds lines stage) (h' : Begins rounds lines stage') :
    stage' = stage :=
  h'.eq_firstStage.trans h.eq_firstStage.symm

/-- A snippet that stands before a blank line, or at the end, is submitted. -/
theorem exists_begins_draft (rounds : Nat) {e : Draft} (h : e.Proper) (tail : List String)
    (blank : ∀ line ∈ tail.head?, isBlankLine line = true) :
    ∃ stage, Begins rounds (e.lines ++ tail) stage := by
  cases tail with
  | nil =>
    obtain ⟨read, rest, shown, parts, ran⟩ | endless := ran_or_endless rounds e.text []
    · obtain ⟨rfl, rfl⟩ := List.append_eq_nil_iff.1 parts.symm
      rw [List.append_nil]
      exact ⟨_, .cutOff h ran⟩
    · exact ⟨_, @Begins.endless rounds e none [] h nofun (fun _ => rfl) endless⟩
  | cons submit ahead =>
    have closes : isBlankLine submit = true := blank submit rfl
    obtain ⟨read, rest, shown, rfl, ran⟩ | endless := ran_or_endless rounds e.text ahead
    · have begins := @Begins.exchange rounds ⟨e, submit, read, shown⟩ rest h closes ran
      rw [Exchange.lines_append] at begins
      exact ⟨_, begins⟩
    · exact ⟨_, @Begins.endless rounds e (some submit) ahead h (by simpa using closes) nofun
        endless⟩

/-- A session begins over any lines. -/
theorem exists_begins (rounds : Nat) (lines : List String) :
    ∃ stage, Begins rounds lines stage := by
  obtain ⟨blanks, after, rfl, blank, stops⟩ := exists_span isBlankLine lines
  cases after with
  | nil =>
    rw [List.append_nil]
    exact ⟨_, .atEnd blank⟩
  | cons first later =>
    by_cases leaves : isExit first = true
    · exact ⟨_, .exit later blank leaves⟩
    · obtain ⟨more, tail, rfl, visible, stops'⟩ :=
        exists_span (fun line => !isBlankLine line) later
      have body : ∀ line ∈ first :: more, isBlankLine line = false :=
        List.forall_mem_cons.2 ⟨stops first rfl, by simpa using visible⟩
      have proper : Draft.Proper ⟨blanks, first, more⟩ := ⟨blank, body, by simpa using leaves⟩
      have begins := exists_begins_draft rounds proper tail (by simpa using stops')
      rwa [Draft.lines_append] at begins

/-- Behind an exchange there are fewer lines. -/
theorem Begins.length_lt {x : Exchange} {rest : List String}
    (h : Begins rounds lines (.next x rest)) : rest.length < lines.length := by
  cases h
  simp only [Exchange.lines, Exchange.typed, List.length_append, List.length_singleton]
  omega

end

/-! ## Sessions -/

/-- The exchanges of a session, its ending and the lines behind that. -/
structure Session where
  exchanges : List Exchange
  ending : Ending
  behind : List String

namespace Session

/-- A session with one more exchange in front. -/
def cons (x : Exchange) (s : Session) : Session := ⟨x :: s.exchanges, s.ending, s.behind⟩

/-- All lines up to the end of the session. -/
def lines (s : Session) : List String := s.exchanges.flatMap Exchange.lines ++ s.ending.lines

/-- The lines that are typed for the loop, except for one that leaves. -/
def typed (s : Session) : List String := s.exchanges.flatMap Exchange.typed ++ s.ending.typed

/-- The lines of each snippet that is submitted. -/
def submitted (s : Session) : List (List String) :=
  s.exchanges.map (fun x => x.draft.body) ++ s.ending.body?.toList

/-- What is shown, unless there is no end. -/
def events? (s : Session) : Option (List Event) :=
  shownFirst (s.exchanges.flatMap Exchange.events) s.ending.events?

/-- The session is one over the given lines. -/
inductive Fits (rounds : Nat) : Session → List String → Prop
  | last {lines behind : List String} {ending : Ending} :
      Begins rounds lines (.last ending behind) → Fits rounds ⟨[], ending, behind⟩ lines
  | next {s : Session} {x : Exchange} {lines rest : List String} :
      Begins rounds lines (.next x rest) → Fits rounds s rest → Fits rounds (s.cons x) lines

variable {rounds : Nat} {s t : Session} {l : List String}

theorem exists_fits (rounds : Nat) (l : List String) : ∃ s : Session, s.Fits rounds l := by
  induction size : l.length using Nat.strongRecOn generalizing l with
  | ind n ih =>
    subst size
    obtain ⟨_ | ⟨x, rest⟩, begins⟩ := exists_begins rounds l
    · exact ⟨_, .last begins⟩
    · obtain ⟨s, fits⟩ := ih rest.length begins.length_lt rest rfl
      exact ⟨_, .next begins fits⟩

/-- Only one session is one over the given lines. -/
theorem Fits.unique (h : s.Fits rounds l) (h' : t.Fits rounds l) : t = s := by
  induction h generalizing t with
  | last begins =>
    cases h' with
    | last begins' =>
      cases begins.unique begins'
      rfl
    | next begins' _ => cases begins.unique begins'
  | next begins _ ih =>
    cases h' with
    | last begins' => cases begins.unique begins'
    | next begins' fits =>
      cases begins.unique begins'
      rw [ih fits]

/-- No line is lost and none is used twice. -/
theorem Fits.lines_eq (h : s.Fits rounds l) : l = s.lines ++ s.behind := by
  induction h with
  | last begins => cases begins <;> simp [lines, Ending.lines]
  | next begins _ ih =>
    cases begins
    rw [ih]
    simp [lines, cons]

/-- A larger allowance changes nothing in a session that ends. -/
theorem Fits.mono {n : Nat} (h : s.Fits rounds l) (le : rounds ≤ n)
    (ends : s.ending.events? ≠ none) : s.Fits n l := by
  induction h with
  | last begins =>
    cases begins with
    | atEnd blank => exact .last (.atEnd blank)
    | exit _ blank leaves => exact .last (.exit _ blank leaves)
    | cutOff proper ran => exact .last (.cutOff proper (ran.mono le))
    | endless => exact absurd rfl ends
  | next begins _ ih =>
    cases begins with
    | exchange proper blank ran => exact .next (.exchange proper blank (ran.mono le)) (ih ends)

end Session

/-! ## Runs of lines -/

/-- The runs of lines that are not blank, each of them as long as possible. -/
def runsOf (lines : List String) : List (List String) :=
  (lines.splitOnP isBlankLine).filter fun run => !run.isEmpty

/-- Blank lines in front belong to no run. -/
theorem runsOf_blanks {blanks : List String} (h : ∀ line ∈ blanks, isBlankLine line = true)
    (rest : List String) : runsOf (blanks ++ rest) = runsOf rest := by
  induction blanks with
  | nil => rfl
  | cons line blanks ih =>
    obtain ⟨blank, others⟩ := List.forall_mem_cons.1 h
    rw [← ih others, runsOf, List.cons_append, List.splitOnP_cons_eq_if_modifyHead, if_pos blank]
    rfl

/-- The lines of a snippet are a run. -/
theorem runsOf_draft {e : Draft} (h : e.Proper) : runsOf e.lines = [e.body] := by
  rw [Draft.lines, runsOf_blanks h.blanks, runsOf, List.splitOnP_eq_singleton h.body]
  rfl

/-- The lines of a snippet in front of a blank line are a run. -/
theorem runsOf_draft_submit {e : Draft} (h : e.Proper) {submit : String}
    (blank : isBlankLine submit = true) (rest : List String) :
    runsOf (e.lines ++ submit :: rest) = e.body :: runsOf rest := by
  rw [Draft.lines, List.append_assoc, runsOf_blanks h.blanks, runsOf,
    List.splitOnP_append_cons_of_forall_mem h.body _ blank]
  rfl

/-- The snippets that are submitted are the runs of the lines that are typed. -/
theorem Session.Fits.runsOf_typed {rounds : Nat} {s : Session} {l : List String}
    (h : s.Fits rounds l) : runsOf s.typed = s.submitted := by
  induction h with
  | last begins =>
    show runsOf (Ending.typed _) = (Ending.body? _).toList
    cases begins with
    | atEnd blank | exit _ blank _ =>
      have none := runsOf_blanks blank []
      rwa [List.append_nil] at none
    | cutOff proper _ => exact runsOf_draft proper
    | @endless e submit _ proper blank _ _ =>
      cases submit with
      | none =>
        rw [Ending.typed, Option.toList_none, List.append_nil]
        exact runsOf_draft proper
      | some submit => exact runsOf_draft_submit proper (by simpa using blank) []
  | @next s x _ _ begins _ ih =>
    cases begins with
    | exchange proper blank _ =>
      have typed : (s.cons x).typed = x.draft.lines ++ x.submit :: s.typed := by
        simp [Session.typed, Session.cons, Exchange.typed]
      rw [typed, runsOf_draft_submit proper blank, ih]
      rfl

/-- Inside of a snippet a word that leaves is a line like any other. -/
example : runsOf ["\n", "bhai bol 1\n", " .exit\n", " \t\n"] = [["bhai bol 1\n", " .exit\n"]] := by
  decide

end GujaratiScript
