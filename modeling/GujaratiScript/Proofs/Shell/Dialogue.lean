import GujaratiScript.Proofs.Shell.Sessions
import GujaratiScript.Shell.Command

/-!
# The loop over snippets in a session

* `snippets_draft_submit`, `snippets_draft_end` : what the loop does with the lines that are typed
  for one snippet;
* `snippets_of_begins`, `Session.Fits.snippets` : what it does in one stage of a session, and in a
  whole one;
* `session_takes_each_line_once` : the main statement.
-/

namespace GujaratiScript

/-! ## The loop -/

section

variable {rounds : Nat}

/-- A word that leaves ends the loop, unless there are lines of a snippet. -/
theorem snippets_exit {line : String} (h : isExit line = true) (rest : List String) :
    snippets rounds [] (line :: rest) = some [.out ">>> "] := by
  rw [isExit, beq_iff_eq] at h
  rw [snippets, trimmed_withoutLineEnd]
  simp [h]

/-- A blank line is passed over, unless there are lines of a snippet. -/
theorem snippets_blank {line : String} (h : isBlankLine line = true) (rest : List String) :
    snippets rounds [] (line :: rest) = shownFirst [.out ">>> "] (snippets rounds [] rest) := by
  rw [isBlankLine, beq_iff_eq] at h
  rw [snippets, trimmed_withoutLineEnd, h]
  simp [shownFirst]

/-- A line that is not blank is held, unless it is a word that leaves and the first line. -/
theorem snippets_visible {held : List String} {line : String} (h : isBlankLine line = false)
    (stays : held = [] → isExit line = false) (rest : List String) :
    snippets rounds held (line :: rest) =
      shownFirst [.out (if held.isEmpty then ">>> " else "... ")]
        (snippets rounds (withoutLineEnd line :: held) rest) := by
  rw [isBlankLine, beq_eq_false_iff_ne] at h
  simp only [isExit, beq_eq_false_iff_ne] at stays
  have stays : ¬ (held.isEmpty ∧ trimmed line = ".exit") := by
    rintro ⟨empty, leaves⟩
    exact stays (List.isEmpty_iff.1 empty) leaves
  rw [snippets, trimmed_withoutLineEnd, if_neg stays, if_neg h]
  rfl

/-- A blank line submits the lines that are held. -/
theorem snippets_submit {held : List String} (ne : held ≠ []) {submit : String}
    (h : isBlankLine submit = true) (rest : List String) :
    snippets rounds held (submit :: rest) =
      match runSnippet rounds ("\n".intercalate held.reverse) rest with
      | none => none
      | some (events, read) =>
        shownFirst (.out "... " :: events) (snippets rounds [] (rest.drop read)) := by
  rw [isBlankLine, beq_iff_eq] at h
  rw [snippets, trimmed_withoutLineEnd, h]
  simp only [List.isEmpty_iff, ne, false_and, if_false, if_true]
  rfl

/-- The end of the input submits the lines that are held. -/
theorem snippets_end {held : List String} (ne : held ≠ []) :
    snippets rounds held [] =
      match runSnippet rounds ("\n".intercalate held.reverse) [] with
      | none => none
      | some (events, _) => some (.out "... " :: .out "\n" :: events ++ [.out "\n"]) := by
  have some : held.isEmpty = false := by simpa using ne
  rw [snippets, some]
  rcases runSnippet rounds ("\n".intercalate held.reverse) [] with _ | ⟨events, read⟩ <;> rfl

/-- Blank lines in front of a snippet are passed over. -/
theorem snippets_blanks {blanks : List String} (h : ∀ line ∈ blanks, isBlankLine line = true)
    (rest : List String) :
    snippets rounds [] (blanks ++ rest) =
      shownFirst (blanks.map fun _ => .out ">>> ") (snippets rounds [] rest) := by
  induction blanks with
  | nil => exact (shownFirst_nil _).symm
  | cons line blanks ih =>
    obtain ⟨blank, others⟩ := List.forall_mem_cons.1 h
    rw [List.cons_append, snippets_blank blank, ih others, ← shownFirst_append]
    rfl

/-- The lines behind the first one of a snippet are held. -/
theorem snippets_more {held more : List String} (ne : held ≠ [])
    (h : ∀ line ∈ more, isBlankLine line = false) (rest : List String) :
    snippets rounds held (more ++ rest) =
      shownFirst (more.map fun _ => .out "... ")
        (snippets rounds ((more.map withoutLineEnd).reverse ++ held) rest) := by
  induction more generalizing held with
  | nil => exact (shownFirst_nil _).symm
  | cons line more ih =>
    obtain ⟨visible, others⟩ := List.forall_mem_cons.1 h
    have some : held.isEmpty = false := by simpa using ne
    have all : ((line :: more).map withoutLineEnd).reverse ++ held =
        (more.map withoutLineEnd).reverse ++ withoutLineEnd line :: held := by simp
    rw [List.cons_append, snippets_visible visible (fun none => absurd none ne), some,
      ih (List.cons_ne_nil _ _) others, ← shownFirst_append, all]
    rfl

/-- The lines that are typed for a snippet are held, but for the blank ones. -/
theorem snippets_draft {e : Draft} (h : e.Proper) (tail : List String) :
    snippets rounds [] (e.lines ++ tail) =
      shownFirst e.prompts (snippets rounds (e.body.map withoutLineEnd).reverse tail) := by
  obtain ⟨first, more⟩ := List.forall_mem_cons.1 h.body
  rw [e.lines_append, snippets_blanks h.blanks, snippets_visible first (fun _ => h.first),
    snippets_more (List.cons_ne_nil _ _) more, ← shownFirst_append, ← shownFirst_append,
    Draft.body, List.map_cons, List.reverse_cons, List.append_assoc]
  rfl

/-- A snippet that is submitted by a blank line is run with the lines behind it. -/
theorem snippets_draft_submit {e : Draft} (h : e.Proper) {submit : String}
    (blank : isBlankLine submit = true) (ahead : List String) :
    snippets rounds [] (e.lines ++ submit :: ahead) =
      match runSnippet rounds e.text ahead with
      | none => none
      | some (events, read) =>
        shownFirst (e.prompts ++ .out "... " :: events) (snippets rounds [] (ahead.drop read)) := by
  have ne : (e.body.map withoutLineEnd).reverse ≠ [] := by simp [Draft.body]
  rw [snippets_draft h, snippets_submit ne blank, List.reverse_reverse, ← Draft.text]
  rcases runSnippet rounds e.text ahead with _ | ⟨events, read⟩
  · rfl
  · exact (shownFirst_append _ _ _).symm

/-- A snippet that is submitted because the input is over is run with no lines. -/
theorem snippets_draft_end {e : Draft} (h : e.Proper) :
    snippets rounds [] e.lines =
      match runSnippet rounds e.text [] with
      | none => none
      | some (events, _) =>
        some (e.prompts ++ .out "... " :: .out "\n" :: events ++ [.out "\n"]) := by
  have ne : (e.body.map withoutLineEnd).reverse ≠ [] := by simp [Draft.body]
  have loop : snippets rounds [] (e.lines ++ []) = _ := snippets_draft h []
  rw [List.append_nil, snippets_end ne, List.reverse_reverse, ← Draft.text] at loop
  rw [loop]
  rcases runSnippet rounds e.text [] with _ | ⟨events, read⟩
  · rfl
  · simp

/-- What the loop shows from some stage of a session on. -/
def Stage.events? (rounds : Nat) : Stage → Option (List Event)
  | last ending _ => ending.events?
  | next x rest => shownFirst x.events (snippets rounds [] rest)

/-- What the loop does in one stage of a session. -/
theorem snippets_of_begins {lines : List String} {stage : Stage} (h : Begins rounds lines stage) :
    snippets rounds [] lines = stage.events? rounds := by
  -- the loop is followed through the lines of each way to begin
  cases h with
  | atEnd blank =>
    have loop : snippets rounds [] (lines ++ []) = _ := snippets_blanks blank []
    rw [List.append_nil, snippets] at loop
    exact loop
  | exit behind blank leaves =>
    rw [snippets_blanks blank, snippets_exit leaves]
    rfl
  | @cutOff e shown proper ran =>
    have run : runSnippet rounds e.text [] = _ := ran.runSnippet
    rw [snippets_draft_end proper, run]
    rfl
  | @endless e submit rest proper blank none endless =>
    cases submit with
    | none =>
      obtain rfl := none rfl
      rw [Option.toList_none, List.nil_append, List.append_nil, snippets_draft_end proper,
        endless.runSnippet]
      rfl
    | some submit =>
      rw [Option.toList_some, List.singleton_append,
        snippets_draft_submit proper (by simpa using blank), endless.runSnippet]
      rfl
  | @exchange x rest proper blank ran =>
    rw [x.lines_append, snippets_draft_submit proper blank, ran.runSnippet]
    dsimp only
    rw [List.drop_left]
    rfl

/-- The loop goes through a session. -/
theorem Session.Fits.snippets {s : Session} {l : List String} (h : s.Fits rounds l) :
    snippets rounds [] l = s.events? := by
  induction h with
  | last begins =>
    rw [snippets_of_begins begins]
    exact (shownFirst_nil _).symm
  | next begins _ ih =>
    rw [snippets_of_begins begins, Stage.events?, ih, Session.events?, ← shownFirst_append]
    rfl

end

/-- The loop over snippets and the programs that it runs share the lines of the input out between
them. Over any input there is one session, and it takes the lines from the first one on, each of
them once, up to the line that ends it. The snippets that are submitted in it are the runs of lines
that are not blank among the lines that are typed for the loop. What the command shows is what the
session shows, if that ends, and a larger allowance does not change it then. -/
theorem session_takes_each_line_once (rounds : Nat) (files : Files) (input : String) :
    ∃ s : Session, (∀ t : Session, t.Fits rounds (inputLines input) ↔ t = s) ∧
      inputLines input = s.lines ++ s.behind ∧
      runsOf s.typed = s.submitted ∧
      (Command.snippets.perform rounds files input =
        s.events?.map fun events => ⟨0, .out greeting :: events, files, true⟩) ∧
      (s.ending.events? ≠ none → ∀ n, rounds ≤ n → s.Fits n (inputLines input)) := by
  obtain ⟨s, fits⟩ := Session.exists_fits rounds (inputLines input)
  refine ⟨s, fun t => ⟨fits.unique, ?_⟩, fits.lines_eq, fits.runsOf_typed, ?_,
    fun ends n le => fits.mono le ends⟩
  · rintro rfl
    exact fits
  · rw [Command.perform, snippetLoop, fits.snippets, Option.map_map]
    rfl

end GujaratiScript
