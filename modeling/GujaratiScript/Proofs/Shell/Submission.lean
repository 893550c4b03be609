import GujaratiScript.Proofs.Run.Rounds
import GujaratiScript.Proofs.Run.Unread
import GujaratiScript.Proofs.Shell.Fences

/-!
# Submitted snippets

A snippet is run with the lines behind it as its input. It reads some of them from the first one on
and leaves the others to the shell.

* `Program.Consumes` : a program ends after reading some of the lines ahead, and the others play no
  part;
* `Ran` : a snippet is run, with the lines that it reads and with what is shown;
* `Endless` : the program of a snippet does not end within the allowance;
* `ran_or_endless` : one of both holds of every snippet, and `Ran.runSnippet`, `Endless.runSnippet`
  say that the shell does just this.
-/

namespace GujaratiScript

/-! ## Programs and their lines -/

/-- A program before its run: in scopes of its own, with the given lines as its input. -/
def Machine.fresh (lines : List String) : Machine := .start (.ofLines lines) .unlimited

/-- In scopes of its own and with the lines `read` and then `rest` ahead, the program ends with the
exit code `code` in `m`, and it has read the lines `read`. -/
structure Program.Consumes (p : Program) (rounds : Nat) (read rest : List String) (code : Nat)
    (m : Machine) : Prop where
  ends : p.interpret rounds (.fresh ((read ++ rest).map withoutLineEnd)) = some (code, m)
  left : m.feed.pending = rest.map withoutLineEnd
  /-- Every attempt to read takes one line, until there are no more. -/
  attempts : m.feed.reads = read.length ∨ read.length < m.feed.reads ∧ rest = []
  /-- Whatever stands behind the lines that were read, the program does the same. -/
  blind : m.feed.reads = read.length → ∀ others,
    p.interpret rounds (.fresh (read.map withoutLineEnd ++ others)) =
      some (code, m.instead 0 others)

/-- A program that ends has consumed some of the lines ahead. -/
theorem Program.exists_consumes {p : Program} {rounds code : Nat} {lines : List String}
    {m : Machine}
    (ends : p.interpret rounds (.fresh (lines.map withoutLineEnd)) = some (code, m)) :
    ∃ read rest, lines = read ++ rest ∧ p.Consumes rounds read rest code m := by
  obtain ⟨n, taken, blind⟩ := interpret_instead ends
  have pending : m.feed.pending = (lines.map withoutLineEnd).drop n := taken.pending
  have reads : m.feed.reads = n := taken.reads.trans (Nat.zero_add n)
  have parts : lines.take n ++ lines.drop n = lines := List.take_append_drop n lines
  refine ⟨lines.take n, lines.drop n, parts.symm, ?_, ?_, ?_, ?_⟩
  · rw [parts]
    exact ends
  · rw [pending, List.map_drop]
  · rw [reads, List.length_take]
    rcases Nat.lt_or_ge lines.length n with few | enough
    · exact .inr ⟨by omega, List.drop_eq_nil_of_le (Nat.le_of_lt few)⟩
    · exact .inl (Nat.min_eq_left enough).symm
  · intro found others
    rw [reads, List.length_take] at found
    have enough : n ≤ (lines.map withoutLineEnd).length := by
      rw [List.length_map]
      omega
    rw [List.map_take]
    exact blind enough others

/-- A larger allowance changes nothing for a program that ends. -/
theorem Program.interpret_extends {p : Program} {k n : Nat} (le : k ≤ n) {m : Machine}
    {o : Nat × Machine} (ends : p.interpret k m = some o) : p.interpret n m = some o := by
  unfold interpret at ends ⊢
  rcases run : p.execute k m with _ | r
  · rw [run] at ends
    cases ends
  · have same : p.execute n m = some r := by
      unfold execute at run ⊢
      rw [executeAll_eq] at run ⊢
      exact (extends_all p.body le).bind (fun _ => .refl _) m r run
    rw [run] at ends
    rw [same]
    exact ends

theorem Program.Consumes.mono {p : Program} {k n code : Nat} {read rest : List String} {m : Machine}
    (h : p.Consumes k read rest code m) (le : k ≤ n) : p.Consumes n read rest code m where
  ends := interpret_extends le h.ends
  left := h.left
  attempts := h.attempts
  blind found others := interpret_extends le (h.blind found others)

/-! ## Snippets -/

/-- What is shown of a run: the lines that it has offered, and a note if it has failed. -/
def Machine.shown (m : Machine) (code : Nat) : List Event :=
  m.log.offered.toList.map (fun line => .out (line ++ "\n")) ++
    if code = 0 then [] else [.status .failed "Execution failed"]

/-- A snippet is run and ends. Its program reads the lines `read` and leaves the lines `rest`, and
`shown` is shown. -/
inductive Ran (rounds : Nat) (snippet : String) : List String → List String → List Event → Prop
  /-- The snippet is no program, so nothing is read. -/
  | rejected {failure : Failure} (rest : List String) :
      Program.ofSource (withFences snippet) = .error failure →
      Ran rounds snippet [] rest
        [.note (failure.withPath "<repl>").styled, .status .failed "Execution failed"]
  | ended {p : Program} {read rest : List String} {code : Nat} {m : Machine} :
      Program.ofSource (withFences snippet) = .ok p → p.Consumes rounds read rest code m →
      Ran rounds snippet read rest (m.shown code)

/-- The snippet is a program that does not end within the allowance with the lines `lines` ahead. -/
def Endless (rounds : Nat) (snippet : String) (lines : List String) : Prop :=
  ∃ p, Program.ofSource (withFences snippet) = .ok p ∧
    p.interpret rounds (.fresh (lines.map withoutLineEnd)) = none

section

variable {rounds : Nat} {snippet : String} {read rest : List String} {shown : List Event}

theorem ran_or_endless (rounds : Nat) (snippet : String) (lines : List String) :
    (∃ read rest shown, lines = read ++ rest ∧ Ran rounds snippet read rest shown) ∨
      Endless rounds snippet lines := by
  rcases parsed : Program.ofSource (withFences snippet) with failure | p
  · exact .inl ⟨[], lines, _, rfl, .rejected lines parsed⟩
  · rcases run : p.interpret rounds (.fresh (lines.map withoutLineEnd)) with _ | ⟨code, m⟩
    · exact .inr ⟨p, parsed, run⟩
    · obtain ⟨read, rest, parts, consumes⟩ := Program.exists_consumes run
      exact .inl ⟨read, rest, _, parts, .ended parsed consumes⟩

theorem Ran.runSnippet (h : Ran rounds snippet read rest shown) :
    runSnippet rounds snippet (read ++ rest) = some (shown, read.length) := by
  cases h with
  | rejected rest parsed => exact runSnippet_of_error parsed rounds rest
  | @ended p _ _ code m parsed consumes =>
    have run : p.interpret rounds (.start (.ofLines _) .unlimited) = some (code, m) := consumes.ends
    rw [runSnippet_of_ok parsed, Program.shown, run, Option.map_some]
    dsimp only
    rw [consumes.left, List.length_map, List.length_append, Nat.add_sub_cancel]
    rfl

theorem Endless.runSnippet {lines : List String} (h : Endless rounds snippet lines) :
    runSnippet rounds snippet lines = none := by
  obtain ⟨p, parsed, run⟩ := h
  have run : p.interpret rounds (.start (.ofLines _) .unlimited) = _ := run
  rw [runSnippet_of_ok parsed, Program.shown, run, Option.map_none]

theorem Ran.mono {n : Nat} (h : Ran rounds snippet read rest shown) (le : rounds ≤ n) :
    Ran n snippet read rest shown := by
  cases h with
  | rejected rest parsed => exact .rejected rest parsed
  | ended parsed consumes => exact .ended parsed (consumes.mono le)

end

end GujaratiScript
