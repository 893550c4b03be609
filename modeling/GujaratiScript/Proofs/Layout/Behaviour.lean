import GujaratiScript.Proofs.Layout.Stability
import GujaratiScript.Proofs.Run.Relabel

/-!
# Formatting keeps the behaviour

The formatted text of a program is read as the same tree but for its places, and a run looks at no
place: places only end up in faults, and the report of a fault does not show them.

* `Program.execute_bare`, `Program.interpret_bare` : runs of a tree without its places;
* `runSource_formatSource` : a formatted text does what the text did.
-/

namespace GujaratiScript

open Exec

/-! ## Trees without places -/

theorem Expr.relabel_nowhere (e : Expr) : e.relabel id (fun _ => .nowhere) = e.bare := by
  induction e with
  | negate e _ ih => simp only [relabel, bare, ih]
  | binary o l r _ _ ihl ihr => simp only [relabel, bare, ihl, ihr]
  | _ => rfl

mutual

/-- Leaving out the places is one way to give others. -/
theorem Stmt.relabel_nowhere (s : Stmt) : s.relabel id (fun _ => .nowhere) = s.bare := by
  match s with
  | .print e _ | .declare _ e _ | .assign _ e _ =>
    simp only [Stmt.relabel, Stmt.bare, e.relabel_nowhere, id]
  | .branch c yes none _ =>
    simp only [Stmt.relabel, Stmt.bare, c.relabel_nowhere, yes.relabel_nowhere]
  | .branch c yes (some no) _ =>
    simp only [Stmt.relabel, Stmt.bare, c.relabel_nowhere, yes.relabel_nowhere,
      no.relabel_nowhere]
  | .loop body c _ => simp only [Stmt.relabel, Stmt.bare, c.relabel_nowhere, body.relabel_nowhere]
  | .leave _ | .again _ => rfl
  | .block b => simp only [Stmt.relabel, Stmt.bare, b.relabel_nowhere]

theorem Block.relabel_nowhere (b : Block) : b.relabel id (fun _ => .nowhere) = b.bare := by
  match b with
  | ⟨body, _⟩ => simp only [Block.relabel, Block.bare, relabelAll_nowhere body]

theorem relabelAll_nowhere (body : List Stmt) :
    relabelAll id (fun _ => .nowhere) body = allBare body := by
  match body with
  | [] => rfl
  | s :: rest => simp only [relabelAll, allBare, s.relabel_nowhere, relabelAll_nowhere rest]

end

/-! ## Runs without places -/

/-- A fault without its place. -/
def RunFault.bare (fault : RunFault) : RunFault := ⟨fault.cause, .nowhere⟩

theorem RunFault.relabel_nowhere (fault : RunFault) :
    fault.relabel id (fun _ => .nowhere) = fault.bare := by
  obtain ⟨cause, span⟩ := fault
  cases cause <;> rfl

/-- A program without its places ends as the program does, by a fault without its place. -/
theorem Program.execute_bare (p : Program) (rounds : Nat) (m : Machine) :
    p.bare.execute rounds m =
      (p.execute rounds m).map fun o => (o.1.mapError RunFault.bare, o.2) := by
  have same : RunFault.relabel id (fun _ => .nowhere) = RunFault.bare :=
    funext RunFault.relabel_nowhere
  unfold Program.execute Program.bare
  rw [← relabelAll_nowhere, executeAll_relabel, same]

/-- The report of a fault shows no place, so neither does anything that a run offers. -/
theorem Program.interpret_bare (p : Program) (rounds : Nat) (m : Machine) :
    p.bare.interpret rounds m = p.interpret rounds m := by
  unfold Program.interpret
  rw [p.execute_bare]
  rcases p.execute rounds m with _ | ⟨fault | _, n⟩ <;> rfl

/-! ## Formatted texts -/

/-- A text and its formatted text, if this is accepted, do the same, whatever they read and however
their output is refused: one ends iff the other does, with the same exit code, after the same lines
were read and the same lines were offered, a report of a fault among them. -/
theorem runSource_formatSource {source target : String} {q : Program}
    (formatted : formatSource source = .ok target) (accepted : Program.ofSource target = .ok q)
    (rounds : Nat) (feed : Feed) (log : Log) :
    runSource rounds target feed log = runSource rounds source feed log := by
  unfold formatSource at formatted
  rcases read : Program.ofSource source with failure | p
  · rw [read] at formatted
    cases formatted
  · rw [read] at formatted
    cases formatted
    obtain ⟨enough, needed⟩ := ofSource_layout (sound_of_ofSource read)
    obtain ⟨q', accepted', same⟩ := enough (needed ⟨q, accepted⟩)
    obtain rfl : q = q' := Except.ok.inj (accepted.symm.trans accepted')
    unfold runSource
    rw [read, accepted]
    dsimp only
    rw [← q.interpret_bare, same, p.interpret_bare]

/-- A sum whose formatted text has no parentheses. -/
theorem runSource_formatSource_sum :
    formatSource "kem bhai\nbhai bol (1 + 1) + 1\naavjo bhai\n" =
        .ok "kem bhai\nbhai bol 1 + 1 + 1\naavjo bhai\n" ∧
      (∃ q, Program.ofSource "kem bhai\nbhai bol 1 + 1 + 1\naavjo bhai\n" = .ok q) ∧
      runSource 1 "kem bhai\nbhai bol 1 + 1 + 1\naavjo bhai\n" (.ofLines []) .unlimited =
        runSource 1 "kem bhai\nbhai bol (1 + 1) + 1\naavjo bhai\n" (.ofLines []) .unlimited := by
  have sum : ReadsAs "1 + 1" Expr.one.addOne 1 3 := by
    refine ReadsAs.layout Expr.one.addOne ?_ (by decide)
    show ∀ t ∈ [Token.int 1, .op .add, .int 1], t.Proper
    simp [Token.Proper]
  obtain ⟨p, read, bare⟩ := (sum.parens.addOnes 1).ofSource_printing (by decide)
  have layout : p.layout = "kem bhai\nbhai bol 1 + 1 + 1\naavjo bhai\n" := by
    rw [Program.layout_congr (q := p) (p := ⟨[.print Expr.one.addOne.addOne .nowhere], .nowhere⟩) bare]
    decide
  have formatted := formatSource_of_ofSource read
  rw [layout] at formatted
  obtain ⟨q, accepted, -⟩ := (ofSource_layout (sound_of_ofSource read)).1 (by
    rw [← p.levels_bare, bare]
    decide)
  rw [layout] at accepted
  exact ⟨formatted, ⟨q, accepted⟩, runSource_formatSource formatted accepted 1 _ _⟩

end GujaratiScript
