import GujaratiScript.Proofs.Grammar.Basic
import GujaratiScript.Tree.Layout

/-!
# Trees without their places

Two readings of one program differ in the places of its nodes and in nothing else.

* `Expr.bare`, `Stmt.bare`, `Program.bare` : a tree without its places;
* `Program.layout_congr` : the canonical layout does not depend on them;
* `Program.placed_congr` : nor does whether loop control is placed.
-/

namespace GujaratiScript

/-! ## Trees without places -/

/-- An expression without its places. -/
def Expr.bare : Expr → Expr
  | int n _ => .int n .nowhere
  | str s _ => .str s .nowhere
  | bool b _ => .bool b .nowhere
  | var ident => .var ⟨ident.name, .nowhere⟩
  | input _ => .input .nowhere
  | negate e _ => .negate e.bare .nowhere
  | binary o l r _ _ => .binary o l.bare r.bare .nowhere .nowhere

mutual

/-- A statement without its places. -/
def Stmt.bare : Stmt → Stmt
  | .print e _ => .print e.bare .nowhere
  | .declare ident e _ => .declare ⟨ident.name, .nowhere⟩ e.bare .nowhere
  | .assign ident e _ => .assign ⟨ident.name, .nowhere⟩ e.bare .nowhere
  | .branch c yes none _ => .branch c.bare yes.bare none .nowhere
  | .branch c yes (some no) _ => .branch c.bare yes.bare (some no.bare) .nowhere
  | .loop body c _ => .loop body.bare c.bare .nowhere
  | .leave _ => .leave .nowhere
  | .again _ => .again .nowhere
  | .block b => .block b.bare
termination_by structural s => s

/-- A block without its places. -/
def Block.bare : Block → Block
  | ⟨body, _⟩ => ⟨allBare body, .nowhere⟩
termination_by structural b => b

/-- Statements without their places. -/
def allBare : List Stmt → List Stmt
  | [] => []
  | s :: rest => s.bare :: allBare rest
termination_by structural l => l

end

/-- A program without its places. -/
def Program.bare (p : Program) : Program := ⟨allBare p.body, .nowhere⟩

/-! ## Layout -/

namespace Expr

/-- Places have no part in the tier of an expression. -/
theorem tier?_bare (e : Expr) : e.bare.tier? = e.tier? := by
  cases e <;> rfl

/-- Places have no part in the parentheses around a left operand. -/
theorem wrapsLeft_bare (o : Operator) (l : Expr) : wrapsLeft o l.bare = wrapsLeft o l := by
  simp only [wrapsLeft, tier?_bare]

/-- Places have no part in the parentheses around a right operand. -/
theorem wrapsRight_bare (o : Operator) (r : Expr) : wrapsRight o r.bare = wrapsRight o r := by
  simp only [wrapsRight, tier?_bare]

/-- An expression is laid out as it would be without its places. -/
theorem layout_bare (e : Expr) : e.bare.layout = e.layout := by
  induction e with
  | negate e _ ih => simp only [bare, layout, tier?_bare, ih]
  | binary o l r _ _ ihl ihr =>
    simp only [bare, layout, wrapsLeft_bare, wrapsRight_bare, ihl, ihr]
  | _ => rfl

end Expr

mutual

/-- A statement is laid out as it would be without its places. -/
theorem Stmt.layout_bare (depth : Nat) (s : Stmt) : s.bare.layout depth = s.layout depth := by
  match s with
  | .print e _ => simp only [Stmt.bare, Stmt.layout, e.layout_bare]
  | .declare _ e _ => simp only [Stmt.bare, Stmt.layout, e.layout_bare]
  | .assign _ e _ => simp only [Stmt.bare, Stmt.layout, e.layout_bare]
  | .branch c yes none _ =>
    simp only [Stmt.bare, Stmt.layout, c.layout_bare, yes.layout_bare (depth + 1)]
  | .branch c yes (some no) _ =>
    simp only [Stmt.bare, Stmt.layout, c.layout_bare, yes.layout_bare (depth + 1),
      no.layout_bare (depth + 1)]
  | .loop body c _ =>
    simp only [Stmt.bare, Stmt.layout, c.layout_bare, body.layout_bare (depth + 1)]
  | .leave _ => rfl
  | .again _ => rfl
  | .block b => simp only [Stmt.bare, Stmt.layout, b.layout_bare (depth + 1)]

theorem Block.layout_bare (depth : Nat) (b : Block) : b.bare.layout depth = b.layout depth := by
  match b with
  | ⟨body, _⟩ => exact layoutAll_bare depth body

theorem layoutAll_bare (depth : Nat) (body : List Stmt) :
    layoutAll depth (allBare body) = layoutAll depth body := by
  match body with
  | [] => rfl
  | s :: rest =>
    simp only [allBare, layoutAll, s.layout_bare depth, layoutAll_bare depth rest]

end

/-- Programs that differ in places only have the same layout. -/
theorem Program.layout_congr {p q : Program} (h : q.bare = p.bare) : q.layout = p.layout := by
  have same : allBare q.body = allBare p.body := congrArg Program.body h
  rw [layout, layout, ← layoutAll_bare, same, layoutAll_bare]

/-! ## Loop control -/

mutual

/-- Whether loop control is placed does not depend on where it is written. -/
theorem Stmt.placed_bare (inLoop : Bool) (s : Stmt) : s.bare.placed inLoop = s.placed inLoop := by
  match s with
  | .print _ _ => rfl
  | .declare _ _ _ => rfl
  | .assign _ _ _ => rfl
  | .branch _ yes none _ => exact yes.placed_bare inLoop
  | .branch _ yes (some no) _ =>
    simp only [Stmt.bare, Stmt.placed, yes.placed_bare inLoop, no.placed_bare inLoop]
  | .loop body _ _ => exact body.placed_bare true
  | .leave _ => rfl
  | .again _ => rfl
  | .block b => exact b.placed_bare inLoop

theorem Block.placed_bare (inLoop : Bool) (b : Block) : b.bare.placed inLoop = b.placed inLoop := by
  match b with
  | ⟨body, _⟩ => exact allPlaced_bare inLoop body

theorem allPlaced_bare (inLoop : Bool) (body : List Stmt) :
    allPlaced inLoop (allBare body) = allPlaced inLoop body := by
  match body with
  | [] => rfl
  | s :: rest =>
    simp only [allBare, allPlaced, s.placed_bare inLoop, allPlaced_bare inLoop rest]

end

/-- Programs that differ in places only have the same loop control. -/
theorem Program.placed_congr {p q : Program} (h : q.bare = p.bare) (inLoop : Bool) :
    allPlaced inLoop q.body = allPlaced inLoop p.body := by
  have same : allBare q.body = allBare p.body := congrArg Program.body h
  rw [← allPlaced_bare, same, allPlaced_bare]

end GujaratiScript
