import GujaratiScript.Text.Basic
import GujaratiScript.Tree.Basic

/-!
# Outlines of trees

A tree with all its parts and places, one part to a line, each level indented by four spaces.

* `Outline` : named records, wrapped values, lists and single words;
* `Outline.render` : the lines of an outline;
* `Program.outline` : the outline of a program.
-/

namespace GujaratiScript

mutual

/-- A value made of named parts. -/
inductive Outline where
  | atom (text : String)
  | wrapped (name : String) (value : Outline)
  | list (items : List Outline)
  | record (name : String) (fields : List OutlineField)

/-- A named part. -/
structure OutlineField where
  name : String
  value : Outline

end

deriving instance Repr, BEq, Inhabited for Outline, OutlineField

namespace Outline

/-- The beginning of a line at a level of indentation. -/
def margin (depth : Nat) : String := "".pushn ' ' (4 * depth)

mutual

/-- An outline that starts on a line of the given depth. -/
def render (depth : Nat) : Outline → String
  | .atom text => text
  | .wrapped name value =>
    name ++ "(\n" ++ margin (depth + 1) ++ value.render (depth + 1) ++ ",\n" ++ margin depth ++ ")"
  | .list [] => "[]"
  | .list (item :: items) =>
    "[\n" ++ margin (depth + 1) ++ item.render (depth + 1) ++ ",\n" ++
      renderItems (depth + 1) items ++ margin depth ++ "]"
  | .record name fields =>
    name ++ " \x7b\n" ++ renderFields (depth + 1) fields ++ margin depth ++ "\x7d"
termination_by structural o => o

/-- Items of a list, one after the other. -/
def renderItems (depth : Nat) : List Outline → String
  | [] => ""
  | item :: items => margin depth ++ item.render depth ++ ",\n" ++ renderItems depth items
termination_by structural l => l

/-- Fields of a record, one after the other. -/
def renderFields (depth : Nat) : List OutlineField → String
  | [] => ""
  | field :: fields =>
    margin depth ++ renderField depth field ++ ",\n" ++ renderFields depth fields
termination_by structural l => l

/-- A field of a record. -/
def renderField (depth : Nat) : OutlineField → String
  | ⟨name, value⟩ => name ++ ": " ++ value.render depth
termination_by structural f => f

end

/-- A number. -/
def number (n : Int) : Outline := .atom (toString n)

end Outline

/-- The outline of a place. -/
def Span.outline (s : Span) : Outline :=
  .record "SrcSpan" [⟨"start", .number s.start⟩, ⟨"end", .number s.stop⟩, ⟨"line", .number s.line⟩,
    ⟨"col", .number s.col⟩]

/-- The name of an operator in outlines. -/
def Operator.outline : Operator → Outline
  | add => .atom "Add"
  | subtract => .atom "Subtract"
  | multiply => .atom "Multiply"
  | divide => .atom "Divide"
  | modulo => .atom "Modulo"
  | equal => .atom "Equal"
  | notEqual => .atom "NotEqual"
  | less => .atom "Less"
  | lessEqual => .atom "LessEqual"
  | greater => .atom "Greater"
  | greaterEqual => .atom "GreaterEqual"

/-- The outline of a name. -/
def Ident.outline (i : Ident) : Outline :=
  .record "Identifier" [⟨"name", .atom (Text.quoted i.name)⟩, ⟨"location", i.span.outline⟩]

/-- The outline of a literal, from its name and the text of its value. -/
def literalOutline (name value : String) (span : Span) : Outline :=
  .wrapped "Literal" (.record name [⟨"value", .atom value⟩, ⟨"location", span.outline⟩])

/-- The outline of an expression. -/
def Expr.outline : Expr → Outline
  | int n span => literalOutline "Int" (toString n.toInt) span
  | str s span => literalOutline "Str" (Text.quoted s) span
  | bool b span => literalOutline "Bool" (if b then "true" else "false") span
  | var ident => .wrapped "Variable" ident.outline
  | input span => .record "Input" [⟨"location", span.outline⟩]
  | negate e span =>
    .wrapped "Unary" (.record "Unary"
      [⟨"operator", .atom "Negate"⟩, ⟨"right", e.outline⟩, ⟨"location", span.outline⟩])
  | binary o l r operatorSpan span =>
    .wrapped "Binary" (.record "Binary"
      [⟨"left", l.outline⟩, ⟨"operator", o.outline⟩, ⟨"right", r.outline⟩,
        ⟨"operator_location", operatorSpan.outline⟩, ⟨"location", span.outline⟩])

mutual

/-- The outline of a statement. -/
def Stmt.outline : Stmt → Outline
  | .print e span =>
    .wrapped "Print" (.record "Print" [⟨"expression", e.outline⟩, ⟨"location", span.outline⟩])
  | .declare ident e span =>
    .wrapped "Declaration" (.record "Declaration"
      [⟨"identifier", ident.outline⟩, ⟨"initializer", e.outline⟩, ⟨"location", span.outline⟩])
  | .assign ident e span =>
    .wrapped "Assignment" (.record "Assignment"
      [⟨"identifier", ident.outline⟩, ⟨"value", e.outline⟩, ⟨"location", span.outline⟩])
  | .branch c yes none span =>
    .wrapped "If" (.record "Conditional"
      [⟨"condition", c.outline⟩, ⟨"resolution", yes.outline⟩, ⟨"alternative", .atom "None"⟩,
        ⟨"location", span.outline⟩])
  | .branch c yes (some no) span =>
    .wrapped "If" (.record "Conditional"
      [⟨"condition", c.outline⟩, ⟨"resolution", yes.outline⟩,
        ⟨"alternative", .wrapped "Some" no.outline⟩, ⟨"location", span.outline⟩])
  | .loop body c span =>
    .wrapped "While" (.record "DoWhile"
      [⟨"body", body.outline⟩, ⟨"condition", c.outline⟩, ⟨"location", span.outline⟩])
  | .leave span => .record "Break" [⟨"location", span.outline⟩]
  | .again span => .record "Continue" [⟨"location", span.outline⟩]
  | .block b => .wrapped "Block" b.outline
termination_by structural s => s

/-- The outline of a block. -/
def Block.outline : Block → Outline
  | ⟨body, span⟩ =>
    .record "Block" [⟨"statements", .list (outlines body)⟩, ⟨"location", span.outline⟩]
termination_by structural b => b

/-- The outlines of statements. -/
def outlines : List Stmt → List Outline
  | [] => []
  | s :: rest => s.outline :: outlines rest
termination_by structural l => l

end

/-- The outline of a program. -/
def Program.outline (p : Program) : Outline :=
  .record "Program" [⟨"statements", .list (outlines p.body)⟩, ⟨"location", p.span.outline⟩]

end GujaratiScript
