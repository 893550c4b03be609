import GujaratiScript.Source.Position
import GujaratiScript.Text.Basic
import GujaratiScript.Unicode.Classes

/-!
# Framed excerpts of a source text

Labels mark byte ranges of a text. A label inside one line is shown by carets under it, a label over
several lines by a rail along them. The lines that carry a label are shown with their numbers, and
of a long label only its first and last lines.

* `Label` : a range with a message;
* `Excerpt.lines` : which lines are shown, and what runs along each;
* `Excerpt.render` : the excerpt as styled text.
-/

namespace GujaratiScript

/-! ## Labels -/

/-- A byte range with a message, which is empty for none. One label is the main one. -/
structure Label where
  main : Bool
  start : Nat
  stop : Nat
  message : String
  deriving DecidableEq, Repr, Inhabited

/-- Whether the ranges from `a` to `b` and from `c` to `d` share a byte. -/
def overlaps (a b c d : Nat) : Bool :=
  max a c < min b d

namespace Excerpt

/-! ## Lines -/

/-- A line of the source with its number, from one, and the offset where it begins. -/
structure Line where
  number : Nat
  start : Nat
  chars : List Char
  deriving Repr, Inhabited

/-- The lines of a text whose first line has the given number and offset; each keeps its break. -/
def linesFrom (number start : Nat) (current : List Char) : List Char → List Line
  | [] => [⟨number, start, current.reverse⟩]
  | c :: cs =>
    if c = '\n' then
      let line := (c :: current).reverse
      ⟨number, start, line⟩ :: linesFrom (number + 1) (start + byteLength line) [] cs
    else linesFrom number start (c :: current) cs

/-- The lines of a text make up the text. -/
theorem flatMap_chars_linesFrom (number start : Nat) (current cs : List Char) :
    (linesFrom number start current cs).flatMap Line.chars = current.reverse ++ cs := by
  induction cs generalizing number start current with
  | nil => simp [linesFrom]
  | cons c cs ih =>
    unfold linesFrom
    split <;> simp [ih]

/-- The lines of a text; it has one more than it has line breaks. -/
def linesOf (text : String) : Array Line :=
  (linesFrom 1 0 [] text.toList).toArray

/-- The index of the line that holds a byte offset; offsets behind the text are on the last line. -/
def lineIndex (lines : Array Line) (offset : Nat) : Nat :=
  (lines.toList.takeWhile fun line => line.start ≤ offset).length - 1

/-- The column after the characters that end at or before an offset; the first of them begins at
`start` in column `col`. -/
def columnFrom (start col offset : Nat) : List Char → Nat
  | [] => col
  | c :: cs =>
    if start + c.utf8Size ≤ offset then columnFrom (start + c.utf8Size) (col + 1) offset cs else col

/-- The column of an offset in its line: one more than the characters that end by then. -/
def column (line : Line) (offset : Nat) : Nat :=
  columnFrom line.start 1 offset line.chars

/-- The text of a line as it is shown, without breaks and null characters at its end. -/
def shown (line : Line) : List Char :=
  (line.chars.reverse.dropWhile fun c => c == '\n' || c == '\r' || c == '\x00').reverse

/-- A character with its offset in the line and the columns it takes. -/
structure Cell where
  offset : Nat
  width : Nat
  char : Char
  deriving Repr, Inhabited

/-- The cells of a line from an offset and a column on; tabs reach to the next multiple of four. -/
def cellsFrom (offset col : Nat) : List Char → List Cell
  | [] => []
  | c :: cs =>
    let width := if c = '\t' then 4 - col % 4 else Unicode.displayWidth c
    ⟨offset, width, c⟩ :: cellsFrom (offset + c.utf8Size) (col + width) cs

/-- Each character of a line has its cell. -/
@[simp] theorem map_char_cellsFrom (offset col : Nat) (cs : List Char) :
    (cellsFrom offset col cs).map Cell.char = cs := by
  induction cs generalizing offset col with
  | nil => rfl
  | cons c cs ih => simp [cellsFrom, ih]

/-- The cells of a line. -/
def cells (chars : List Char) : List Cell := cellsFrom 0 0 chars

/-- The offset where a cell ends. -/
def Cell.stop (c : Cell) : Nat := c.offset + c.char.utf8Size

/-! ## What runs along a line -/

/-- A label inside one line, with offsets in that line. -/
structure Mark where
  main : Bool
  start : Nat
  stop : Nat
  message : String
  deriving Repr, Inhabited

/-- How a label over several lines meets one of them. -/
inductive Reach where
  | top (start : Nat)
  | through
  | bottom (stop : Nat) (message : String)
  deriving Repr, Inhabited

/-- A label over several lines where it meets one of them; `index` is its place among the rails. -/
structure Rail where
  index : Nat
  main : Bool
  reach : Reach
  deriving Repr, Inhabited

/-- What a label contributes to one line. -/
inductive Share where
  | mark (mark : Mark)
  | rail (rail : Rail) (mustShow : Bool)
  deriving Repr, Inhabited

/-- What a label contributes to which lines; `index` is the number of rails before it. A label over
several lines must be shown on its first line and the three after it, and on its last two. -/
def sharesOf (lines : Array Line) (index : Nat) (label : Label) : List (Nat × Share) :=
  let first := lineIndex lines label.start
  let last := lineIndex lines label.stop
  let offsetIn (i offset : Nat) := offset - (lines.getD i default).start
  if first = last then
    let start := offsetIn first label.start
    [(first, .mark ⟨label.main, start, max (offsetIn first label.stop) (start + 1),
      label.message⟩)]
  else
    let rail (reach : Reach) : Rail := ⟨index, label.main, reach⟩
    let inner := (List.range' (first + 1) (last - first - 1)).map fun i =>
      (i, Share.rail (rail .through) (i - first ≤ 3 || last - i ≤ 1))
    (first, .rail (rail (.top (offsetIn first label.start))) true) ::
      (inner ++ [(last, .rail (rail (.bottom (offsetIn last label.stop) label.message)) true)])

/-- The number of rails a label needs. -/
def railCount (lines : Array Line) (label : Label) : Nat :=
  if lineIndex lines label.start = lineIndex lines label.stop then 0 else 1

/-- What all labels contribute, in their order, with the number of rails. -/
def shares (lines : Array Line) (labels : List Label) : List (Nat × Share) × Nat :=
  labels.foldl
    (fun (acc : List (Nat × Share) × Nat) label =>
      (acc.1 ++ sharesOf lines acc.2 label, acc.2 + railCount lines label))
    ([], 0)

/-- The order of marks: by their start, then by their end. -/
def Mark.le (a b : Mark) : Bool :=
  a.start < b.start || (a.start == b.start && a.stop ≤ b.stop)

/-- Adds a mark to ordered ones. Before a mark of the same range the new one comes first. -/
def insertMark (marks : List Mark) (m : Mark) : List Mark :=
  let before := marks.takeWhile (·.le m)
  let after := marks.dropWhile (·.le m)
  match before.getLast? with
  | some last =>
    if last.start = m.start ∧ last.stop = m.stop then before.dropLast ++ m :: last :: after
    else before ++ m :: after
  | none => m :: after

/-- A line with what runs along it. -/
structure Row where
  index : Nat
  marks : List Mark
  rails : List Rail
  mustShow : Bool
  deriving Repr, Inhabited

/-- One more contribution to a row. -/
def Row.add (row : Row) : Share → Row
  | .mark m => ⟨row.index, insertMark row.marks m, row.rails, true⟩
  | .rail r mustShow => ⟨row.index, row.marks, row.rails ++ [r], row.mustShow || mustShow⟩

/-- The rows of all lines that some label meets, in the order of the lines. -/
def rows (lines : Array Line) (given : List (Nat × Share)) : List Row :=
  (List.range lines.size).filterMap fun i =>
    match given.filterMap fun (j, share) => if j = i then some share else none with
    | [] => none
    | own => some (own.foldl Row.add ⟨i, [], [], false⟩)

/-! ## Styles and gutters -/

/-- The looks of one excerpt: the width of line numbers, the number of rails, and the colour of the
main label. -/
structure Frame where
  numberWidth : Nat
  rails : Nat
  mainColour : Colour
  deriving Repr, Inhabited

/-- Borders, line numbers and all labels but the main one are blue. -/
def border : Style := .ink .blue

/-- The style of a label. -/
def Frame.labelStyle (f : Frame) (main : Bool) : Style :=
  if main then .ink f.mainColour else .ink .blue

/-- Blanks in place of a line number. -/
def Frame.gutter (f : Frame) : Styled :=
  Styled.text ("".pushn ' ' f.numberWidth ++ " ")

/-- A line number, right-aligned. -/
def Frame.number (f : Frame) (n : Nat) : Styled :=
  let s := toString n
  Styled.within border ("".pushn ' ' (f.numberWidth - s.length) ++ s) ++ Styled.text " "

/-- The left border of the source. -/
def leftBorder : Styled := Styled.within border "│"

/-- The rail of a label over several lines that meets the row, if there is one at `index`. -/
def railAt (rails : List Rail) (index : Nat) : Option Rail :=
  rails.find? fun r => r.index == index

/-- Two columns of a rail: a blank or a bar that crosses it, and the rail. -/
def Frame.railPiece (f : Frame) (crossing : Option Bool) (main : Bool) (sign : String) : Styled :=
  (match crossing with
    | none => Styled.text " "
    | some other => Styled.within (f.labelStyle other) "─") ++
  Styled.within (f.labelStyle main) sign

/-- The bytes of white space that a line begins with. -/
def indent (chars : List Char) : Nat :=
  byteLength (chars.takeWhile Unicode.isWhite)

/-- The rails beside a line of source; a label that starts at the first character that is not blank
starts its rail there. -/
def Frame.railsBesideSource (f : Frame) (chars : List Char) (rails : List Rail) : Styled :=
  (List.range f.rails).flatMap fun i =>
    match railAt rails i with
    | none => Styled.text "  "
    | some r =>
      match r.reach with
      | .top start =>
        if start ≤ indent chars then f.railPiece none r.main "╭" else Styled.text "  "
      | _ => f.railPiece none r.main "│"

/-- The rails beside a line of carets. -/
def Frame.railsBesideCarets (f : Frame) (rails : List Rail) : Styled :=
  (List.range f.rails).flatMap fun i =>
    match railAt rails i with
    | none => Styled.text "  "
    | some r =>
      match r.reach with
      | .top _ => Styled.text "  "
      | _ => f.railPiece none r.main "│"

/-- The beginning of a line without source. -/
def Frame.beside (f : Frame) (rails : List Rail) : Styled :=
  f.gutter ++ leftBorder ++ f.railsBesideCarets rails

/-! ## The source line -/

/-- Whether a cell belongs to the main label. -/
def inMain (marks : List Mark) (rails : List Rail) (c : Cell) : Bool :=
  (marks.any fun m => m.main && overlaps m.start m.stop c.offset c.stop) ||
    rails.any fun r => r.main &&
      match r.reach with
      | .top start => start ≤ c.offset
      | .through => true
      | .bottom stop _ => c.stop ≤ stop

/-- What a cell shows: its character, or blanks for a tab. -/
def Cell.text (c : Cell) : String :=
  if c.char = '\t' then "".pushn ' ' c.width else c.char.toString

/-- The cells of a line, those of the main label in its style. -/
def Frame.source (f : Frame) (marks : List Mark) (rails : List Rail) :
    (styled : Bool) → List Cell → Styled
  | styled, [] => if styled then [.style .none] else []
  | styled, c :: cs =>
    let main := inMain marks rails c
    let change : Styled :=
      if main && !styled then [.style (f.labelStyle true)]
      else if !main && styled then [.style .none]
      else []
    change ++ Styled.text c.text ++ f.source marks rails main cs

/-! ## Carets -/

/-- The style at a cell: that of the main label if it is there, otherwise that of any other. -/
def markAt (marks : List Mark) (start stop : Nat) : Option Bool :=
  let here := marks.filter fun m => overlaps m.start m.stop start stop
  if here.isEmpty then none else some (here.any (·.main))

/-- The carets under the cells; blanks are only written before the end of the last mark. -/
def Frame.carets (f : Frame) (marks : List Mark) (reach : Nat) :
    (before : Option Bool) → List Cell → Styled
  | before, [] => if before.isSome then [.style .none] else []
  | before, c :: cs =>
    let now := markAt marks c.offset c.stop
    let change : Styled :=
      if now = before then []
      else match now with
        | none => [.style .none]
        | some main => [.style (f.labelStyle main)]
    let sign : Option Char :=
      match now with
      | some true => some '^'
      | some false => some '-'
      | none => if c.offset < reach then some ' ' else none
    let signs : Styled :=
      match sign with
      | some s => Styled.text ("".pushn s c.width)
      | none => []
    change ++ signs ++ f.carets marks reach now cs

/-- The mark whose message stands right of the carets: the one that reaches furthest, if it has a
message and shares no byte with another. -/
def trailing? (marks : List Mark) : Option Nat :=
  let step (acc : Nat × Option Nat) (entry : Mark × Nat) : Nat × Option Nat :=
    let furthest := max acc.1 entry.1.stop
    (furthest,
      if entry.1.stop = furthest then (if entry.1.message.isEmpty then none else some entry.2)
      else acc.2)
  match (marks.zipIdx.foldl step (0, none)).2 with
  | none => none
  | some i =>
    match marks[i]? with
    | none => none
    | some m =>
      if marks.zipIdx.any fun (other, j) => j != i && overlaps m.start m.stop other.start other.stop
      then none else some i

/-- The marks whose messages hang below the carets. -/
def hanging (marks : List Mark) (trailing : Option Nat) : List Mark :=
  (marks.zipIdx.filter fun (m, i) => !m.message.isEmpty && trailing != some i).map (·.1)

/-- The bars that lead from carets down to hanging messages. -/
def Frame.pointers (f : Frame) (hung : List Mark) (reach : Nat) (cs : List Cell) : Styled :=
  cs.flatMap fun c =>
    let here := hung.filter fun m => c.offset ≤ m.start && m.start < c.stop
    let blanks (n : Nat) : Styled := if c.offset ≤ reach then Styled.text ("".pushn ' ' n) else []
    if here.isEmpty then blanks c.width
    else Styled.within (f.labelStyle (here.any (·.main))) "│" ++ blanks (c.width - 1)

/-- The lines under a line of source that show its marks. -/
def Frame.marks (f : Frame) (chars : List Char) (marks : List Mark) (rails : List Rail) : Styled :=
  if marks.isEmpty then []
  else
    let line := cells chars
    let behind : Cell := ⟨byteLength chars, 1, '\x00'⟩
    let start := marks.foldl (fun n m => max n m.start) 0
    let reach := marks.foldl (fun n m => max n m.stop) 0
    let trailing := trailing? marks
    let hung := hanging marks trailing
    let message : Styled :=
      match trailing.bind fun i => marks[i]? with
      | some m => Styled.text " " ++ Styled.within (f.labelStyle m.main) m.message
      | none => []
    let margin := f.beside rails ++ Styled.text " "
    let first := margin ++ f.carets marks reach none (line ++ [behind]) ++ message ++
      Styled.text "\n"
    if hung.isEmpty then first
    else
      let bars := margin ++ f.pointers hung start line ++ Styled.text "\n"
      let messages := hung.reverse.flatMap fun m =>
        margin ++
          f.pointers hung start (line.takeWhile fun c => c.offset < m.start) ++
          Styled.within (f.labelStyle m.main) m.message ++ Styled.text "\n"
      first ++ bars ++ messages

/-! ## The ends of rails -/

/-- The next `n` columns of rails, from `index` on, beside the line on which the rail at position
`i` begins or ends. `bar` is the style of the bar that leads from it to the right, once it was
passed. -/
def Frame.railsBesideEndFrom (f : Frame) (rails : List Rail) (i : Nat) (label : Bool) (index : Nat)
    (bar : Option Bool) : (n : Nat) → Styled
  | 0 => []
  | n + 1 =>
    let column : Styled :=
      match bar with
      | none => Styled.text "  "
      | some main => Styled.within (f.labelStyle main) "──"
    match rails.zipIdx.find? fun (r, _) => r.index == index with
    | none => column ++ f.railsBesideEndFrom rails i label (index + 1) bar n
    | some (r, j) =>
      let along := f.railPiece bar r.main "│"
      let (piece, bar) : Styled × Option Bool :=
        match r.reach with
        | .through => (along, bar)
        | .top _ =>
          if j < i then (along, bar)
          else if i = j then (f.railPiece none label "╭", some r.main)
          else (column, bar)
        | .bottom _ _ =>
          if i < j then (along, bar)
          else if i = j then (f.railPiece none label "╰", some r.main)
          else (column, bar)
      piece ++ f.railsBesideEndFrom rails i label (index + 1) bar n

/-- The rails beside the line on which the rail at position `i` begins or ends. -/
def Frame.railsBesideEnd (f : Frame) (rails : List Rail) (i : Nat) (label : Bool) : Styled :=
  f.railsBesideEndFrom rails i label 0 none f.rails

/-- The bar from a rail to the column of its end. -/
def bar (chars : List Char) (offset : Nat) : String :=
  "".pushn '─' (((cells chars).takeWhile fun c => c.offset < offset).foldl (· + ·.width) 0)

/-- The lines under a line of source on which rails begin or end. -/
def Frame.railEnds (f : Frame) (chars : List Char) (rails : List Rail) : Styled :=
  rails.zipIdx.flatMap fun (r, i) =>
    let line (offset : Nat) (message : String) : Styled :=
      f.gutter ++ leftBorder ++ f.railsBesideEnd rails i r.main ++
        Styled.within (f.labelStyle r.main) (bar chars offset ++ (if r.main then "^" else "'") ++
          (if message.isEmpty then "" else " " ++ message)) ++ Styled.text "\n"
    match r.reach with
    | .through => []
    | .top start => if start ≤ indent chars then [] else line (start + 1) ""
    | .bottom stop message => line stop message

/-! ## The whole excerpt -/

/-- A line of source with its marks and the ends of its rails. -/
def Frame.row (f : Frame) (line : Line) (marks : List Mark) (rails : List Rail) : Styled :=
  let chars := shown line
  f.number line.number ++ leftBorder ++ f.railsBesideSource chars rails ++ Styled.text " " ++
    f.source marks rails false (cells chars) ++ Styled.text "\n" ++
    f.marks chars marks rails ++ f.railEnds chars rails

/-- What stands between two shown rows: nothing, the one line between them, or a break beside which
the rails of the row above go on. -/
def Frame.between (f : Frame) (lines : Array Line) (all : List Row) (row next : Row) : Styled :=
  if next.index = row.index + 1 then []
  else if next.index = row.index + 2 then
    let rails :=
      match all.find? fun r => r.index == row.index + 1 with
      | some hidden => hidden.rails
      | none => []
    f.row (lines.getD (row.index + 1) default) [] rails
  else
    f.gutter ++ Styled.within border "·" ++ f.railsBesideCarets row.rails ++ Styled.text "\n"

/-- The rows in turn, with what stands between them. -/
def Frame.rows (f : Frame) (lines : Array Line) (all : List Row) : List Row → Styled
  | [] => []
  | row :: rest =>
    f.row (lines.getD row.index default) row.marks row.rails ++
      (match rest with
        | [] => []
        | next :: _ => f.between lines all row next) ++
      f.rows lines all rest

/-- The excerpt of a text that shows its labels, named by a path and the place of the first. -/
def render (path text : String) (mainColour : Colour) (labels : List Label) : Styled :=
  let lines := linesOf text
  let (given, count) := shares lines labels
  let all := rows lines given
  let width := all.foldl (fun n row => max n (toString (row.index + 1)).length) 0
  let f : Frame := ⟨width, count, mainColour⟩
  let start := (labels.head?.map (·.start)).getD 0
  let first := lines.getD (lineIndex lines start) default
  f.gutter ++ Styled.within border "┌─" ++
    Styled.text (" " ++ path ++ ":" ++ toString first.number ++ ":" ++
      toString (column first start) ++ "\n") ++
    f.gutter ++ leftBorder ++ f.railsBesideCarets [] ++ Styled.text "\n" ++
    f.rows lines all (all.filter (·.mustShow))

end Excerpt

end GujaratiScript
