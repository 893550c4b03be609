import GujaratiScript.Text.Basic

/-!
# What a command shows

A command writes to two channels: its output, and notes about what it does. The notes are styled;
most are a status line, that is a status word and a text.
-/

namespace GujaratiScript

/-- The words that status lines begin with. -/
inductive Status where
  | running
  | finished
  | formatted
  | unchanged
  | unformatted
  | warning
  | failed
  deriving DecidableEq, Repr, Inhabited

namespace Status

/-- The word itself. -/
def word : Status → String
  | running => "Running"
  | finished => "Finished"
  | formatted => "Formatted"
  | unchanged => "Unchanged"
  | unformatted => "Unformatted"
  | warning => "Warning"
  | failed => "Failed"

/-- The colour of the word. -/
def colour : Status → Colour
  | running | finished | formatted => .green
  | unchanged => .white
  | unformatted | warning => .yellow
  | failed => .red

/-- A status line: the word, right-aligned to eleven columns, and a text. -/
def line (s : Status) (text : String) : Styled :=
  [.style ⟨true, true, some s.colour⟩, .text ("".pushn ' ' (11 - s.word.length) ++ s.word),
    .style .none, .text (" " ++ text ++ "\n")]

end Status

/-- One thing a command shows. -/
inductive Event where
  /-- Text on the output. -/
  | out (text : String)
  /-- A note. -/
  | note (text : Styled)
  /-- A note that is a status line. -/
  | status (s : Status) (text : String)
  /-- The note that a program has come to its end, with the time it took. -/
  | finished
  deriving DecidableEq, Repr, Inhabited

namespace Transcript

/-- All output. -/
def output (events : List Event) : String :=
  String.join (events.map fun
    | .out text => text
    | _ => "")

/-- All notes, coloured or not; `elapsed` tells the time that programs took. -/
def notes (colour : Bool) (elapsed : String) (events : List Event) : String :=
  String.join (events.map fun
    | .out _ => ""
    | .note text => text.render colour
    | .status s text => (s.line text).render colour
    | .finished => (Status.finished.line ("in " ++ elapsed)).render colour)

end Transcript

end GujaratiScript
