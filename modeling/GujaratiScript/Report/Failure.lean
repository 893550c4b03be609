import GujaratiScript.Report.Excerpt
import GujaratiScript.Run.Fault
import GujaratiScript.Tree.Fault

/-!
# Failures and their reports

A `Failure` is all that can go wrong with a program: its text has no tokens, its tokens are no
program, its run meets a fault, or a file cannot be read. It can be shown in three ways.

* `Failure.caretText` : without frame or colour, one caret report for each fault (`caretReport`);
* `Failure.notices` : as notices, each with a title, an excerpt of the source and what would help;
* `Failure.styled` : the notices as styled text.
-/

namespace GujaratiScript

/-! ## Caret reports -/

/-- The lines of a text, without the line breaks between them. -/
def linesOf (text : String) : List String :=
  (text.toList.splitOn '\n').map String.ofList

/-- A message of the given kind with the line it is about and a caret under the column. A line that
the text does not have is only named. -/
def caretReport (text : String) (line col : Nat) (message kind : String) : String :=
  let place := toString line ++ ":" ++ toString col
  let head := kind ++ ": " ++ message
  match line, (linesOf text)[line - 1]? with
  | _ + 1, some shown =>
    let number := toString line
    head ++ "\n --> line " ++ place ++ "\n" ++ number ++ " | " ++ shown ++ "\n" ++
      "".pushn ' ' (number.length + 3 + (col - 1)) ++ "^"
  | _, _ => head ++ " (line " ++ place ++ ")"

/-! ## Notices -/

/-- How serious a notice is. -/
inductive Level where
  | error
  | warning
  deriving DecidableEq, Repr, Inhabited

namespace Level

/-- The word a notice opens with. -/
def word : Level → String
  | error => "error"
  | warning => "warning"

/-- The colour of that word and of the main label. -/
def colour : Level → Colour
  | error => .red
  | warning => .yellow

end Level

/-- What a notice is about: a text with its path, and labels on it, the main one first. -/
structure Subject where
  path : String
  text : String
  main : Label
  others : List Label
  deriving DecidableEq, Repr, Inhabited

/-- A title, the source it is about, and a text below. -/
structure Notice where
  level : Level
  title : String
  subject : Option Subject
  text : String
  deriving DecidableEq, Repr, Inhabited

namespace Notice

/-- A notice as styled text. -/
def styled (n : Notice) : Styled :=
  let head : Styled :=
    match n.subject with
    | some s =>
      [.style ⟨true, true, some n.level.colour⟩, .text n.level.word,
        .style ⟨true, true, none⟩, .text (": " ++ n.title), .style .none, .text "\n"] ++
        Excerpt.render s.path s.text n.level.colour (s.main :: s.others) ++ Styled.text "\n"
    | none =>
      [.style ⟨true, false, some n.level.colour⟩, .text n.level.word,
        .style ⟨true, false, none⟩, .text (": " ++ n.title ++ "\n\n"), .style .none]
  head ++ (if n.text.isEmpty then [] else Styled.text (n.text ++ "\n"))

end Notice

/-! ## Failures -/

/-- What is wrong with a program. -/
inductive ProgramFault where
  | lexical (fault : LexFault)
  /-- All faults that were met, in the order they were met. -/
  | grammatical (faults : List ParseFault)
  | runtime (fault : RunFault)
  deriving DecidableEq, Repr, Inhabited

/-- What can go wrong: a fault of a program with its text and path, or of the outside world. -/
inductive Failure where
  | program (path text : String) (fault : ProgramFault)
  | system (path : Option String) (fault : SystemFault)
  deriving DecidableEq, Repr, Inhabited

/-- A message, what would help, and the place both are about. -/
structure Finding where
  message : String
  hints : List String
  span : Span
  deriving DecidableEq, Repr, Inhabited

/-- What a fault of the text says. -/
def LexFault.finding (f : LexFault) : Finding := ⟨f.cause.message, f.cause.hints, f.span⟩

/-- What a fault of the tokens says. -/
def ParseFault.finding (f : ParseFault) : Finding := ⟨f.cause.message, f.cause.hints, f.span⟩

/-- What a fault of a run says. -/
def RunFault.finding (f : RunFault) : Finding := ⟨f.cause.message, f.cause.hints, f.span⟩

namespace ProgramFault

/-- All findings, in order. -/
def findings : ProgramFault → List Finding
  | lexical f => [f.finding]
  | grammatical fs => fs.map ParseFault.finding
  | runtime f => [f.finding]

/-- The kind of the fault, as caret reports name it. -/
def kind : ProgramFault → String
  | lexical _ => "LexerError"
  | grammatical _ => "ParseError"
  | runtime _ => "RuntimeError"

/-- The title of a notice about the fault. -/
def title : ProgramFault → String
  | lexical _ => "Lexical error"
  | grammatical _ => "Syntax error"
  | runtime _ => "Runtime error"

/-- The fault in a few words. -/
def summary : ProgramFault → String
  | lexical _ => "failed to tokenize source code"
  | grammatical _ => "failed to parse source code"
  | runtime _ => "program failed at runtime"

end ProgramFault

/-- The byte range a notice marks. A program that ends too early is marked at its very end. -/
def ParseFault.marked (text : String) (f : ParseFault) : UInt32 × UInt32 :=
  match f.cause with
  | .unexpectedEnd | .expectedEnd => (text.utf8ByteSize, text.utf8ByteSize)
  | _ => (f.span.start, f.span.stop)

namespace Failure

/-- The failure of a program whose path is not known. -/
def ofFault (text : String) (fault : ProgramFault) : Failure := .program "" text fault

/-- The failure with another path. -/
def withPath (path : String) : Failure → Failure
  | program _ text fault => .program path text fault
  | system _ fault => .system (some path) fault

/-- The kind of the failure, as caret reports name it. -/
def kind : Failure → String
  | program _ _ fault => fault.kind
  | system _ _ => "IOError"

/-- The failure in a few words. -/
def summary : Failure → String
  | program _ _ fault => fault.summary
  | system _ _ => "IO operation failed"

/-- The first finding, if the failure is about a place of a program. -/
def first? : Failure → Option Finding
  | program _ _ fault => fault.findings.head?
  | system _ _ => none

/-- The fault of the outside world and the path it is about. -/
def systemText (path : Option String) (fault : SystemFault) : String :=
  match path with
  | some p => fault.text ++ " (" ++ p ++ ")"
  | none => fault.text

/-- One caret report for each finding. -/
def caretText : Failure → String
  | program _ text fault =>
    "\n".intercalate (fault.findings.map fun f =>
      caretReport text f.span.line f.span.col f.message fault.kind)
  | system path fault => "IOError: " ++ systemText path fault

/-- A notice about a place of a program. -/
def noticeAt (path text title : String) (range : UInt32 × UInt32) (f : Finding) : Notice :=
  ⟨.error, title, some ⟨path, text, ⟨true, range.1, range.2, f.message⟩, []⟩,
    "\n".intercalate f.hints⟩

/-- One notice for each finding. -/
def notices : Failure → List Notice
  | program path text fault =>
    match fault with
    | .grammatical fs =>
      fs.map fun f => noticeAt path text fault.title (f.marked text) f.finding
    | _ =>
      fault.findings.map fun f =>
        noticeAt path text fault.title (f.span.start, f.span.stop) f
  | system path fault => [⟨.error, "Standard IO error", none, systemText path fault⟩]

/-- All notices, each followed by an empty line. -/
def styled (f : Failure) : Styled :=
  f.notices.flatMap fun n => n.styled ++ Styled.text "\n"

end Failure

end GujaratiScript
