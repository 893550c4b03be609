import GujaratiScript.Report.Failure
import GujaratiScript.Run.Machine
import GujaratiScript.Source.Decode
import GujaratiScript.Token.Lexer
import GujaratiScript.Tree.Layout
import GujaratiScript.Tree.Parser

/-!
# From source texts to results

* `Program.ofSource` : the program that a text is, or why it is none;
* `executeSource` : reads and runs a text, and keeps any failure;
* `runSource` : reads and runs a text, and reports any failure as a last line of output;
* `formatSource` : the canonical layout of a text;
* `readSource` : the text that the bytes of a file stand for.
-/

namespace GujaratiScript

/-- The program that a text is, or all faults that keep it from being one. -/
def Program.ofSource (text : String) : Except Failure Program :=
  match tokenize text with
  | .error fault => .error (.ofFault text (.lexical fault))
  | .ok lexemes =>
    match Program.ofLexemes lexemes with
    | .error faults => .error (.ofFault text (.grammatical faults))
    | .ok p => .ok p

/-- Reads and runs a text; each loop is allowed `rounds` rounds. -/
def executeSource (rounds : Nat) (text : String) (feed : Feed) (log : Log) :
    Option (Except Failure Unit × Machine) :=
  match Program.ofSource text with
  | .error failure => some (.error failure, .start feed log)
  | .ok p =>
    match p.execute rounds (.start feed log) with
    | none => none
    | some (.ok (), m) => some (.ok (), m)
    | some (.error fault, m) => some (.error (.ofFault text (.runtime fault)), m)

/-- How a text that is no program is reported. -/
def Failure.report (f : Failure) : String :=
  "Error: " ++
    match f.first? with
    | some finding => finding.message
    | none => f.summary

/-- Reads and runs a text and offers a report if that fails; gives the exit code. -/
def runSource (rounds : Nat) (text : String) (feed : Feed) (log : Log) :
    Option (Nat × Machine) :=
  match Program.ofSource text with
  | .error failure => some (1, (Machine.start feed log).say failure.report)
  | .ok p => p.interpret rounds (.start feed log)

/-- The canonical layout of a text. -/
def formatSource (text : String) : Except Failure String :=
  match Program.ofSource text with
  | .error failure => .error failure
  | .ok p => .ok p.layout

/-- How bytes that are no text are reported. -/
def DecodeFault.system : DecodeFault → SystemFault
  | invalid => .invalidData
  | cutOff => .unexpectedEof

/-- The text of the file at `path`, whose bytes or fault are given. -/
def readSource (path : String) (content : Except SystemFault (List UInt8)) :
    Except Failure String :=
  match content with
  | .error fault => .error (.system (some path) fault)
  | .ok bytes =>
    match decode bytes with
    | .error fault => .error (.system (some path) fault.system)
    | .ok text => .ok text

end GujaratiScript
