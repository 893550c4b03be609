import GujaratiScript.Shell.Command

/-!
# The program

Reads the arguments, the files that the command may look at and, if they are wanted, the lines of
the standard input; performs the command; shows what there is to show and writes what has changed.
-/

namespace GujaratiScript

/-! ## Files -/

/-- The file with a path, or nothing if it cannot be read. -/
def loadFile (path : String) : IO (Option Node) := do
  try
    let bytes ← IO.FS.readBinFile path
    return some (.file bytes.toList)
  catch _ => return none

/-- The file or folder with a path, if there is one. A folder is read `depth` levels deep. -/
def loadNode (depth : Nat) (path : String) : IO (Option Node) := do
  try
    let real ← IO.FS.realPath path
    if ← real.isDir then
      match depth with
      | 0 => return some (.folder [])
      | below + 1 =>
        let mut entries := #[]
        for entry in ← real.readDir do
          if let some node ← loadNode below (Path.join path entry.fileName) then
            entries := entries.push ⟨entry.fileName, node⟩
        return some (.folder entries.toList)
    else loadFile path
  catch _ => return none

/-- The names that lead straight to where a route leads. -/
def straight (route : List String) : List String :=
  let step (read : List String) (name : String) : List String :=
    if Path.isStill name then read else if name = ".." then read.tail else name :: read
  (route.foldl step []).reverse

/-- The path from the root of the file system along some names. -/
def absolutePath (names : List String) : String :=
  "/" ++ "/".intercalate names

/-- The tree with all nodes on a route that exist, the last of them read `depth` levels deep. -/
def loadRoute (depth : Nat) (root : Node) (route : List String) : IO Node := do
  let mut tree := root
  for n in [0:route.length + 1] do
    let way := route.take n
    match ← loadNode (if n = route.length then depth else 0) (absolutePath way) with
    | some node@(.file _) => tree := tree.alter (fun _ => node) (straight way)
    | some node =>
      tree := tree.alter (fun old => if n = route.length then node else old) (straight way)
    | none => return tree
  return tree

/-- Folders below a folder are read to this depth. -/
def folderDepth : Nat := 256

/-- The files that a command may look at. -/
def loadFiles (command : Command) : IO Files := do
  let here := straight (Path.steps (← IO.currentDir).toString)
  let start : Files := ⟨Node.alter id here (.folder []), here⟩
  match command.path? with
  | none => return start
  | some path =>
    let depth := match command with
      | .format _ _ => folderDepth
      | _ => 0
    return ⟨← loadRoute depth start.root (start.route path), here⟩

/-- Writes the files that a command has changed. -/
def writeChanges (before after : Files) : IO Unit := do
  for names in after.root.trails do
    let path := absolutePath names
    match before.read path, after.read path with
    | .ok old, .ok new =>
      if old != new then IO.FS.writeBinFile path (ByteArray.mk new.toArray)
    | _, _ => pure ()

/-! ## Terminal -/

/-- Whether notes are shown in colour: if the environment asks for it, or on a terminal. -/
def wantsColour : IO Bool := do
  if ((← IO.getEnv "FORCE_COLOR").getD "") ≠ "" then return true
  unless ← (← IO.getStderr).isTty do return false
  match ← IO.getEnv "TERM", ← IO.getEnv "NO_COLOR" with
  | some terminal, none => return terminal ≠ "dumb"
  | _, _ => return false

/-- A duration in seconds with two places. -/
def secondsText (milliseconds : Nat) : String :=
  let hundredths := (milliseconds + 5) / 10
  toString (hundredths / 100) ++ "." ++ DecimalStyle.padded 2 (hundredths % 100) ++ "s"

/-- Shows events in turn, each on its channel. -/
def showEvents (colour : Bool) (elapsed : String) (events : List Event) : IO Unit := do
  let output ← IO.getStdout
  let errors ← IO.getStderr
  for event in events do
    output.putStr (Transcript.output [event])
    output.flush
    errors.putStr (Transcript.notes colour elapsed [event])
    errors.flush

/-! ## Commands -/

/-- The rounds that each loop of a program is allowed. -/
def allowedRounds : Nat := twoTo 62

/-- How the program is called. -/
def usage : String :=
  "usage: run [--trace] PATH | tokens PATH | ast PATH | fmt [--check] PATH | repl | rlpl | rppl"

/-- Performs a command; the standard input is only read if the command wants more than nothing. -/
def performCommand (command : Command) : IO UInt32 := do
  let files ← loadFiles command
  let start ← IO.monoMsNow
  let attempt (input : String) : IO (Option Performance) :=
    IO.lazyPure fun _ => command.perform allowedRounds files input
  let first ← attempt ""
  let last ←
    match first with
    | some p => if p.hungry then (do attempt (← (← IO.getStdin).readToEnd)) else pure first
    | none => pure none
  match last with
  | none => return 1
  | some p =>
    showEvents (← wantsColour) (secondsText ((← IO.monoMsNow) - start)) p.events
    writeChanges files p.files
    return UInt32.ofNat p.code

end GujaratiScript

/-- Performs the command that the arguments stand for. -/
def main (arguments : List String) : IO UInt32 := do
  match GujaratiScript.Command.ofArguments? arguments with
  | some command => GujaratiScript.performCommand command
  | none =>
    IO.eprintln GujaratiScript.usage
    return 2
