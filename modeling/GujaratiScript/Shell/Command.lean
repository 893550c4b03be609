import GujaratiScript.Shell.FileTree
import GujaratiScript.Shell.Loops
import GujaratiScript.Tree.Outline

/-!
# Commands

The commands of the program, as functions from files and input to files, an exit code and what is
shown.

* `Command.ofArguments?` : the command that arguments stand for;
* `Command.perform` : what a command does.
-/

namespace GujaratiScript

/-- What the program is asked to do. -/
inductive Command where
  | run (path : String) (trace : Bool)
  | tokens (path : String)
  | tree (path : String)
  | format (path : String) (check : Bool)
  | snippets
  | tokenLoop
  | layoutLoop
  deriving DecidableEq, Repr, Inhabited

/-- The exit code, what was shown, the files afterwards, and whether more input was wanted than
there was. -/
structure Performance where
  code : Nat
  events : List Event
  files : Files
  hungry : Bool
  deriving Inhabited

namespace Command

/-! ## Arguments -/

/-- Parts arguments into options and others; after two dashes nothing is an option. -/
def partition : List String → List String × List String
  | [] => ([], [])
  | "--" :: rest => ([], rest)
  | a :: rest =>
    let (options, others) := partition rest
    if a.startsWith "-" ∧ a ≠ "-" then (a :: options, others) else (options, a :: others)

/-- The command of a name with its options and other arguments. -/
def ofParts? (name : String) (options others : List String) : Option Command :=
  match name, options, others with
  | "run", [], [path] => some (run path false)
  | "run", ["--trace"], [path] => some (run path true)
  | "tokens", [], [path] => some (tokens path)
  | "ast", [], [path] => some (tree path)
  | "fmt", [], [path] => some (format path false)
  | "fmt", ["--check"], [path] => some (format path true)
  | "repl", [], [] => some snippets
  | "rlpl", [], [] => some tokenLoop
  | "rppl", [], [] => some layoutLoop
  | _, _, _ => none

/-- The command that arguments stand for: its name, and then options among the others. -/
def ofArguments? : List String → Option Command
  | [] => none
  | name :: arguments =>
    let (options, others) := partition arguments
    ofParts? name options others

/-- The path that a command is about. -/
def path? : Command → Option String
  | run path _ | tokens path | tree path | format path _ => some path
  | snippets | tokenLoop | layoutLoop => none

/-! ## Single files -/

/-- The extension of source files. -/
def sourceExtension : String := "jsk"

/-- The number of tokens that a trace lists. -/
def tracedTokens : Nat := 20

/-- The note about a failure. -/
def failureNote (failure : Failure) : Event := .note failure.styled

/-- A line of a listing of tokens. -/
def tokenLine (x : Lexeme) : Event :=
  .out ("  " ++ padded x.token.tag ++ " " ++ padded (Text.quoted x.text) ++ " " ++ x.span.text ++
    "\n")

/-- The text of a source file. -/
def source (files : Files) (path : String) : Except Failure String :=
  readSource path (files.read path)

/-- Lists the first tokens of a text and shows its tree. -/
def trace (text : String) : List Event × Except Failure Program :=
  match tokenize text with
  | .error fault => ([], .error (.ofFault text (.lexical fault)))
  | .ok xs =>
    let more := xs.length - tracedTokens
    let listing := .out "Tokens:\n" :: (xs.take tracedTokens).map tokenLine ++
      (if more = 0 then [] else [.out ("  ... and " ++ toString more ++ " more tokens\n")]) ++
      [.out "\nAST:\n"]
    match Program.ofSource text with
    | .error failure => (listing, .error failure)
    | .ok p => (listing ++ [.out (p.outline.render 0 ++ "\n\n")], .ok p)

/-- What is shown before a file is run: a warning if its name is not that of a source file. -/
def extensionWarning (path : String) : List Event :=
  if Path.extension? path = some sourceExtension then []
  else [.status .warning ("'" ++ path ++ "' doesn't have the ." ++ sourceExtension ++ " extension")]

/-- Runs the program of the text at `path` after `before` was shown; it may read from `input`. -/
def runText (rounds : Nat) (files : Files) (path text input : String) (before : List Event) :
    Option Performance :=
  let shown := before ++ [.status .running path]
  match Program.ofSource text with
  | .error failure => some ⟨1, shown ++ [failureNote (failure.withPath path)], files, false⟩
  | .ok p =>
    let lines := (inputLines input).map withoutLineEnd
    match p.interpret rounds (.start (.ofLines lines) .unlimited) with
    | none => none
    | some (code, m) =>
      let printed := m.log.offered.toList.map fun line => Event.out (line ++ "\n")
      let last := if code = 0 then Event.finished else .status .failed path
      some ⟨code, shown ++ printed ++ [last], files, lines.length < m.feed.reads⟩

/-- Runs a source file, after a trace if one is wanted. -/
def runFile (rounds : Nat) (files : Files) (path : String) (withTrace : Bool) (input : String) :
    Option Performance :=
  let before := extensionWarning path
  match source files path with
  | .error failure => some ⟨1, before ++ [failureNote failure], files, false⟩
  | .ok text =>
    if withTrace then
      match trace text with
      | (listing, .error failure) =>
        some ⟨1, before ++ listing ++ [failureNote (failure.withPath path)], files, false⟩
      | (listing, .ok _) => runText rounds files path text input (before ++ listing)
    else runText rounds files path text input before

/-- Lists the tokens of a source file. -/
def listTokens (files : Files) (path : String) : Nat × List Event :=
  match source files path with
  | .error failure => (1, [failureNote failure])
  | .ok text =>
    match tokenize text with
    | .error fault => (1, [failureNote (.program path text (.lexical fault))])
    | .ok xs => (0, .out ("Tokens for " ++ path ++ ":\n") :: xs.map tokenLine)

/-- Shows the tree of a source file. -/
def showTree (files : Files) (path : String) : Nat × List Event :=
  match source files path with
  | .error failure => (1, [failureNote failure])
  | .ok text =>
    match Program.ofSource text with
    | .error failure => (1, [failureNote (failure.withPath path)])
    | .ok p => (0, [.out ("AST for " ++ path ++ ":\n"), .out (p.outline.render 0 ++ "\n")])

/-! ## Formatting -/

/-- The path of the file that names lead to from the folder at `path`, if it is a source file. -/
def sourcePath? (path : String) (names : List String) : Option String :=
  if names.getLast?.bind Path.extensionOf? = some sourceExtension then
    some (names.foldl Path.join path)
  else none

/-- The paths of the source files below the folder at a path, ordered name by name. Each folder on
the way is entered by its own path. -/
def sourcesBelow (folder : Node) (path : String) : Except SystemFault (List String) :=
  if folder.folderTrails.any fun names => Path.isTooLong (names.foldl Path.join path) then
    .error .invalidFilename
  else .ok (folder.trails.filterMap (sourcePath? path))

/-- The source files that a path stands for, if it leads anywhere: the file itself, or those below a
folder. -/
def sourcesAt? (files : Files) (path : String) : Option (Except SystemFault (List String)) :=
  match files.find? path with
  | .ok (_, .file _) => some (.ok [path])
  | .ok (_, node) => some (sourcesBelow node path)
  | .error _ => none

/-- The text of a source file with its canonical layout, or why it has none. -/
def revision (files : Files) (path : String) : Except Failure (String × String) :=
  match source files path with
  | .error failure => .error failure
  | .ok text =>
    match formatSource text with
    | .error failure => .error (failure.withPath path)
    | .ok formatted => .ok (text, formatted)

/-- Formats files in turn, or only checks whether they are formatted, until one cannot be read.
`changed` counts the files that were not formatted. -/
def formatAll (check : Bool) (files : Files) (changed : Nat) : List String → Performance
  | [] =>
    if check ∧ 0 < changed then
      ⟨1, [.status .failed (toString changed ++ " file(s) need formatting")], files, false⟩
    else ⟨0, [], files, false⟩
  | path :: rest =>
    match revision files path with
    | .error failure => ⟨1, [failureNote failure], files, false⟩
    | .ok (text, formatted) =>
      let (files', changed', events) : Files × Nat × List Event :=
        if text = formatted then
          (files, changed, if check then [] else [.status .unchanged path])
        else if check then (files, changed + 1, [.status .unformatted path])
        else
          (files.store path formatted.toUTF8.toList, changed + 1, [.status .formatted path])
      let later := formatAll check files' changed' rest
      ⟨later.code, events ++ later.events, later.files, later.hungry⟩

/-- Formats a file, or all source files below a folder. -/
def formatAt (files : Files) (path : String) (check : Bool) : Performance :=
  match sourcesAt? files path with
  | none => ⟨1, [.status .failed ("'" ++ path ++ "' is not a file or directory")], files, false⟩
  | some (.error fault) => ⟨1, [failureNote (.system (some path) fault)], files, false⟩
  | some (.ok []) =>
    ⟨0, [.status .warning ("No ." ++ sourceExtension ++ " files found")], files, false⟩
  | some (.ok paths) => formatAll check files 0 paths

/-! ## All commands -/

/-- What a command does; each loop of a program is allowed `rounds` rounds. -/
def perform (rounds : Nat) (files : Files) (input : String) : Command → Option Performance
  | run path withTrace => runFile rounds files path withTrace input
  | tokens path =>
    let (code, events) := listTokens files path
    some ⟨code, events, files, false⟩
  | tree path =>
    let (code, events) := showTree files path
    some ⟨code, events, files, false⟩
  | format path check => some (formatAt files path check)
  | snippets => (snippetLoop rounds input).map fun events => ⟨0, events, files, true⟩
  | tokenLoop => some ⟨0, GujaratiScript.tokenLoop input, files, true⟩
  | layoutLoop => some ⟨0, GujaratiScript.layoutLoop input, files, true⟩

end Command

end GujaratiScript
