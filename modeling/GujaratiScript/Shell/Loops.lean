import GujaratiScript.Session
import GujaratiScript.Shell.Input
import GujaratiScript.Shell.Transcript

/-!
# Interactive loops

Each loop reads lines of one input and answers them.

* `tokenLoop` : the lexemes of each line;
* `layoutLoop` : the canonical layout of each line;
* `snippetLoop` : runs snippets of several lines, each ended by a blank one; programs read from the
  same input as the loop itself.
-/

namespace GujaratiScript

/-! ## Fences -/

/-- Whether a text occurs in another. -/
def occursIn (part : List Char) : List Char → Bool
  | [] => part.isEmpty
  | c :: rest => part.isPrefixOf (c :: rest) || occursIn part rest

/-- A text between the two fences. -/
def fenced (text : String) : String := "kem bhai\n" ++ text ++ "\naavjo bhai"

/-- A snippet between the two fences, unless the words of the first one occur in it. -/
def withFences (snippet : String) : String :=
  if occursIn "kem bhai".toList snippet.toList then snippet else fenced snippet

/-! ## One line at a time -/

/-- Answers lines by `answer` after a prompt each, until one is the word that leaves. -/
def lineLoop (answer : String → List Event) : List String → List Event
  | [] => [.out ">> "]
  | line :: rest =>
    let input := withoutOneLineEnd line
    .out ">> " ::
      if input = ".exit" then []
      else (if input = "" then [] else answer input) ++ lineLoop answer rest

/-- A text filled up with spaces to fifteen characters. -/
def padded (s : String) : String :=
  s.pushn ' ' (15 - s.length)

/-- What the loop over tokens says of a lexeme. -/
def Lexeme.answer (x : Lexeme) : Event :=
  .out (padded x.token.tag ++ " " ++ Text.quoted x.text ++ " at " ++ x.span.text ++ "\n")

/-- What the loop over tokens says of a fault. -/
def LexFault.answer (f : LexFault) : List Event :=
  .out ("[at " ++ f.span.text ++ "] Lexical Error: " ++ f.cause.message ++ "\n") ::
    if f.cause.hints.isEmpty then [] else [.out ("\n".intercalate f.cause.hints ++ "\n")]

/-- The lexemes from a cursor on, up to the end mark or a fault. -/
def Lexer.answers (l : Lexer) : List Event :=
  match _h : l.nextLexeme with
  | (.error fault, _) => fault.answer
  | (.ok x, l') => if _hx : x.token = .eof then [] else x.answer :: l'.answers
termination_by l.rest.length
decreasing_by exact Lexer.length_rest_nextLexeme _h _hx

/-- Shows the lexemes of each line. -/
def tokenLoop (input : String) : List Event :=
  lineLoop (fun line => (Lexer.ofText line).answers) (inputLines input)

/-- Shows the canonical layout of each line, between fences if it has none. -/
def layoutLoop (input : String) : List Event :=
  lineLoop
    (fun line =>
      match Program.ofSource (withFences line) with
      | .ok p => [.out p.layout]
      | .error failure => [.out (failure.caretText ++ "\n")])
    (inputLines input)

/-! ## Snippets -/

/-- The first lines that the loop over snippets shows. -/
def greeting : String :=
  "KemLang REPL v0.1.0\n" ++
  "Finish a snippet with an empty line, leave with `.exit` or Ctrl+D.\n" ++
  "`kem bhai` ... `aavjo bhai` is added when missing.\n\n"

/-- Runs a snippet in scopes of its own; it may read from `lines`. Gives what it shows and how many
of the lines it has read. -/
def runSnippet (rounds : Nat) (snippet : String) (lines : List String) :
    Option (List Event × Nat) :=
  let failed := Event.status .failed "Execution failed"
  match Program.ofSource (withFences snippet) with
  | .error failure => some ([.note (failure.withPath "<repl>").styled, failed], 0)
  | .ok p =>
    match p.interpret rounds (.start (.ofLines (lines.map withoutLineEnd)) .unlimited) with
    | none => none
    | some (code, m) =>
      some (m.log.offered.toList.map (fun line => .out (line ++ "\n")) ++
        (if code = 0 then [] else [failed]), lines.length - m.feed.pending.length)

/-- Collects the lines of a snippet (`held`, the last first) and runs it when a blank line or the
end of the input follows. -/
def snippets (rounds : Nat) (held lines : List String) : Option (List Event) :=
  let prompt := Event.out (if held.isEmpty then ">>> " else "... ")
  match lines with
  | [] =>
    if held.isEmpty then some [prompt, .out "\n"]
    else
      match runSnippet rounds ("\n".intercalate held.reverse) [] with
      | none => none
      | some (events, _) => some (prompt :: .out "\n" :: events ++ [.out "\n"])
  | line :: rest =>
    let input := withoutLineEnd line
    if held.isEmpty ∧ trimmed input = ".exit" then some [prompt]
    else if trimmed input = "" then
      if held.isEmpty then (snippets rounds [] rest).map (prompt :: ·)
      else
        match runSnippet rounds ("\n".intercalate held.reverse) rest with
        | none => none
        | some (events, read) =>
          (snippets rounds [] (rest.drop read)).map fun more => prompt :: events ++ more
    else (snippets rounds (input :: held) rest).map (prompt :: ·)
termination_by lines.length
decreasing_by
  all_goals simp only [List.length_cons, List.length_drop]; omega

/-- Greets, and runs snippets until the input ends or a snippet would begin by leaving. -/
def snippetLoop (rounds : Nat) (input : String) : Option (List Event) :=
  (snippets rounds [] (inputLines input)).map (.out greeting :: ·)

end GujaratiScript
