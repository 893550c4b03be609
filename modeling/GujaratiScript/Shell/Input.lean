import GujaratiScript.Unicode.Classes

/-!
# Lines of an input text

* `inputLines` : the lines of a text, each with its line break;
* `withoutLineEnd`, `withoutOneLineEnd`, `trimmed` : a line without what stands at its end.

The lines of a text make up the text again (`join_inputLines`).
-/

namespace GujaratiScript

/-- The lines of a text, each with the break that ends it; `current` holds the line being read,
last character first. -/
def inputLinesFrom (current : List Char) : List Char → List String
  | [] => if current.isEmpty then [] else [String.ofList current.reverse]
  | c :: cs =>
    if c = '\n' then String.ofList (c :: current).reverse :: inputLinesFrom [] cs
    else inputLinesFrom (c :: current) cs

/-- The lines of a text, each with the break that ends it. The last one may have none. -/
def inputLines (text : String) : List String :=
  inputLinesFrom [] text.toList

/-- The line being read and the lines after it make up the text. -/
theorem join_inputLinesFrom (current cs : List Char) :
    String.join (inputLinesFrom current cs) = String.ofList (current.reverse ++ cs) := by
  induction cs generalizing current with
  | nil =>
    unfold inputLinesFrom
    split
    · simp_all
    · simp
  | cons c cs ih =>
    unfold inputLinesFrom
    split
    · simp [ih, ← String.toList_inj]
    · simp [ih]

/-- The lines of a text make up the text. -/
theorem join_inputLines (text : String) : String.join (inputLines text) = text := by
  simp [inputLines, join_inputLinesFrom]

/-- A line without the line feeds and carriage returns at its end. -/
def withoutLineEnd (line : String) : String :=
  String.ofList (line.toList.reverse.dropWhile fun c => c == '\n' || c == '\r').reverse

/-- A line without one line feed and then one carriage return at its end. -/
def withoutOneLineEnd (line : String) : String :=
  let drop (c : Char) (cs : List Char) : List Char :=
    match cs with
    | d :: ds => if d = c then ds else cs
    | [] => []
  String.ofList (drop '\r' (drop '\n' line.toList.reverse)).reverse

/-- A line without the white space around it. -/
def trimmed (line : String) : String :=
  let rest := line.toList.dropWhile Unicode.isWhite
  String.ofList (rest.reverse.dropWhile Unicode.isWhite).reverse

end GujaratiScript
