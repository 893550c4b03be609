import GujaratiScript.Token.Basic

/-!
# Reading tokens

`Lexer` is a cursor over a source text. At each place that is not blank, `scan` reads one token or
meets a fault, and `Lexer.nextLexeme` adds places.

* `tokenize` : all lexemes of a text, the last of them the end mark, or the first fault;
* `Lexer.next?` : the same one by one, silent after the end or a fault;
* `length_rest_nextLexeme` : a lexeme other than the end mark takes at least one character.
-/

namespace GujaratiScript

open Unicode

/-! ## Faults -/

/-- Why a text has no token at some place. -/
inductive LexCause where
  | unexpectedCharacter (c : Char)
  | unterminatedString
  | unknownEscape (c : Char)
  | integerTooLarge
  deriving DecidableEq, Repr, Inhabited

/-- The largest integer of the language. -/
def maxInteger : Int := 9223372036854775807

/-- The smallest integer of the language. -/
def minInteger : Int := -9223372036854775808

namespace LexCause

/-- What went wrong, in a sentence. -/
def message : LexCause → String
  | unexpectedCharacter c => "Unexpected character '" ++ c.toString ++ "'"
  | unterminatedString => "Unterminated string"
  | unknownEscape c => "Unknown escape sequence '\\" ++ c.toString ++ "'"
  | integerTooLarge => "Integer literal is too large"

/-- What would help. -/
def hints : LexCause → List String
  | unexpectedCharacter c =>
    if c = '=' then ["Use `che` to bind a value, `==` to compare"]
    else if c = '!' then ["Only `!=` is supported"]
    else []
  | unterminatedString => []
  | unknownEscape _ => ["Supported escapes: \\n \\t \\\" \\\\"]
  | integerTooLarge => ["The largest integer is " ++ toString maxInteger]

end LexCause

/-- A fault of the text and its place. -/
structure LexFault where
  cause : LexCause
  span : Span
  deriving DecidableEq, Repr, Inhabited

/-! ## One token -/

/-- What is read at a place that is not blank.

A token has the text it covers. A fault lies at `extent`, which `before` leads up to; the cursor
moves over `passed`. -/
inductive Scan where
  | token (token : Token) (text rest : List Char)
  | fault (cause : LexCause) (before extent passed rest : List Char)
  deriving Repr

/-- Spaces, tabs and carriage returns part tokens and mean nothing else. -/
def isBlank (c : Char) : Bool :=
  c == ' ' || c == '\t' || c == '\r'

/-- Whether a word may end before `cs`: no character follows that would go on with it. -/
def atWordEnd (cs : List Char) : Bool :=
  match cs with
  | [] => true
  | c :: _ => !isIdentContinue c

/-- The first phrase of the table that `cs` begins with and that ends where a word may end. -/
def phraseAt? (cs : List Char) : Option Keyword :=
  Keyword.phrases.find? fun k =>
    k.spelling.toList.isPrefixOf cs && atWordEnd (cs.drop k.spelling.toList.length)

/-- A keyword of several words, or else the longest run of identifier characters: a keyword of one
word, or a name. -/
def scanWord (c : Char) (cs : List Char) : Scan :=
  match phraseAt? (c :: cs) with
  | some k =>
    let n := k.spelling.toList.length - 1
    .token (.word k) (c :: cs.take n) (cs.drop n)
  | none =>
    let word := c :: cs.takeWhile isIdentContinue
    let rest := cs.dropWhile isIdentContinue
    match Keyword.ofWord? (String.ofList word) with
    | some k => .token (.word k) word rest
    | none => .token (.ident (String.ofList word)) word rest

/-- Digits of ASCII. -/
def isDigit (c : Char) : Bool :=
  isAsciiDigit c.toNat

/-- The number that decimal digits stand for. -/
def decimalValue (digits : List Char) : Nat :=
  digits.foldl (fun n c => 10 * n + (c.toNat - 0x30)) 0

/-- The longest run of digits, which must stand for an integer of the language. -/
def scanNumber (c : Char) (cs : List Char) : Scan :=
  let digits := c :: cs.takeWhile isDigit
  let rest := cs.dropWhile isDigit
  let value := decimalValue digits
  if (value : Int) ≤ maxInteger then .token (.int (Int64.ofInt value)) digits rest
  else .fault .integerTooLarge [] digits digits rest

/-- The character that stands for another after a backslash. -/
def unescape? (c : Char) : Option Char :=
  if c = 'n' then some '\n'
  else if c = 't' then some '\t'
  else if c = '\x22' then some '\x22'
  else if c = '\\' then some '\\'
  else none

/-- How the text after an opening quote goes on. -/
inductive StringEnd where
  /-- The text up to and with the closing quote, and the value it stands for. -/
  | closed (raw value : List Char) (rest : List Char)
  /-- No closing quote up to the end of the text. -/
  | unclosed (raw : List Char)
  /-- A backslash before a character that stands for no other. -/
  | badEscape (raw : List Char) (c : Char) (rest : List Char)
  deriving Repr

/-- Reads up to the closing quote; `raw` and `value` hold what was read so far, last first. -/
def stringEnd (raw value : List Char) : List Char → StringEnd
  | [] => .unclosed raw.reverse
  | c :: cs =>
    if c = '\x22' then .closed ('\x22' :: raw).reverse value.reverse cs
    else if c = '\\' then
      match cs with
      | [] => .unclosed ('\\' :: raw).reverse
      | e :: ds =>
        match unescape? e with
        | some d => stringEnd (e :: '\\' :: raw) (d :: value) ds
        | none => .badEscape raw.reverse e (e :: ds)
    else stringEnd (c :: raw) (c :: value) cs

/-- A text between double quotes; it may run over several lines. -/
def scanString (cs : List Char) : Scan :=
  match stringEnd [] [] cs with
  | .closed raw value rest => .token (.str (String.ofList value)) ('\x22' :: raw) rest
  | .unclosed raw => .fault .unterminatedString [] ['\x22'] ('\x22' :: raw) []
  | .badEscape raw c rest =>
    .fault (.unknownEscape c) ('\x22' :: raw) ['\\'] ('\x22' :: raw ++ ['\\']) rest

/-- A sign that an equals sign may follow; `alone` is what it means without one. -/
def scanPair (c : Char) (pair : Operator) (alone : Option Operator) (cs : List Char) : Scan :=
  match cs, alone with
  | '=' :: rest, _ => .token (.op pair) [c, '='] rest
  | _, some o => .token (.op o) [c] cs
  | _, none => .fault (.unexpectedCharacter c) [] [c] [c] cs

/-- The token of a character that is always a token by itself. -/
def single? (c : Char) : Option Token :=
  match c with
  | '\n' => some .newline
  | '(' => some .leftParen
  | ')' => some .rightParen
  | '\x7b' => some .leftBrace
  | '\x7d' => some .rightBrace
  | '+' => some (.op .add)
  | '-' => some (.op .subtract)
  | '*' => some (.op .multiply)
  | '/' => some (.op .divide)
  | '%' => some (.op .modulo)
  | _ => none

/-- Reads the token that begins with `c` and goes on in `cs`. -/
def scan (c : Char) (cs : List Char) : Scan :=
  match single? c with
  | some t => .token t [c] cs
  | none =>
    if c = '=' then scanPair c .equal none cs
    else if c = '!' then scanPair c .notEqual none cs
    else if c = '<' then scanPair c .lessEqual (some .less) cs
    else if c = '>' then scanPair c .greaterEqual (some .greater) cs
    else if c = '\x22' then scanString cs
    else if isDigit c then scanNumber c cs
    else if isIdentStart c then scanWord c cs
    else .fault (.unexpectedCharacter c) [] [c] [] (c :: cs)

/-! ## What a scan takes -/

theorem length_dropWhile_le (p : Char → Bool) (cs : List Char) :
    (cs.dropWhile p).length ≤ cs.length :=
  (List.dropWhile_sublist p).length_le

theorem length_rest_stringEnd {raw value cs raw' value' rest : List Char}
    (h : stringEnd raw value cs = .closed raw' value' rest) : rest.length ≤ cs.length := by
  fun_induction stringEnd raw value cs with
  | case1 => simp at h
  | case2 raw value cs =>
    simp only [StringEnd.closed.injEq] at h
    simp [h.2.2]
  | case3 => simp at h
  | case4 raw value _ e ds d _ ih =>
    have := ih h
    simp only [List.length_cons]
    omega
  | case5 => simp at h
  | case6 raw value c cs _ _ ih =>
    have := ih h
    simp only [List.length_cons]
    omega

/-- A token takes at least one character. -/
theorem length_rest_scan {c : Char} {cs : List Char} {t : Token} {text rest : List Char}
    (h : scan c cs = .token t text rest) : rest.length ≤ cs.length := by
  have pair : ∀ (p : Operator) (a : Option Operator),
      scanPair c p a cs = .token t text rest → rest.length ≤ cs.length := by
    intro p a h
    unfold scanPair at h
    split at h <;> simp at h
    · simp [← h.2.2]
    · simp [h.2.2]
  unfold scan at h
  split at h
  · simp only [Scan.token.injEq] at h
    simp [h.2.2]
  · split at h
    · exact pair _ _ h
    split at h
    · exact pair _ _ h
    split at h
    · exact pair _ _ h
    split at h
    · exact pair _ _ h
    split at h
    · unfold scanString at h
      split at h <;> simp at h
      rename_i eq
      rw [← h.2.2]
      exact length_rest_stringEnd eq
    split at h
    · simp only [scanNumber] at h
      split at h <;> simp at h
      rw [← h.2.2]
      exact length_dropWhile_le _ _
    split at h
    · simp only [scanWord] at h
      split at h
      · simp only [Scan.token.injEq] at h
        simp [← h.2.2]
      · split at h <;> simp only [Scan.token.injEq] at h <;> rw [← h.2.2] <;>
          exact length_dropWhile_le _ _
    · simp at h

/-! ## The cursor -/

/-- A cursor over a source text: what is left of it, where that begins, and whether the lexemes
have come to an end. -/
structure Lexer where
  rest : List Char
  mark : Mark
  finished : Bool
  deriving Repr, Inhabited

namespace Lexer

/-- A cursor before the first character of a text. -/
def ofText (text : String) : Lexer := ⟨text.toList, .origin, false⟩

/-- Reads one lexeme, whatever was read before. Reaching the end of the text finishes the cursor. -/
def nextLexeme (l : Lexer) : Except LexFault Lexeme × Lexer :=
  let start := l.mark.advance (l.rest.takeWhile isBlank)
  match l.rest.dropWhile isBlank with
  | [] => (.ok ⟨.eof, "", .between start start⟩, ⟨[], start, true⟩)
  | c :: cs =>
    match scan c cs with
    | .token t text rest =>
      let stop := start.advance text
      (.ok ⟨t, String.ofList text, .between start stop⟩, ⟨rest, stop, l.finished⟩)
    | .fault cause before extent passed rest =>
      let place := start.advance before
      (.error ⟨cause, .between place (place.advance extent)⟩,
        ⟨rest, start.advance passed, l.finished⟩)

/-- Reads one lexeme unless the lexemes have come to an end, by the end mark or a fault. -/
def next? (l : Lexer) : Option (Except LexFault Lexeme) × Lexer :=
  if l.finished then (none, l)
  else
    match l.nextLexeme with
    | (.ok lexeme, l') => (some (.ok lexeme), l')
    | (.error fault, l') => (some (.error fault), ⟨l'.rest, l'.mark, true⟩)

/-- A lexeme other than the end mark takes at least one character. -/
theorem length_rest_nextLexeme {l l' : Lexer} {x : Lexeme} (h : l.nextLexeme = (.ok x, l'))
    (hx : x.token ≠ .eof) : l'.rest.length < l.rest.length := by
  simp only [nextLexeme] at h
  have blanks := length_dropWhile_le isBlank l.rest
  split at h
  · simp only [Prod.mk.injEq, Except.ok.injEq] at h
    exact absurd (by rw [← h.1]) hx
  · rename_i c cs eq
    rw [eq, List.length_cons] at blanks
    split at h
    · rename_i t text rest hs
      simp only [Prod.mk.injEq, Except.ok.injEq] at h
      have := length_rest_scan hs
      rw [← h.2]
      show rest.length < _
      omega
    · simp at h

/-- All lexemes from the cursor to the end mark, after those already read (last first). -/
def collect (l : Lexer) (read : List Lexeme) : Except LexFault (List Lexeme) :=
  match _h : l.nextLexeme with
  | (.error fault, _) => .error fault
  | (.ok x, l') =>
    if _hx : x.token = .eof then .ok (x :: read).reverse
    else l'.collect (x :: read)
termination_by l.rest.length
decreasing_by exact length_rest_nextLexeme _h _hx

/-- The cursor as text: its place and the two characters after it. -/
def describe (l : Lexer) : String :=
  let shown : Option Char → String
    | none => "None"
    | some c => "Some(" ++ Text.quotedChar c ++ ")"
  "Lexer \x7b\n\tposition: " ++ toString l.mark.offset ++
    ",\n\tline: " ++ toString l.mark.line ++ ", col: " ++ toString l.mark.col ++
    ",\n\tch: " ++ shown l.rest.head? ++ ", next_ch: " ++ shown l.rest.tail.head? ++ "\n\x7d"

end Lexer

/-- All lexemes of a text, ended by exactly one end mark, or the first fault. -/
def tokenize (text : String) : Except LexFault (List Lexeme) :=
  (Lexer.ofText text).collect []

end GujaratiScript
