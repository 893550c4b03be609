import GujaratiScript.Unicode.Classes

/-!
# Quoted and styled text

A quoted text stands between quotes, and every character of it can be seen: the common controls and
the backslash as a letter after a backslash, the quote itself after a backslash, and every character
that shows nothing or attaches to its neighbour by its code point in hexadecimal.

* `Text.quoted` : a text between double quotes;
* `Text.quotedChar` : a character between single quotes.

A styled text has changes of style in it, which a terminal shows as colours and a file not at all.

* `Styled.plain` : the text alone;
* `Styled.coloured` : the text with the escape sequences that change the style.

Both keep the order of the pieces (`plain_append`, `coloured_append`).
-/

namespace GujaratiScript

/-! ## Quoted text -/

namespace Text

/-- The digits of a number in base sixteen, in lower case. -/
def hex (n : Nat) : String :=
  String.ofList (Nat.toDigits 16 n)

/-- How a character is written between the quotes `quote`. -/
def shown (quote c : Char) : String :=
  if c = '\x00' then "\\0"
  else if c = '\t' then "\\t"
  else if c = '\r' then "\\r"
  else if c = '\n' then "\\n"
  else if c = '\\' then "\\\\"
  else if c = quote then "\\" ++ quote.toString
  else if Unicode.isPlain c then c.toString
  else "\\u\x7b" ++ hex c.toNat ++ "\x7d"

/-- A text between double quotes. -/
def quoted (s : String) : String :=
  "\"" ++ String.join (s.toList.map (shown '\x22')) ++ "\""

/-- A character between single quotes. -/
def quotedChar (c : Char) : String :=
  "'" ++ shown '\x27' c ++ "'"

end Text

/-! ## Styled text -/

/-- The colours in use. -/
inductive Colour where
  | red
  | green
  | yellow
  | blue
  | white
  deriving DecidableEq, Repr, Inhabited

/-- The number of a colour in the palette of a terminal. -/
def Colour.number : Colour → Nat
  | red => 1
  | green => 2
  | yellow => 3
  | blue => 4
  | white => 7

/-- A style: bold or not, in a colour or not, and that colour bright or not. -/
structure Style where
  bold : Bool
  bright : Bool
  colour : Option Colour
  deriving DecidableEq, Repr, Inhabited

namespace Style

/-- The style of unstyled text. -/
def none : Style := ⟨false, false, .none⟩

/-- A colour and nothing else. -/
def ink (c : Colour) : Style := ⟨false, false, some c⟩

/-- The escape sequences that begin the style, whatever was before. -/
def escape (s : Style) : String :=
  "\x1b[0m" ++ (if s.bold then "\x1b[1m" else "") ++
    match s.colour with
    | .none => ""
    | some c =>
      if s.bright then "\x1b[38;5;" ++ toString (8 + c.number) ++ "m"
      else "\x1b[3" ++ toString c.number ++ "m"

end Style

/-- A piece of text, or a change of style. -/
inductive Piece where
  | text (s : String)
  | style (s : Style)
  deriving DecidableEq, Repr, Inhabited

/-- A text with changes of style in it. -/
abbrev Styled := List Piece

namespace Styled

/-- Text as it comes. -/
def text (s : String) : Styled := [.text s]

/-- Text in a style that ends with it. -/
def within (style : Style) (s : String) : Styled := [.style style, .text s, .style .none]

/-- The text alone. -/
def plain (t : Styled) : String :=
  String.join (t.map fun
    | .text s => s
    | .style _ => "")

/-- The text with escape sequences. -/
def coloured (t : Styled) : String :=
  String.join (t.map fun
    | .text s => s
    | .style s => s.escape)

/-- Texts that follow each other are shown one after the other. -/
@[simp] theorem plain_append (s t : Styled) : plain (s ++ t) = s.plain ++ t.plain := by
  simp [plain]

/-- Texts that follow each other are coloured one after the other. -/
@[simp] theorem coloured_append (s t : Styled) :
    coloured (s ++ t) = s.coloured ++ t.coloured := by
  simp [coloured]

/-- A style leaves the text as it is. -/
@[simp] theorem plain_within (style : Style) (s : String) : plain (within style s) = s := by
  simp [plain, within]

/-- The text with or without escape sequences. -/
def render (colour : Bool) (t : Styled) : String :=
  if colour then t.coloured else t.plain

end Styled

end GujaratiScript
