import GujaratiScript.Unicode.Unprintable
import GujaratiScript.Unicode.Width

/-!
# Classes of characters

The questions that the rest of the library asks of a single character.

* `isIdentStart`, `isIdentContinue` : the characters of identifiers;
* `isWhite` : the property White_Space;
* `isPlain` : characters that stand for themselves inside a quoted text;
* `displayWidth` : columns of a terminal.

Characters below `0x80` are decided without a table.
-/

namespace GujaratiScript.Unicode

/-! ## Identifiers -/

/-- Letters of ASCII. -/
def isAsciiLetter (n : Nat) : Bool :=
  (0x41 ≤ n && n ≤ 0x5A) || (0x61 ≤ n && n ≤ 0x7A)

/-- Digits of ASCII. -/
def isAsciiDigit (n : Nat) : Bool :=
  0x30 ≤ n && n ≤ 0x39

/-- The property Alphabetic. -/
def isAlphabetic (c : Char) : Bool :=
  if c.toNat < 0x80 then isAsciiLetter c.toNat else alphabeticRanges.contains c.toNat

/-- Decimal digits, letter numbers and other numbers. -/
def isNumeric (c : Char) : Bool :=
  if c.toNat < 0x80 then isAsciiDigit c.toNat else numericRanges.contains c.toNat

/-- An identifier starts with a letter or an underscore. -/
def isIdentStart (c : Char) : Bool :=
  isAlphabetic c || c == '_'

/-- An identifier goes on with letters, numbers and underscores. -/
def isIdentContinue (c : Char) : Bool :=
  isAlphabetic c || isNumeric c || c == '_'

/-- Every character that starts an identifier may also stand inside one. -/
theorem isIdentContinue_of_isIdentStart {c : Char} (h : isIdentStart c = true) :
    isIdentContinue c = true := by
  simp only [isIdentStart, Bool.or_eq_true] at h
  rcases h with h | h <;> simp [isIdentContinue, h]

/-- The underscore starts an identifier. -/
theorem isIdentStart_underscore : isIdentStart '_' = true := by decide

/-- A digit goes on with an identifier and does not start one. -/
theorem isIdentStart_digit : isIdentStart '7' = false ∧ isIdentContinue '7' = true := by decide

/-! ## White space -/

/-- Code points with the property White_Space. -/
def whiteRanges : Ranges :=
  [(0x09, 0x0D), (0x20, 0x20), (0x85, 0x85), (0xA0, 0xA0), (0x1680, 0x1680), (0x2000, 0x200A),
   (0x2028, 0x2029), (0x202F, 0x202F), (0x205F, 0x205F), (0x3000, 0x3000)]

/-- The property White_Space. -/
def isWhite (c : Char) : Bool :=
  whiteRanges.contains c.toNat

/-! ## Writing -/

/-- A character stands for itself in a quoted text if it shows something and attaches to nothing. -/
def isPlain (c : Char) : Bool :=
  if c.toNat < 0x80 then 0x20 ≤ c.toNat && c.toNat < 0x7F
  else !unprintableRanges.contains c.toNat && !fillerRanges.contains c.toNat &&
    !extendingRanges.contains c.toNat

/-- The number of columns a character takes: none for controls and marks, two for wide ones, and
three for one sign alone. -/
def displayWidth (c : Char) : Nat :=
  if c.toNat < 0x20 then 0
  else if c.toNat < 0x7F then 1
  else if c.toNat < 0xA0 then 0
  else if zeroWidthRanges.contains c.toNat then 0
  else if wideRanges.contains c.toNat then 2
  else if c.toNat = khmerEtCetera then 3
  else 1

/-- A sound mark of halfwidth Katakana stands for itself, and the mark that may follow a Hiragana
letter does not. -/
theorem isPlain_soundMarks : isPlain '\uff9e' = true ∧ isPlain '\u3099' = false := by decide +kernel

end GujaratiScript.Unicode
