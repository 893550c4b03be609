import GujaratiScript.Source.Position
import GujaratiScript.Text.Basic

/-!
# Tokens

The alphabet of the language: keywords (some of several words), binary operators, brackets, names
and literals, line breaks and the end of the text.

* `Keyword.phrases` : the keywords of several words, longest first;
* `Keyword.ofWord?` : the keywords of one word;
* `Operator` : the binary operators, and `Operator.tier`, how tightly each binds;
* `Lexeme` : a token with the text it was read from and its place.
-/

namespace GujaratiScript

/-! ## Keywords -/

/-- The keywords, each named by its own words. -/
inductive Keyword where
  | kemBhai
  | aavjoBhai
  | bhaiBol
  | bapuTameBolo
  | bhaiChhe
  | bhaiNathi
  | jyaSudhi
  | tameJao
  | aagalVado
  | nahiTo
  | aa
  | che
  | jo
  | nahi
  /-- The word that stands alone as `to`. -/
  | toWord
  | farvu
  deriving DecidableEq, Repr, Inhabited

namespace Keyword

/-- The keyword as it is written in a program. -/
def spelling : Keyword → String
  | kemBhai => "kem bhai"
  | aavjoBhai => "aavjo bhai"
  | bhaiBol => "bhai bol"
  | bapuTameBolo => "bapu tame bolo"
  | bhaiChhe => "bhai chhe"
  | bhaiNathi => "bhai nathi"
  | jyaSudhi => "jya sudhi"
  | tameJao => "tame jao"
  | aagalVado => "aagal vado"
  | nahiTo => "nahi to"
  | aa => "aa"
  | che => "che"
  | jo => "jo"
  | nahi => "nahi"
  | toWord => "to"
  | farvu => "farvu"

/-- The tag of the keyword in a listing of tokens. -/
def tag : Keyword → String
  | kemBhai => "KEM_BHAI"
  | aavjoBhai => "AAVJO_BHAI"
  | bhaiBol => "BHAI_BOL"
  | bapuTameBolo => "BAPU_TAME_BOLO"
  | bhaiChhe => "BHAI_CHHE"
  | bhaiNathi => "BHAI_NATHI"
  | jyaSudhi => "JYA_SUDHI"
  | tameJao => "TAME_JAO"
  | aagalVado => "AAGAL_VADO"
  | nahiTo => "ELSE"
  | aa => "AA"
  | che => "CHE"
  | jo => "JO"
  | nahi => "NAHI"
  | toWord => "TO"
  | farvu => "FARVU"

/-- The keywords of several words, longest first, so that none hides behind its own beginning. -/
def phrases : List Keyword :=
  [bapuTameBolo, aavjoBhai, bhaiNathi, aagalVado, bhaiChhe, jyaSudhi, kemBhai, bhaiBol, tameJao,
   nahiTo]

/-- The keywords of one word. -/
def words : List Keyword :=
  [aa, che, jo, nahi, toWord, farvu]

/-- The keyword of one word that is spelled `w`. -/
def ofWord? (w : String) : Option Keyword :=
  words.find? fun k => k.spelling == w

/-- The keywords a statement may begin with; recovery from a fault resumes there. -/
def opensStatement : Keyword → Bool
  | bhaiBol | aa | jo | farvu | tameJao | aagalVado => true
  | _ => false

/-- A keyword has either several words or one. -/
theorem mem_phrases_or_mem_words (k : Keyword) : k ∈ phrases ∨ k ∈ words := by
  cases k <;> decide

end Keyword

/-! ## Operators -/

/-- How tightly an operator binds, weakest first. -/
inductive Tier where
  | lowest
  | equality
  | comparison
  | sum
  | product
  | negation
  deriving DecidableEq, Repr, Inhabited

namespace Tier

/-- The position of a tier in the order of strength. -/
def rank : Tier → Nat
  | lowest => 0
  | equality => 1
  | comparison => 2
  | sum => 3
  | product => 4
  | negation => 5

instance : LT Tier := ⟨fun s t => s.rank < t.rank⟩

instance : LE Tier := ⟨fun s t => s.rank ≤ t.rank⟩

instance (s t : Tier) : Decidable (s < t) := inferInstanceAs (Decidable (s.rank < t.rank))

instance (s t : Tier) : Decidable (s ≤ t) := inferInstanceAs (Decidable (s.rank ≤ t.rank))

theorem lt_iff_rank (s t : Tier) : s < t ↔ s.rank < t.rank := Iff.rfl

theorem le_iff_rank (s t : Tier) : s ≤ t ↔ s.rank ≤ t.rank := Iff.rfl

end Tier

/-- The binary operators. -/
inductive Operator where
  | add
  | subtract
  | multiply
  | divide
  | modulo
  | equal
  | notEqual
  | less
  | lessEqual
  | greater
  | greaterEqual
  deriving DecidableEq, Repr, Inhabited

namespace Operator

/-- The operator as it is written in a program. -/
def spelling : Operator → String
  | add => "+"
  | subtract => "-"
  | multiply => "*"
  | divide => "/"
  | modulo => "%"
  | equal => "=="
  | notEqual => "!="
  | less => "<"
  | lessEqual => "<="
  | greater => ">"
  | greaterEqual => ">="

/-- The tag of the operator in a listing of tokens. -/
def tag : Operator → String
  | add => "PLUS"
  | subtract => "MINUS"
  | multiply => "MULTIPLY"
  | divide => "DIVIDE"
  | modulo => "MODULO"
  | equal => "EQUAL"
  | notEqual => "NOT_EQUAL"
  | less => "LESS"
  | lessEqual => "LESS_EQUAL"
  | greater => "GREATER"
  | greaterEqual => "GREATER_EQUAL"

/-- All operators. -/
def all : List Operator :=
  [add, subtract, multiply, divide, modulo, equal, notEqual, less, lessEqual, greater, greaterEqual]

/-- The operator that is spelled `s`. -/
def ofSpelling? (s : String) : Option Operator :=
  all.find? fun o => o.spelling == s

/-- How tightly the operator binds. -/
def tier : Operator → Tier
  | multiply | divide | modulo => .product
  | add | subtract => .sum
  | less | lessEqual | greater | greaterEqual => .comparison
  | equal | notEqual => .equality

/-- Every operator binds more tightly than none at all. -/
theorem lowest_lt_tier (o : Operator) : Tier.lowest < o.tier := by
  cases o <;> decide

/-- No operator binds as tightly as negation. -/
theorem tier_lt_negation (o : Operator) : o.tier < Tier.negation := by
  cases o <;> decide

end Operator

/-! ## Tokens and lexemes -/

/-- A token of a program. -/
inductive Token where
  | ident (name : String)
  | int (value : Int64)
  | str (value : String)
  | word (keyword : Keyword)
  | op (operator : Operator)
  | leftParen
  | rightParen
  | leftBrace
  | rightBrace
  | newline
  | eof
  deriving DecidableEq, Repr, Inhabited

namespace Token

/-- The tag of the token in a listing. -/
def tag : Token → String
  | ident _ => "IDENTIFIER"
  | int _ => "INTEGER"
  | str _ => "STRING"
  | word k => k.tag
  | op o => o.tag
  | leftParen => "LEFT_PAREN"
  | rightParen => "RIGHT_PAREN"
  | leftBrace => "LEFT_BRACE"
  | rightBrace => "RIGHT_BRACE"
  | newline => "NEWLINE"
  | eof => "EOF"

/-- The token as messages name it; the end of the text is named by the null character. -/
def literal : Token → String
  | ident name => name
  | int value => toString value.toInt
  | str value => Text.quoted value
  | word k => k.spelling
  | op o => o.spelling
  | leftParen => "("
  | rightParen => ")"
  | leftBrace => "\x7b"
  | rightBrace => "\x7d"
  | newline => "\n"
  | eof => "\x00"

/-- Keywords can name no variable. -/
def isReserved : Token → Bool
  | word _ => true
  | _ => false

/-- The tokens at which recovery from a fault may resume with a statement. -/
def opensStatement : Token → Bool
  | word k => k.opensStatement
  | _ => false

/-- The tier of the operator that a token stands for; any other token has the lowest. -/
def tier : Token → Tier
  | op o => o.tier
  | _ => .lowest

/-- Exactly the operators have a tier above the lowest. -/
theorem lowest_lt_tier_iff (t : Token) : Tier.lowest < t.tier ↔ ∃ o, t = op o := by
  constructor
  · cases t <;> simp [tier, Tier.lt_iff_rank]
  · rintro ⟨o, rfl⟩
    exact o.lowest_lt_tier

/-- The tokens that are written in one way only. -/
def fixed : List Token :=
  Keyword.phrases.map word ++ Keyword.words.map word ++ Operator.all.map op ++
    [leftParen, rightParen, leftBrace, rightBrace, newline, eof]

/-- The token written in one way only that has the tag `s`. -/
def ofTag? (s : String) : Option Token :=
  fixed.find? fun t => t.tag == s

end Token

/-- A token, the text it was read from, and the place of that text. -/
structure Lexeme where
  token : Token
  text : String
  span : Span
  deriving DecidableEq, Repr, Inhabited

end GujaratiScript
