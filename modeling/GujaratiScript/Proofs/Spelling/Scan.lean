import GujaratiScript.Token.Lexer
import GujaratiScript.Tree.Layout

/-!
# The spelling of tokens

Every token that a program can hold has a spelling, and a scan of it gives the token back, if what
follows does not go on with it.

* `Token.spelling` : the token as the canonical layout writes it;
* `Token.Proper` : the tokens that a program can hold;
* `Token.EndsBefore` : the texts that do not go on with a token;
* `scansBy` : how a scan goes on behind its first character;
* `scan_spelling` : the scan of a spelling.
-/

namespace GujaratiScript

open Unicode

/-! ## Spellings -/

/-- The token as it is written in a program. -/
def Token.spelling : Token → List Char
  | ident name => name.toList
  | int value => (toString value.toInt).toList
  | str value => (Text.escaped value).toList
  | word k => k.spelling.toList
  | op o => o.spelling.toList
  | leftParen => ['(']
  | rightParen => [')']
  | leftBrace => ['\x7b']
  | rightBrace => ['\x7d']
  | newline => ['\n']
  | eof => []

/-- A name starts with a letter or an underscore, goes on with identifier characters and is no
keyword. -/
structure IsName (name : String) : Prop where
  start : ∃ c cs, name.toList = c :: cs ∧ isIdentStart c = true
  all : ∀ c ∈ name.toList, isIdentContinue c = true
  free : Keyword.ofWord? name = none

/-- The tokens of programs: names are names and numbers have no sign. -/
def Token.Proper : Token → Prop
  | ident name => IsName name
  | int value => 0 ≤ value.toInt
  | _ => True

/-! ## Where words end -/

/-- The first word of a keyword. -/
def Keyword.firstWord (k : Keyword) : List Char := k.spelling.toList.takeWhile isIdentContinue

/-- What follows the first word of a keyword. -/
def Keyword.furtherWords (k : Keyword) : List Char := k.spelling.toList.dropWhile isIdentContinue

/-- The word `w` ends before `cs`: no character goes on with it, and no keyword of several words
does. -/
structure WordEnds (w cs : List Char) : Prop where
  atEnd : atWordEnd cs = true
  alone : ∀ k ∈ Keyword.phrases, k.firstWord = w → ¬ k.furtherWords <+: cs

/-- The texts that do not go on with a token. -/
def Token.EndsBefore : Token → List Char → Prop
  | ident name, cs => WordEnds name.toList cs
  | int _, cs => atWordEnd cs = true
  | word k, cs => WordEnds k.spelling.toList cs
  | op .less, cs => cs.head? ≠ some '='
  | op .greater, cs => cs.head? ≠ some '='
  | _, _ => True

/-- Every phrase has more than one word. -/
theorem Keyword.furtherWords_of_mem {k : Keyword} (h : k ∈ phrases) :
    ∃ d ds, k.furtherWords = ' ' :: d :: ds ∧ isIdentContinue d = true := by
  revert h
  cases k <;> simp only [phrases] <;> first
    | exact fun _ => ⟨_, _, rfl, rfl⟩
    | simp

theorem takeWhile_append_of_atWordEnd {w cs : List Char} (hw : ∀ c ∈ w, isIdentContinue c = true)
    (h : atWordEnd cs = true) : (w ++ cs).takeWhile isIdentContinue = w := by
  rw [List.takeWhile_append_of_pos hw]
  cases cs with
  | nil => simp
  | cons c cs =>
    rw [List.takeWhile_cons_of_neg (by simpa [atWordEnd] using h), List.append_nil]

theorem dropWhile_append_of_atWordEnd {w cs : List Char} (hw : ∀ c ∈ w, isIdentContinue c = true)
    (h : atWordEnd cs = true) : (w ++ cs).dropWhile isIdentContinue = cs := by
  rw [List.dropWhile_append_of_pos hw]
  cases cs with
  | nil => rfl
  | cons c cs => rw [List.dropWhile_cons_of_neg (by simpa [atWordEnd] using h)]

/-- A keyword that stands at a word begins with it and goes on behind it. -/
theorem Keyword.furtherWords_isPrefix {k : Keyword} (hk : k ∈ phrases) {w cs : List Char}
    (hw : ∀ c ∈ w, isIdentContinue c = true) (h : atWordEnd cs = true)
    (pre : k.spelling.toList <+: w ++ cs) : k.firstWord = w ∧ k.furtherWords <+: cs := by
  obtain ⟨d, ds, further, -⟩ := furtherWords_of_mem hk
  have parts : k.firstWord ++ k.furtherWords = k.spelling.toList := List.takeWhile_append_dropWhile
  obtain ⟨more, eq⟩ := pre
  -- both sides split at the end of their first word
  have first : ∀ c ∈ k.firstWord, isIdentContinue c = true :=
    List.all_eq_true.1 List.all_takeWhile
  have atEnd : atWordEnd (k.furtherWords ++ more) = true := by
    rw [further]
    rfl
  rw [← parts, List.append_assoc] at eq
  have left := takeWhile_append_of_atWordEnd first atEnd
  have right := dropWhile_append_of_atWordEnd first atEnd
  rw [eq] at left right
  rw [takeWhile_append_of_atWordEnd hw h] at left
  rw [dropWhile_append_of_atWordEnd hw h] at right
  exact ⟨left.symm, more, right.symm⟩

theorem phraseAt?_eq_none {w cs : List Char} (hw : ∀ c ∈ w, isIdentContinue c = true)
    (h : WordEnds w cs) : phraseAt? (w ++ cs) = none := by
  refine List.find?_eq_none.2 fun k hk found => ?_
  rw [Bool.and_eq_true, List.isPrefixOf_iff_prefix] at found
  obtain ⟨first, further⟩ := k.furtherWords_isPrefix hk hw h.atEnd found.1
  exact h.alone k hk first further

/-! ## Which reader goes on -/

/-- The readers that a scan may go on with behind the character `c`. -/
inductive ScansBy (c : Char) : (List Char → Scan) → Prop
  | single {t : Token} : single? c = some t → ScansBy c fun cs => .token t [c] cs
  | pair (pair : Operator) (alone : Option Operator) : ScansBy c (scanPair c pair alone)
  | string : c = '\x22' → ScansBy c scanString
  | number : isDigit c = true → ScansBy c (scanNumber c)
  | word : isIdentStart c = true → ScansBy c (scanWord c)
  | unknown : ScansBy c fun cs => .fault (.unexpectedCharacter c) [] [c] [] (c :: cs)

/-- The first character alone tells how a scan goes on. -/
theorem scansBy (c : Char) : ScansBy c (scan c) := by
  have whole : scan c = fun cs => scan c cs := rfl
  rw [whole]
  rcases single : single? c with _ | t
  · simp only [scan, single]
    by_cases equal : c = '='
    · simp only [if_pos equal]
      exact .pair .equal none
    by_cases bang : c = '!'
    · simp only [if_neg equal, if_pos bang]
      exact .pair .notEqual none
    by_cases less : c = '<'
    · simp only [if_neg equal, if_neg bang, if_pos less]
      exact .pair .lessEqual (some .less)
    by_cases greater : c = '>'
    · simp only [if_neg equal, if_neg bang, if_neg less, if_pos greater]
      exact .pair .greaterEqual (some .greater)
    simp only [if_neg equal, if_neg bang, if_neg less, if_neg greater]
    by_cases quote : c = '\x22'
    · simp only [if_pos quote]
      exact .string quote
    by_cases digit : isDigit c = true
    · simp only [if_neg quote, if_pos digit]
      exact .number digit
    by_cases start : isIdentStart c = true
    · simp only [if_neg quote, if_neg digit, if_pos start]
      exact .word start
    · simp only [if_neg quote, if_neg digit, if_neg start]
      exact .unknown
  · simp only [scan, single]
    exact .single single

/-! ## Words -/

theorem ne_of_pred {p : Char → Bool} {c d : Char} (h : p c = true) (no : p d = false) : c ≠ d := by
  rintro rfl
  rw [h] at no
  cases no

/-- What starts an identifier is no sign, no quote and no digit. -/
theorem scan_of_isIdentStart {c : Char} (h : isIdentStart c = true) (cs : List Char) :
    scan c cs = scanWord c cs := by
  have ne : ∀ d, isIdentStart d = false → c ≠ d := fun d => ne_of_pred h
  have single : single? c = none := by
    unfold single?
    split
    all_goals first
      | rfl
      | exact absurd h (by decide)
  have digit : isDigit c = false := by
    rcases hd : isDigit c with _ | _
    · rfl
    · have low : c.toNat < 0x80 := by
        simp only [isDigit, isAsciiDigit, Bool.and_eq_true, decide_eq_true_eq] at hd
        omega
      simp only [isDigit, isAsciiDigit, Bool.and_eq_true, decide_eq_true_eq] at hd
      simp only [isIdentStart, isAlphabetic, if_pos low, isAsciiLetter, Bool.or_eq_true,
        Bool.and_eq_true, decide_eq_true_eq, beq_iff_eq] at h
      rcases h with (h | h) | rfl
      · omega
      · omega
      · exact absurd hd (by decide)
  unfold scan
  rw [single]
  simp only [if_neg (ne '=' rfl), if_neg (ne '!' rfl), if_neg (ne '<' rfl), if_neg (ne '>' rfl),
    if_neg (ne '\x22' rfl), digit, h, Bool.false_eq_true, if_false, if_true]

/-- A word by itself is a keyword of one word or a name. -/
theorem scanWord_append {c : Char} {cs rest : List Char}
    (hw : ∀ d ∈ c :: cs, isIdentContinue d = true) (h : WordEnds (c :: cs) rest) :
    scanWord c (cs ++ rest) =
      match Keyword.ofWord? (String.ofList (c :: cs)) with
      | some k => .token (.word k) (c :: cs) rest
      | none => .token (.ident (String.ofList (c :: cs))) (c :: cs) rest := by
  have tail : ∀ d ∈ cs, isIdentContinue d = true := fun d mem => hw d (List.mem_cons_of_mem c mem)
  have takes := takeWhile_append_of_atWordEnd tail h.atEnd
  have drops := dropWhile_append_of_atWordEnd tail h.atEnd
  unfold scanWord
  rw [← List.cons_append, phraseAt?_eq_none hw h]
  rcases eq : Keyword.ofWord? (String.ofList (c :: cs)) with _ | k
  · simp only [takes, drops, eq]
  · simp only [takes, drops, eq]

/-- No keyword of several words is the beginning of another one. -/
theorem Keyword.eq_of_isPrefix {k k' : Keyword} (hk : k ∈ phrases) (hk' : k' ∈ phrases)
    (h : k.spelling.toList <+: k'.spelling.toList) : k = k' := by
  have all : ∀ k ∈ phrases, ∀ k' ∈ phrases,
      k.spelling.toList.isPrefixOf k'.spelling.toList = true → k = k' := by decide
  exact all k hk k' hk' (List.isPrefixOf_iff_prefix.2 h)

theorem phraseAt?_spelling {k : Keyword} (hk : k ∈ Keyword.phrases) {rest : List Char}
    (h : atWordEnd rest = true) : phraseAt? (k.spelling.toList ++ rest) = some k := by
  have here : k.spelling.toList <+: k.spelling.toList ++ rest := List.prefix_append _ _
  rcases eq : phraseAt? (k.spelling.toList ++ rest) with _ | k'
  · have none := List.find?_eq_none.1 eq k hk
    rw [Bool.and_eq_true, List.isPrefixOf_iff_prefix, List.drop_left] at none
    exact absurd ⟨here, h⟩ none
  · have mem := List.mem_of_find?_eq_some eq
    have found := List.find?_some eq
    rw [Bool.and_eq_true, List.isPrefixOf_iff_prefix] at found
    rcases List.prefix_or_prefix_of_prefix here found.1 with pre | pre
    · rw [Keyword.eq_of_isPrefix hk mem pre]
    · rw [Keyword.eq_of_isPrefix mem hk pre]

/-- The first character of every keyword starts an identifier. -/
theorem Keyword.exists_cons (k : Keyword) :
    ∃ c cs, k.spelling.toList = c :: cs ∧ isIdentStart c = true := by
  cases k <;> exact ⟨_, _, rfl, rfl⟩

theorem scan_keyword {k : Keyword} {c : Char} {cs rest : List Char}
    (eq : k.spelling.toList = c :: cs) (h : WordEnds k.spelling.toList rest) :
    scan c (cs ++ rest) = .token (.word k) (c :: cs) rest := by
  obtain ⟨c', cs', eq', start⟩ := k.exists_cons
  obtain ⟨rfl, rfl⟩ := List.cons.inj (eq'.symm.trans eq)
  rw [scan_of_isIdentStart start]
  rcases k.mem_phrases_or_mem_words with phrase | word
  · have found := phraseAt?_spelling phrase h.atEnd
    rw [eq, List.cons_append] at found
    unfold scanWord
    rw [found]
    simp only [eq, List.length_cons, Nat.add_sub_cancel, List.take_left, List.drop_left]
  · have all : ∀ k ∈ Keyword.words, k.spelling.toList.all isIdentContinue = true ∧
        Keyword.ofWord? k.spelling = some k := by decide
    obtain ⟨chars, free⟩ := all k word
    rw [List.all_eq_true, eq] at chars
    rw [eq] at h
    rw [scanWord_append chars h, ← eq, String.ofList_toList, free]

theorem scan_name {name : String} (hn : IsName name) {c : Char} {cs rest : List Char}
    (eq : name.toList = c :: cs) (h : WordEnds name.toList rest) :
    scan c (cs ++ rest) = .token (.ident name) (c :: cs) rest := by
  obtain ⟨c', cs', eq', start⟩ := hn.start
  obtain ⟨rfl, rfl⟩ := List.cons.inj (eq'.symm.trans eq)
  have chars := hn.all
  rw [eq] at chars h
  rw [scan_of_isIdentStart start, scanWord_append chars h, ← eq, String.ofList_toList, hn.free]

/-! ## Numbers -/

/-- Digits go on with identifiers, so a number ends where a word may. -/
theorem isIdentContinue_of_isDigit {c : Char} (h : isDigit c = true) :
    isIdentContinue c = true := by
  have low : c.toNat < 0x80 := by
    simp only [isDigit, isAsciiDigit, Bool.and_eq_true, decide_eq_true_eq] at h
    omega
  have numeric : isNumeric c = true := by
    rw [isNumeric, if_pos low]
    exact h
  rw [isIdentContinue, numeric, Bool.or_true, Bool.true_or]

theorem scan_of_isDigit {c : Char} (h : isDigit c = true) (cs : List Char) :
    scan c cs = scanNumber c cs := by
  have ne : ∀ d, isDigit d = false → c ≠ d := fun d => ne_of_pred h
  have single : single? c = none := by
    unfold single?
    split
    all_goals first
      | rfl
      | exact absurd h (by decide)
  unfold scan
  rw [single]
  simp only [if_neg (ne '=' rfl), if_neg (ne '!' rfl), if_neg (ne '<' rfl), if_neg (ne '>' rfl),
    if_neg (ne '\x22' rfl), h, if_true]

/-- The digits of a number stand for it. -/
theorem decimalValue_toDigits (n : Nat) : decimalValue (Nat.toDigits 10 n) = n :=
  Nat.ofDigitChars_ten_toDigits

theorem isDigit_of_mem_toDigits {n : Nat} {c : Char} (h : c ∈ Nat.toDigits 10 n) :
    isDigit c = true := by
  have digit := Nat.isDigit_of_mem_toDigits (by decide) (by decide) h
  simp only [Char.isDigit, Bool.and_eq_true, decide_eq_true_eq] at digit
  simp only [isDigit, isAsciiDigit, Bool.and_eq_true, decide_eq_true_eq]
  exact digit

theorem scan_int {n : Int64} (hn : 0 ≤ n.toInt) {c : Char} {cs rest : List Char}
    (eq : (toString n.toInt).toList = c :: cs) (h : atWordEnd rest = true) :
    scan c (cs ++ rest) = .token (.int n) (c :: cs) rest := by
  obtain ⟨m, hm⟩ := Int.eq_ofNat_of_zero_le hn
  have digits : Nat.toDigits 10 m = c :: cs := by
    rw [← eq, hm]
    exact Nat.toList_repr.symm
  have all : ∀ d ∈ c :: cs, isDigit d = true := by
    intro d mem
    rw [← digits] at mem
    exact isDigit_of_mem_toDigits mem
  have tail : ∀ d ∈ cs, isDigit d = true := fun d mem => all d (List.mem_cons_of_mem c mem)
  -- the number is not lengthened by what follows it
  have stop : rest.takeWhile isDigit = [] ∧ rest.dropWhile isDigit = rest := by
    cases rest with
    | nil => exact ⟨rfl, rfl⟩
    | cons d ds =>
      have no : ¬ isDigit d = true := by
        intro digit
        simp [atWordEnd, isIdentContinue_of_isDigit digit] at h
      exact ⟨List.takeWhile_cons_of_neg no, List.dropWhile_cons_of_neg no⟩
  have value : decimalValue (c :: cs) = m := by
    rw [← digits]
    exact decimalValue_toDigits m
  have bound : (m : Int) ≤ maxInteger := by
    have := n.toInt_lt
    rw [hm] at this
    exact Int.le_of_lt_add_one this
  rw [scan_of_isDigit (all c List.mem_cons_self)]
  unfold scanNumber
  simp only [List.takeWhile_append_of_pos tail, List.dropWhile_append_of_pos tail, stop.1, stop.2,
    List.append_nil, value, if_pos bound]
  rw [show Int64.ofInt (m : Int) = n by rw [← hm]; exact Int64.ofInt_toInt n]

/-! ## Texts -/

/-- The characters of a text as a program writes them. -/
def escapedChars (s : List Char) : List Char := s.flatMap fun c => (Text.escapedChar c).toList

theorem toList_escaped (s : String) :
    (Text.escaped s).toList = '\x22' :: (escapedChars s.toList ++ ['\x22']) := by
  unfold Text.escaped escapedChars
  rw [String.toList_append, String.toList_append, String.toList_join, List.flatMap_map]
  rfl

section StringEnd

variable (raw value cs : List Char)

/-- A quote closes a string. -/
theorem stringEnd_quote :
    stringEnd raw value ('\x22' :: cs) = .closed ('\x22' :: raw).reverse value.reverse cs :=
  stringEnd.eq_def _ _ _

/-- A backslash and the character behind it stand for another, or for none. -/
theorem stringEnd_backslash (e : Char) :
    stringEnd raw value ('\\' :: e :: cs) =
      match unescape? e with
      | some d => stringEnd (e :: '\\' :: raw) (d :: value) cs
      | none => .badEscape raw.reverse e (e :: cs) :=
  stringEnd.eq_def _ _ _

/-- Any other character stands for itself. -/
theorem stringEnd_plain {c : Char} (quote : c ≠ '\x22') (slash : c ≠ '\\') :
    stringEnd raw value (c :: cs) = stringEnd (c :: raw) (c :: value) cs := by
  rw [stringEnd.eq_def]
  simp only [if_neg quote, if_neg slash]

end StringEnd

/-- What is written for a character is read as that character. -/
theorem stringEnd_escapedChar (c : Char) (raw value cs : List Char) :
    stringEnd raw value ((Text.escapedChar c).toList ++ cs) =
      stringEnd ((Text.escapedChar c).toList.reverse ++ raw) (c :: value) cs := by
  by_cases slash : c = '\\'
  · subst slash
    exact stringEnd_backslash raw value cs '\\'
  by_cases quote : c = '\x22'
  · subst quote
    exact stringEnd_backslash raw value cs '\x22'
  by_cases line : c = '\n'
  · subst line
    exact stringEnd_backslash raw value cs 'n'
  by_cases tab : c = '\t'
  · subst tab
    exact stringEnd_backslash raw value cs 't'
  have plain : (Text.escapedChar c).toList = [c] := by
    simp [Text.escapedChar, slash, quote, line, tab]
  rw [plain, List.singleton_append, stringEnd_plain raw value cs quote slash]
  rfl

theorem stringEnd_escapedChars (s raw value rest : List Char) :
    stringEnd raw value (escapedChars s ++ '\x22' :: rest) =
      .closed (raw.reverse ++ (escapedChars s ++ ['\x22'])) (value.reverse ++ s) rest := by
  induction s generalizing raw value with
  | nil =>
    show stringEnd raw value ('\x22' :: rest) = _
    rw [stringEnd_quote]
    simp [escapedChars]
  | cons c s ih =>
    have first : escapedChars (c :: s) = (Text.escapedChar c).toList ++ escapedChars s := rfl
    rw [first, List.append_assoc, stringEnd_escapedChar, ih]
    simp

theorem scan_str (s : String) {c : Char} {cs : List Char}
    (eq : (Text.escaped s).toList = c :: cs) (rest : List Char) :
    scan c (cs ++ rest) = .token (.str s) (c :: cs) rest := by
  rw [toList_escaped] at eq
  obtain ⟨rfl, rfl⟩ := List.cons.inj eq
  show scanString _ = _
  unfold scanString
  rw [List.append_assoc, List.singleton_append, stringEnd_escapedChars]
  simp

/-! ## Any token -/

/-- A sign that an equals sign may follow stands alone where none does. -/
theorem scanPair_alone (c : Char) (pair o : Operator) {rest : List Char}
    (h : rest.head? ≠ some '=') : scanPair c pair (some o) rest = .token (.op o) [c] rest := by
  unfold scanPair
  split
  · exact absurd rfl h
  · rename_i eq
    cases eq
    rfl
  · rename_i eq
    cases eq

theorem isBlank_of_pred {p : Char → Bool} {c : Char} (h : p c = true) (space : p ' ' = false)
    (tab : p '\t' = false) (ret : p '\r' = false) : isBlank c = false := by
  simp only [isBlank, Bool.or_eq_false_iff, beq_eq_false_iff_ne]
  exact ⟨⟨ne_of_pred h space, ne_of_pred h tab⟩, ne_of_pred h ret⟩

/-- A token that a program can hold is scanned from its spelling. -/
theorem scan_spelling {t : Token} (ht : t.Proper) (ne : t ≠ .eof) {rest : List Char}
    (h : t.EndsBefore rest) :
    ∃ c cs, t.spelling = c :: cs ∧ isBlank c = false ∧
      scan c (cs ++ rest) = .token t (c :: cs) rest := by
  cases t with
  | ident name =>
    obtain ⟨c, cs, eq, start⟩ := ht.start
    exact ⟨c, cs, eq, isBlank_of_pred start rfl rfl rfl, scan_name ht eq h⟩
  | int n =>
    rcases eq : (toString n.toInt).toList with _ | ⟨c, cs⟩
    · obtain ⟨m, hm⟩ := Int.eq_ofNat_of_zero_le ht
      rw [hm] at eq
      exact absurd (Nat.toList_repr.symm.trans eq) Nat.toDigits_ne_nil
    · have digit : isDigit c = true := by
        obtain ⟨m, hm⟩ := Int.eq_ofNat_of_zero_le ht
        rw [hm] at eq
        exact isDigit_of_mem_toDigits (Nat.toList_repr.symm.trans eq ▸ List.mem_cons_self)
      exact ⟨c, cs, eq, isBlank_of_pred digit rfl rfl rfl, scan_int ht eq h⟩
  | str s => exact ⟨_, _, toList_escaped s, rfl, scan_str s (toList_escaped s) rest⟩
  | word k =>
    obtain ⟨c, cs, eq, start⟩ := k.exists_cons
    exact ⟨c, cs, eq, isBlank_of_pred start rfl rfl rfl, scan_keyword eq h⟩
  | op o =>
    cases o with
    | less => exact ⟨_, _, rfl, rfl, scanPair_alone '<' .lessEqual .less h⟩
    | greater => exact ⟨_, _, rfl, rfl, scanPair_alone '>' .greaterEqual .greater h⟩
    | _ => exact ⟨_, _, rfl, rfl, rfl⟩
  | eof => exact absurd rfl ne
  | _ => exact ⟨_, _, rfl, rfl, rfl⟩

end GujaratiScript
