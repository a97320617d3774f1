import CodeMarkup.Script.Fault
import CodeMarkup.Text.Blank

/-!
# Script tokens

A script is read as a sequence of tokens: names, words of the language, symbols, and literals. Blanks and
comments stand between tokens and are left out. A comment between strokes and stars may hold others, and
one that is not closed ends with the script.

A text stands between quotation marks on one line; a quotation mark inside it is doubled or has a stroke
in front. A character stands between apostrophes in the same way. A whole number may have underscores
between its digits and one that does not fit its 64 bits counts as a floating-point number.
-/

namespace CodeMarkup.Script

/-- The words that are part of the language. -/
inductive Word where
  | letWord | ifWord | elseWord | forWord | inWord | loopWord | throwWord | tryWord | catchWord
  deriving DecidableEq, Repr

/-- The symbols that are part of the language. -/
inductive Symbol where
  | openRound | closeRound | openSquare | closeSquare | openCurly | closeCurly
  | semicolon | comma | path | assign | plusAssign
  | equal | unequal | both | either | plus | minus | bang
  deriving DecidableEq, Repr

/-- A token. -/
inductive Token where
  /-- a name -/
  | name (text : String)
  /-- a word of the language -/
  | word (word : Word)
  /-- a symbol -/
  | symbol (symbol : Symbol)
  /-- a literal, as its value -/
  | literal (value : Value)

/-- A token and where it begins. -/
structure Lexeme where
  /-- the token -/
  token : Token
  /-- where it begins -/
  position : Position

/-- What is left of a script, and where that begins. -/
structure Cursor where
  /-- where it begins -/
  position : Position
  /-- what is left -/
  rest : List Char

/-! ## Moving on -/

/-- The position after a character. -/
def Position.after (position : Position) (c : Char) : Position :=
  if c = '\n' then ⟨position.line + 1, 1⟩ else ⟨position.line, position.column + 1⟩

/-- The cursor after some characters have been read. -/
def Cursor.skip (cursor : Cursor) : Nat → Cursor
  | 0 => cursor
  | count + 1 =>
    match cursor.rest with
    | [] => cursor
    | c :: rest => Cursor.skip ⟨cursor.position.after c, rest⟩ count

/-- The cursor at a later part of what it is at. -/
def Cursor.moveTo (cursor : Cursor) (rest : List Char) : Cursor :=
  cursor.skip (cursor.rest.length - rest.length)

/-! ## Comments -/

/-- What is left after a comment that is open so many times. -/
def afterComment : Nat → List Char → List Char
  | 0, text => text
  | _ + 1, [] => []
  | open' + 1, '/' :: '*' :: rest => afterComment (open' + 2) rest
  | open' + 1, '*' :: '/' :: rest => afterComment open' rest
  | open' + 1, _ :: rest => afterComment (open' + 1) rest

/-- What is left after blanks and comments; `fuel` bounds their number. -/
def afterBlanks : (fuel : Nat) → List Char → List Char
  | 0, text => text
  | fuel + 1, '/' :: '/' :: rest => afterBlanks fuel (rest.dropWhile (· ≠ '\n'))
  | fuel + 1, '/' :: '*' :: rest => afterBlanks fuel (afterComment 1 rest)
  | fuel + 1, c :: rest => if Text.isBlank c then afterBlanks fuel rest else c :: rest
  | _ + 1, [] => []

/-! ## Names -/

/-- Whether a character can be in a name. -/
def isNameChar (c : Char) : Bool :=
  c.isAlpha || c.isDigit || c = '_'

/-- Words that are kept for the language, now or later, and are no names. -/
def reservedWords : List String :=
  ["const", "switch", "do", "while", "until", "continue", "break", "fn", "private", "return",
    "import", "export", "as", "global", "Fn", "call", "curry", "this", "is_def_fn", "is_def_var",
    "is_shared", "public", "protected", "super", "new", "use", "module", "package", "var", "static",
    "shared", "with", "is", "goto", "exit", "match", "case", "default", "void", "null", "nil",
    "spawn", "thread", "go", "sync", "async", "await", "yield"]

/-- The token of a run of name characters; some runs are no token. -/
def nameToken? (text : List Char) : Option Token :=
  match String.ofList text with
  | "let" => some (.word .letWord)
  | "if" => some (.word .ifWord)
  | "else" => some (.word .elseWord)
  | "for" => some (.word .forWord)
  | "in" => some (.word .inWord)
  | "loop" => some (.word .loopWord)
  | "throw" => some (.word .throwWord)
  | "try" => some (.word .tryWord)
  | "catch" => some (.word .catchWord)
  | "true" => some (.literal (.bool true))
  | "false" => some (.literal (.bool false))
  | name =>
    if reservedWords.contains name then none
    else if (text.dropWhile (· = '_')).head?.any Char.isAlpha then some (.name name)
    else none

/-! ## Texts and characters -/

/-- The character of a code point, if it is one. -/
def charOf? (code : Nat) : Option Char :=
  if code.isValidChar then some (Char.ofNat code) else none

/-- The character that an escape gives after its stroke, between the given marks, and what is left. -/
def readEscape (mark : Char) (text : List Char) : Option (Char × List Char) :=
  let numeric (count : Nat) (rest : List Char) : Option (Char × List Char) := do
    let digits := rest.take count
    guard (digits.length = count)
    let c ← charOf? (← Text.hexadecimalValue? digits)
    return (c, rest.drop count)
  match text with
  | [] => none
  | 't' :: rest => some ('\t', rest)
  | 'n' :: rest => some ('\n', rest)
  | 'r' :: rest => some ('\r', rest)
  | '\\' :: rest => some ('\\', rest)
  | 'x' :: rest => numeric 2 rest
  | 'u' :: rest => numeric 4 rest
  | 'U' :: rest => numeric 8 rest
  | c :: rest => if c = mark then some (c, rest) else none

/-- The characters between marks, the first of which was read, and what is left after the second; `fuel`
bounds their number. -/
def readMarked (mark : Char) : (fuel : Nat) → List Char → Option (List Char × List Char)
  | 0, _ => none
  | _ + 1, [] => none
  | _ + 1, '\n' :: _ => none
  | fuel + 1, '\\' :: rest => do
    let (c, rest) ← readEscape mark rest
    let (text, rest) ← readMarked mark fuel rest
    return (c :: text, rest)
  | fuel + 1, c :: rest =>
    if c = mark then
      match rest with
      | d :: after =>
        if d = mark then do
          let (text, rest) ← readMarked mark fuel after
          return (c :: text, rest)
        else some ([], rest)
      | [] => some ([], [])
    else do
      let (text, rest) ← readMarked mark fuel rest
      return (c :: text, rest)

/-! ## Numbers -/

/-- The value of digits in a base, if every one of them is a digit of that base. -/
def valueIn? (base : Nat) (digits : List Char) : Option Nat :=
  digits.foldlM (fun value c => do
    let digit ← Text.hexValue? c
    guard (digit < base)
    return value * base + digit) 0

/-- A whole number in one of the bases that have a letter; its bits may fill the word. -/
def basedNumber? (base : Nat) (digits : List Char) : Option Value := do
  guard !digits.isEmpty
  let value ← valueIn? base digits
  guard (value < UInt64.size)
  return .int (Int64.ofNat value)

/-- The base that a letter after a zero stands for. -/
def baseOf? (letter : Char) : Option Nat :=
  match letter with
  | 'x' | 'X' => some 16
  | 'o' | 'O' => some 8
  | 'b' | 'B' => some 2
  | _ => none

/-- Digits and underscores in front of a text, and what is left. -/
def digitRun (text : List Char) : List Char × List Char :=
  let isPart (c : Char) := c.isDigit || c = '_'
  ((text.takeWhile isPart).filter (· ≠ '_'), text.dropWhile isPart)

/-- The fraction in front of a text, if there is one: a point, and digits or something that cannot begin
a name. -/
def readFraction? : List Char → Option (List Char × List Char)
  | '.' :: c :: rest =>
    if c.isDigit then some (digitRun (c :: rest))
    else if c = '.' || c = '_' || c.isAlpha then none
    else some ([], c :: rest)
  | _ => none

/-- The power of ten in front of a text, if there is one. -/
def readPower? : List Char → Option (Int × List Char)
  | 'e' :: c :: rest =>
    let size (text : List Char) (sign : Int) : Option (Int × List Char) :=
      let (digits, left) := digitRun text
      if digits.isEmpty then none else some (sign * Text.decimalValue digits, left)
    if c.isDigit then size (c :: rest) 1
    else if c = '-' then size rest (-1)
    else if c = '+' then size rest 1
    else none
  | _ => none

/-- The floating-point number nearest to a decimal. -/
def nearestFloat (digits : List Char) (exponent : Int) : Float :=
  Float.ofScientific (Text.decimalValue digits) (exponent < 0) exponent.natAbs

/-- The number in front of a text that begins with a digit, and what is left. -/
def readNumber (text : List Char) : Option (Value × List Char) :=
  match text with
  | '0' :: letter :: rest =>
    match baseOf? letter with
    | some base =>
      let isPart (c : Char) := (Text.hexValue? c).any (· < base) || c = '_'
      (basedNumber? base ((rest.takeWhile isPart).filter (· ≠ '_'))).map
        fun value => (value, rest.dropWhile isPart)
    | none => some (decimalNumber text)
  | _ => some (decimalNumber text)
where
  /-- a number in base ten -/
  decimalNumber (text : List Char) : Value × List Char :=
    let (whole, rest) := digitRun text
    let (fraction, rest, hasFraction) := match readFraction? rest with
      | some (fraction, rest) => (fraction, rest, true)
      | none => ([], rest, false)
    match readPower? rest with
    | some (power, rest) => (.float (nearestFloat (whole ++ fraction) (power - fraction.length)), rest)
    | none =>
      if hasFraction then (.float (nearestFloat (whole ++ fraction) (-fraction.length)), rest)
      else if Text.decimalValue whole ≤ Int64.maxValue.toNatClampNeg then
        (.int (Int64.ofNat (Text.decimalValue whole)), rest)
      else (.float (nearestFloat whole 0), rest)

/-! ## Tokens -/

/-- The symbol in front of a text, and how long it is. -/
def symbol? : List Char → Option (Symbol × Nat)
  -- these are symbols too, but of nothing that a script here can say
  | '=' :: '=' :: '=' :: _ => none
  | '!' :: '=' :: '=' :: _ => none
  | ':' :: ':' :: '<' :: _ => none
  | '=' :: '>' :: _ => none
  | '-' :: '=' :: _ => none
  | '-' :: '>' :: _ => none
  | '-' :: '-' :: _ => none
  | '+' :: '+' :: _ => none
  | '+' :: '=' :: _ => some (.plusAssign, 2)
  | '=' :: '=' :: _ => some (.equal, 2)
  | '!' :: '=' :: _ => some (.unequal, 2)
  | '&' :: '&' :: _ => some (.both, 2)
  | '|' :: '|' :: _ => some (.either, 2)
  | ':' :: ':' :: _ => some (.path, 2)
  | '(' :: _ => some (.openRound, 1)
  | ')' :: _ => some (.closeRound, 1)
  | '[' :: _ => some (.openSquare, 1)
  | ']' :: _ => some (.closeSquare, 1)
  | '{' :: _ => some (.openCurly, 1)
  | '}' :: _ => some (.closeCurly, 1)
  | ';' :: _ => some (.semicolon, 1)
  | ',' :: _ => some (.comma, 1)
  | '=' :: _ => some (.assign, 1)
  | '+' :: _ => some (.plus, 1)
  | '-' :: _ => some (.minus, 1)
  | '!' :: _ => some (.bang, 1)
  | _ => none

/-- The token in front of a text that begins with none of the blanks, and what is left. -/
def readToken (text : List Char) : Option (Token × List Char) :=
  match text with
  | [] => none
  | '"' :: rest => do
    let (value, rest) ← readMarked '"' text.length rest
    return (.literal (.text (String.ofList value)), rest)
  | '\'' :: rest => do
    match ← readMarked '\'' text.length rest with
    | ([c], rest) => return (.literal (.char c), rest)
    | _ => none
  | c :: _ =>
    if c.isDigit then do
      let (value, rest) ← readNumber text
      return (.literal value, rest)
    else if isNameChar c then do
      let token ← nameToken? (text.takeWhile isNameChar)
      return (token, text.dropWhile isNameChar)
    else do
      let (symbol, length) ← symbol? text
      return (.symbol symbol, text.drop length)

/-- The tokens from a cursor on, if there is nothing else; `fuel` bounds their number. -/
def lexemesFrom : (fuel : Nat) → Cursor → Option (List Lexeme)
  | 0, _ => none
  | fuel + 1, cursor => do
    let cursor := cursor.moveTo (afterBlanks cursor.rest.length cursor.rest)
    if cursor.rest.isEmpty then return []
    let (token, rest) ← readToken cursor.rest
    return ⟨token, cursor.position⟩ :: (← lexemesFrom fuel (cursor.moveTo rest))

/-- The tokens of a script, if it has nothing else. -/
def lexemes? (script : String) : Option (List Lexeme) :=
  let text := script.toList
  lexemesFrom (text.length + 1) ⟨.start, text⟩

end CodeMarkup.Script
