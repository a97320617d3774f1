import CodeMarkup.Text.Numeral

/-!
# JSON texts

The pieces of JSON that a record needs: blanks, strings, whole numbers, and the members of an object.
A reader takes the text that is left and yields what it read and what is then left, or nothing if the
text is not well formed.

A string is read in two steps. The first takes it apart into **units**, a character each or a number
that an escape gives; the second joins the numbers to characters, two of them where they are the halves
of a surrogate pair. A string that is only skipped takes the first step alone, so its halves need not
match.
-/

namespace CodeMarkup.Json

/-! ## Blanks -/

/-- Whether a character may stand between tokens. -/
def isBlank (c : Char) : Bool :=
  c = ' ' || c = '\n' || c = '\t' || c = '\r'

/-- A text without the blanks in front. -/
def skipBlanks (text : List Char) : List Char :=
  text.dropWhile isBlank

/-! ## Strings -/

/-- A piece of a string. -/
inductive StringUnit where
  /-- a character, as itself or by a short escape -/
  | char (c : Char)
  /-- a number that an escape gives in four digits -/
  | code (value : Nat)
  deriving DecidableEq, Repr

/-- The character of a short escape. -/
def shortEscape? (c : Char) : Option Char :=
  match c with
  | '"' => some '"'
  | '\\' => some '\\'
  | '/' => some '/'
  | 'b' => some '\x08'
  | 'f' => some '\x0C'
  | 'n' => some '\n'
  | 'r' => some '\r'
  | 't' => some '\t'
  | _ => none

/-- The units of a string whose opening quotation mark was read. -/
def readUnits : List Char → Option (List StringUnit × List Char)
  | [] => none
  | '"' :: rest => some ([], rest)
  | '\\' :: 'u' :: a :: b :: c :: d :: rest => do
    let value ← Text.hexadecimalValue? [a, b, c, d]
    let (units, rest) ← readUnits rest
    return (.code value :: units, rest)
  | '\\' :: e :: rest => do
    let c ← shortEscape? e
    let (units, rest) ← readUnits rest
    return (.char c :: units, rest)
  | c :: rest => do
    if c.toNat < 0x20 ∨ c = '\\' then none
    let (units, rest) ← readUnits rest
    return (.char c :: units, rest)

/-- Whether a number is the first half of a surrogate pair. -/
def isLead (value : Nat) : Bool :=
  0xD800 ≤ value && value ≤ 0xDBFF

/-- Whether a number is the second half of a surrogate pair. -/
def isTrail (value : Nat) : Bool :=
  0xDC00 ≤ value && value ≤ 0xDFFF

/-- The characters of units; half a pair by itself is no character. -/
def joinUnits : List StringUnit → Option (List Char)
  | [] => some []
  | .char c :: rest => (joinUnits rest).map (c :: ·)
  | .code lead :: .code trail :: rest =>
    -- halves count only side by side and in order
    if isLead lead then
      if isTrail trail then
        (joinUnits rest).map
          (Char.ofNat (0x10000 + (lead - 0xD800) * 0x400 + (trail - 0xDC00)) :: ·)
      else none
    else if isTrail lead then none
    else (joinUnits (.code trail :: rest)).map (Char.ofNat lead :: ·)
  | .code value :: rest =>
    if isLead value || isTrail value then none
    else (joinUnits rest).map (Char.ofNat value :: ·)

/-- The string whose opening quotation mark was read. -/
def readString (text : List Char) : Option (List Char × List Char) := do
  let (units, rest) ← readUnits text
  let chars ← joinUnits units
  return (chars, rest)

/-- One character inside a written string: escapes stand for quotation marks, backslashes and
controls, and all else stands for itself. -/
def stringChar (c : Char) : List Char :=
  match c with
  | '"' => ['\\', '"']
  | '\\' => ['\\', '\\']
  | '\x08' => ['\\', 'b']
  | '\x0C' => ['\\', 'f']
  | '\n' => ['\\', 'n']
  | '\r' => ['\\', 'r']
  | '\t' => ['\\', 't']
  | c =>
    if c.toNat < 0x20 then
      ['\\', 'u', '0', '0', Nat.digitChar (c.toNat / 16), Nat.digitChar (c.toNat % 16)]
    else [c]

/-- A written string. -/
def writeString (chars : List Char) : List Char :=
  '"' :: chars.flatMap stringChar ++ ['"']

/-! ## Whole numbers -/

/-- A whole number without sign, fraction and exponent. -/
def readWord (text : List Char) : Option (Nat × List Char) :=
  let digits := text.takeWhile Char.isDigit
  let rest := text.dropWhile Char.isDigit
  if digits.isEmpty || (digits.length > 1 && digits.head? == some '0') then none
  else match rest.head? with
    | some '.' | some 'e' | some 'E' => none
    | _ => some (Text.decimalValue digits, rest)

/-- A whole number that is at most some limit. -/
def readWordUpTo (limit : Nat) (text : List Char) : Option (Nat × List Char) :=
  (readWord text).filter (·.1 ≤ limit)

/-! ## Skipping -/

/-- Skips at least one digit. -/
def skipDigits (text : List Char) : Option (List Char) :=
  match text with
  | c :: rest => if c.isDigit then some (rest.dropWhile Char.isDigit) else none
  | [] => none

/-- Skips an exponent, if there is one. -/
def skipExponent : List Char → Option (List Char)
  | 'e' :: rest | 'E' :: rest =>
    match rest with
    | '+' :: rest | '-' :: rest => skipDigits rest
    | rest => skipDigits rest
  | rest => some rest

/-- Skips a fraction and an exponent, if they are there. -/
def skipFraction : List Char → Option (List Char)
  | '.' :: rest => (skipDigits rest).bind skipExponent
  | rest => skipExponent rest

/-- Skips a number whose sign was read. -/
def skipNumber : List Char → Option (List Char)
  | '0' :: rest =>
    if (rest.head?.map Char.isDigit).getD false then none else skipFraction rest
  | rest => (skipDigits rest).bind skipFraction

mutual

/-- Skips a value. -/
def skipValue : Nat → List Char → Option (List Char)
  | 0, _ => none
  | fuel + 1, text =>
    match skipBlanks text with
    | 'n' :: 'u' :: 'l' :: 'l' :: rest => some rest
    | 't' :: 'r' :: 'u' :: 'e' :: rest => some rest
    | 'f' :: 'a' :: 'l' :: 's' :: 'e' :: rest => some rest
    | '"' :: rest => (readUnits rest).map (·.2)
    | '-' :: rest => skipNumber rest
    | '[' :: rest =>
      match skipBlanks rest with
      | ']' :: rest => some rest
      | rest => skipElements fuel rest
    | '{' :: rest =>
      match skipBlanks rest with
      | '}' :: rest => some rest
      | rest => skipMembers fuel rest
    | rest => skipNumber rest

/-- Skips the elements of an array and its end. -/
def skipElements : Nat → List Char → Option (List Char)
  | 0, _ => none
  | fuel + 1, text => do
    match skipBlanks (← skipValue fuel text) with
    | ']' :: rest => some rest
    | ',' :: rest => skipElements fuel rest
    | _ => none

/-- Skips the members of an object and its end. -/
def skipMembers : Nat → List Char → Option (List Char)
  | 0, _ => none
  | fuel + 1, text => do
    match skipBlanks text with
    | '"' :: rest =>
      let (_, rest) ← readUnits rest
      match skipBlanks rest with
      | ':' :: rest =>
        match skipBlanks (← skipValue fuel rest) with
        | '}' :: rest => some rest
        | ',' :: rest => skipMembers fuel rest
        | _ => none
      | _ => none
    | _ => none

end

/-- Skips a value; a text of some length nests no deeper than that. -/
def skip (text : List Char) : Option (List Char) :=
  skipValue (2 * text.length + 1) text

/-! ## Objects -/

/-- Reads members one after another, up to the end of the object. Each is read by its name from the
text after its colon. -/
def readMembersFrom {σ : Type} (member : σ → List Char → List Char → Option (σ × List Char)) :
    Nat → σ → List Char → Option (σ × List Char)
  | 0, _, _ => none
  | fuel + 1, state, text => do
    match skipBlanks text with
    | '"' :: rest =>
      let (name, rest) ← readString rest
      match skipBlanks rest with
      | ':' :: rest =>
        let (state, rest) ← member state name (skipBlanks rest)
        match skipBlanks rest with
        | '}' :: rest => some (state, rest)
        | ',' :: rest => readMembersFrom member fuel state rest
        | _ => none
      | _ => none
    | _ => none

/-- Reads the members of an object whose opening brace was read. -/
def readMembers {σ : Type} (member : σ → List Char → List Char → Option (σ × List Char))
    (state : σ) (text : List Char) : Option (σ × List Char) :=
  match skipBlanks text with
  | '}' :: rest => some (state, rest)
  | rest => readMembersFrom member rest.length state rest

end CodeMarkup.Json
