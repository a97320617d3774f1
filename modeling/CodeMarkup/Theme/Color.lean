import CodeMarkup.Text.Numeral
import CodeMarkup.Text.Slice

/-!
# Colours

A colour has three channels of eight bits. It is written as a hash sign and six hexadecimal digits in
lower case, and read more freely: any number of hash signs in front, either case, and a plus sign in
place of the first digit of a channel.

A written colour is six **bytes** long and is cut into three pairs of bytes, each read before the next
is cut. A character of more than one byte can straddle a cut, and then there is no pair to read: such a
text is neither a colour nor a refusal, and reading it is an outcome of its own.
-/

namespace CodeMarkup

/-- A colour of three channels. -/
structure Color where
  /-- red -/
  red : UInt8
  /-- green -/
  green : UInt8
  /-- blue -/
  blue : UInt8
  deriving DecidableEq, Repr

namespace Color

/-- No light. -/
def black : Color := ⟨0, 0, 0⟩

/-- All light. -/
def white : Color := ⟨255, 255, 255⟩

instance : Inhabited Color := ⟨white⟩

/-- The colour packed into the low 24 bits of a word, red highest. -/
def ofPacked (packed : UInt32) : Color :=
  ⟨(packed >>> 16).toUInt8, (packed >>> 8).toUInt8, packed.toUInt8⟩

/-! ## Written colours -/

/-- The digit for a value below 16. -/
def digit (value : Nat) : Char :=
  Nat.digitChar value

/-- A channel as two digits. -/
def channel (value : UInt8) : List Char :=
  [digit (value.toNat / 16), digit (value.toNat % 16)]

/-- A colour as a style sheet writes it. -/
def css (color : Color) : List Char :=
  '#' :: channel color.red ++ channel color.green ++ channel color.blue

/-- The value of a channel written as two characters. -/
def readChannel : List Char → Option UInt8
  | [first, second] => do
    let high ← if first = '+' then some 0 else Text.hexValue? first
    let low ← Text.hexValue? second
    return UInt8.ofNat (high * 16 + low)
  | _ => none

/-- What reading a colour can come to. -/
inductive Reading where
  /-- the text writes a colour -/
  | color (value : Color)
  /-- the text writes no colour -/
  | refused
  /-- a pair of bytes would have cut a character in two -/
  | split
  deriving DecidableEq, Repr

/-- Reads one channel and goes on with the rest of the text. -/
def thenChannel (text : List Char) (next : UInt8 → List Char → Reading) : Reading :=
  match Text.cutBytes 2 text with
  | none => .split
  | some (front, back) =>
    match readChannel front with
    | none => .refused
    | some value => next value back

/-- Reads a colour. -/
def read (text : List Char) : Reading :=
  let digits := text.dropWhile (· = '#')
  if Text.byteLength digits = 6 then
    thenChannel digits fun red rest =>
      thenChannel rest fun green rest =>
        thenChannel rest fun blue _ => .color ⟨red, green, blue⟩
  else .refused

end Color

end CodeMarkup
