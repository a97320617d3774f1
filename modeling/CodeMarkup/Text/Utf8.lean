/-!
# UTF-8

Files and tool output are bytes; a text is read out of them by UTF-8. The reader is a machine that
takes one byte at a time: it stands either between characters or inside one, and inside one it knows
how many bytes are owed and which values the next may have. A byte that cannot follow ends the
character under way as a damaged piece and is then read afresh, so damaged pieces are as long as
possible and no valid character is lost to its neighbour.

The machine yields one piece per character, damaged or not. `decode?` insists that no piece is
damaged; `decodeLossy` shows each damaged piece as the replacement character.
-/

namespace CodeMarkup.Text.Utf8

/-- A character of which some bytes have been read. -/
structure Partial where
  /-- the code point bits read so far -/
  value : Nat
  /-- how many bytes are owed, at least one -/
  owed : Nat
  /-- the least value the next byte may have -/
  low : UInt8
  /-- the greatest value the next byte may have -/
  high : UInt8

/-- The character a byte begins, if it begins one of several bytes. The bounds on the second byte
rule out overlong forms, surrogates and code points past the last. -/
def Partial.ofLead (b : UInt8) : Option Partial :=
  if 0xC2 ≤ b ∧ b ≤ 0xDF then some ⟨b.toNat - 0xC0, 1, 0x80, 0xBF⟩
  else if b = 0xE0 then some ⟨0, 2, 0xA0, 0xBF⟩
  else if b = 0xED then some ⟨0xD, 2, 0x80, 0x9F⟩
  else if 0xE1 ≤ b ∧ b ≤ 0xEF then some ⟨b.toNat - 0xE0, 2, 0x80, 0xBF⟩
  else if b = 0xF0 then some ⟨0, 3, 0x90, 0xBF⟩
  else if 0xF1 ≤ b ∧ b ≤ 0xF3 then some ⟨b.toNat - 0xF0, 3, 0x80, 0xBF⟩
  else if b = 0xF4 then some ⟨4, 3, 0x80, 0x8F⟩
  else none

/-- Whether a byte may come next. -/
def Partial.accepts (p : Partial) (b : UInt8) : Bool :=
  p.low ≤ b && b ≤ p.high

/-- The character with one more byte read; all bytes after the second are plain tails. -/
def Partial.push (p : Partial) (b : UInt8) : Partial :=
  ⟨p.value * 64 + (b.toNat - 0x80), p.owed - 1, 0x80, 0xBF⟩

/-- The pieces of a byte sequence, read on from a state; a damaged piece is `none`. -/
def piecesFrom : Option Partial → List UInt8 → List (Option Char)
  | none, [] => []
  | some _, [] => [none]
  | some p, b :: rest =>
    if p.accepts b then
      let p := p.push b
      if p.owed = 0 then some (Char.ofNat p.value) :: piecesFrom none rest
      else piecesFrom (some p) rest
    -- the byte ends the character under way and begins another, if it can
    else if b < 0x80 then none :: some (Char.ofNat b.toNat) :: piecesFrom none rest
    else match Partial.ofLead b with
      | some q => none :: piecesFrom (some q) rest
      | none => none :: none :: piecesFrom none rest
  | none, b :: rest =>
    if b < 0x80 then some (Char.ofNat b.toNat) :: piecesFrom none rest
    else match Partial.ofLead b with
      | some q => piecesFrom (some q) rest
      | none => none :: piecesFrom none rest

/-- The pieces of a byte sequence. -/
def pieces (bytes : List UInt8) : List (Option Char) :=
  piecesFrom none bytes

/-- The text a byte sequence encodes, if it encodes one. -/
def decode? (bytes : List UInt8) : Option String :=
  ((pieces bytes).mapM id).map String.ofList

/-- The text of a byte sequence, each damaged piece shown as the replacement character. -/
def decodeLossy (bytes : List UInt8) : String :=
  String.ofList ((pieces bytes).map (·.getD '\uFFFD'))

/-- The bytes of a text. -/
def encode (text : String) : List UInt8 :=
  text.toUTF8.toList

theorem encode_empty : encode "" = [] := by
  decide +kernel

end CodeMarkup.Text.Utf8
