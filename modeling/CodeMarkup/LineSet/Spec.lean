import CodeMarkup.LineSet.Basic
import CodeMarkup.Text.Blank
import CodeMarkup.Text.Numeral
import CodeMarkup.Text.Quoted
import CodeMarkup.Text.Split

/-!
# Line lists

A set of lines is written as a list such as `2,4-6`: items between commas, each a line number or two
with a dash between them. Blanks around items and around numbers do not count, and an empty item says
nothing. A number is an optional plus sign and ASCII digits, at least 1 and at most `lastLine`.

Reading stops at the first item that is at fault, and inside an item at its left bound before its
right one; only two good bounds are compared with each other.
-/

namespace CodeMarkup

/-- What is wrong with a line list. -/
inductive SpecFault where
  /-- a bound that is no number, as it stands in the list -/
  | notNumber (text : List Char)
  /-- a bound that is zero -/
  | zero
  /-- an item whose second bound comes before its first -/
  | backwards (item : List Char)
  deriving DecidableEq, Repr

/-- The wording of a fault. -/
def SpecFault.message : SpecFault → String
  | .notNumber text => String.ofList (Text.quoted text) ++ " is not a line number"
  | .zero => "line numbers start at 1"
  | .backwards item => "range " ++ String.ofList item ++ " runs backwards"

namespace LineSpec

/-- The digits of a number, after its plus sign if it has one. -/
def unsigned : List Char → List Char
  | '+' :: digits => digits
  | digits => digits

/-- The machine word that a text writes, if it writes one. -/
def word? (text : List Char) : Option Nat :=
  let digits := unsigned text
  if digits.isEmpty || !digits.all Char.isDigit then none
  else if Text.decimalValue digits ≤ lastLine then some (Text.decimalValue digits)
  else none

/-- The line number that a bound writes. -/
def readBound (text : List Char) : Except SpecFault Nat :=
  match word? (Text.trim text) with
  | none => .error (.notNumber text)
  | some 0 => .error .zero
  | some line => .ok line

/-- The two sides of the first dash of an item, if it has one. -/
def splitDash : List Char → Option (List Char × List Char)
  | [] => none
  | '-' :: rest => some ([], rest)
  | c :: rest => (splitDash rest).map fun (left, right) => (c :: left, right)

/-- The items of a list: trimmed, the empty ones dropped. -/
def items (text : List Char) : List (List Char) :=
  ((Text.split ',' text).map Text.trim).filter (!·.isEmpty)

/-- The range that an item writes. -/
def readItem (item : List Char) : Except SpecFault LineRange := do
  match splitDash item with
  | none =>
    let line ← readBound item
    return ⟨line, line⟩
  | some (left, right) =>
    let first ← readBound left
    let last ← readBound right
    if first ≤ last then return ⟨first, last⟩ else throw (.backwards item)

/-- The set that a list of items writes, added to one already read. -/
def readItems (set : LineSet) : List (List Char) → Except SpecFault LineSet
  | [] => .ok set
  | item :: rest => do
    let range ← readItem item
    readItems (set.insertRange range) rest

end LineSpec

/-- The set that a line list writes. -/
def LineSet.ofSpec (text : String) : Except SpecFault LineSet :=
  LineSpec.readItems .empty (LineSpec.items text.toList)

end CodeMarkup
