import CodeMarkup.Script.Statement

/-!
# Operations on script values

What the operators of scripts make of their operands, and which item of a value an index means. Operands
of the wrong kinds are a matter for whoever runs the script, and so a cause is yielded for them, without a
position.
-/

namespace CodeMarkup.Script

namespace Value

mutual

/-- Whether two values are equal. Numbers are compared as numbers, and a character with a text as if it
were one; apart from that, values of different kinds differ. -/
def isEqual : Value → Value → Bool
  | .unit, .unit => true
  | .bool one, .bool other => one == other
  | .int one, .int other => one == other
  | .float one, .float other => one == other
  | .int one, .float other => Float.ofInt one.toInt == other
  | .float one, .int other => one == Float.ofInt other.toInt
  | .char one, .char other => one == other
  | .text one, .text other => one == other
  | .char one, .text other => String.singleton one == other
  | .text one, .char other => one == String.singleton other
  | .array one, .array other => areEqual one other
  | _, _ => false

/-- Whether two lists hold equal values. -/
def areEqual : List Value → List Value → Bool
  | [], [] => true
  | one :: rest, other :: others => one.isEqual other && areEqual rest others
  | _, _ => false

end

/-- The sum of two values. With a text on one side, it is the texts of both, one after the other. -/
def plus (left right : Value) : Except Cause Value :=
  match left, right with
  | .int one, .int other =>
    let sum := one.toInt + other.toInt
    if Int64.minValue.toInt ≤ sum ∧ sum ≤ Int64.maxValue.toInt then .ok (.int (Int64.ofInt sum))
    else .error (.sumTooLarge one other)
  | .float one, .float other => .ok (.float (one + other))
  | .int one, .float other => .ok (.float (Float.ofInt one.toInt + other))
  | .float one, .int other => .ok (.float (one + Float.ofInt other.toInt))
  | .array one, .array other => .ok (.array (one ++ other))
  | .char one, .char other => .ok (.text (String.ofList [one, other]))
  | .text one, other => .ok (.text (one ++ other.display))
  | one, .text other => .ok (.text (one.display ++ other))
  | one, other => .error (.noFunction "+" [one.argumentKind, other.argumentKind])

/-- What a variable holds after something was added to it. That is the sum, except that an array takes in
what is no array as one more item. -/
def added (old new : Value) : Except Cause Value :=
  match old, new with
  | .array items, .array others => .ok (.array (items ++ others))
  | .array items, item => .ok (.array (items ++ [item]))
  | old, new => old.plus new

/-- What an operator makes of two values. -/
def combine (operator : Operator) (left right : Value) : Except Cause Value :=
  match operator with
  | .plus => left.plus right
  | .equal => .ok (.bool (left.isEqual right))
  | .unequal => .ok (.bool !(left.isEqual right))

/-- What an operator in front makes of a value. -/
def sign (sign : Sign) (value : Value) : Except Cause Value :=
  match sign, value with
  | .negation, .bool value => .ok (.bool !value)
  | .minus, .float value => .ok (.float (-value))
  | .minus, .int value =>
    if value = Int64.minValue then .error (.noNegative value) else .ok (.int (-value))
  | sign, value => .error (.noFunction sign.name [value.argumentKind])

/-- The position that an index means among so many items: from the front, or from the back if it is
negative. -/
def offset? (index : Int) (count : Nat) : Option Nat :=
  if 0 ≤ index then
    if index.toNat < count then some index.toNat else none
  else if (-index).toNat ≤ count then some (count - (-index).toNat)
  else none

/-- An item of a value. -/
def item (whole index : Value) : Except Cause Value :=
  match whole, index with
  | .array items, .int index =>
    match (offset? index.toInt items.length).bind (items[·]?) with
    | some value => .ok value
    | none => .error (.noItem index.toInt items.length)
  | .text value, .int index =>
    let characters := value.toList
    match (offset? index.toInt characters.length).bind (characters[·]?) with
    | some c => .ok (.char c)
    | none => .error (.noCharacter index.toInt characters.length)
  | .array _, index => .error (.wrongKind index.kind "i64")
  | .text _, index => .error (.wrongKind index.kind "i64")
  | whole, index => .error (.noIndex whole.kind index.kind)

/-- A value with another item at an index that it has. -/
def setItem (whole index item : Value) : Except Cause Value :=
  match whole, index, item with
  | .array items, .int index, item =>
    match offset? index.toInt items.length with
    | some place => .ok (.array (items.set place item))
    | none => .error (.noItem index.toInt items.length)
  | .text value, .int index, .char c =>
    let characters := value.toList
    match offset? index.toInt characters.length with
    | some place => .ok (.text (String.ofList (characters.set place c)))
    | none => .error (.noCharacter index.toInt characters.length)
  | .text _, .int _, item => .error (.wrongKind item.kind "char")
  | whole, index, _ => .error (.noIndex whole.kind index.kind)

/-- A value in which the item that indexes lead to is changed. A fault in an index is reported at the
position that comes with it. -/
def modifyItem (change : Value → Except Fault Value) :
    List (Value × Position) → Value → Except Fault Value
  | [], value => change value
  | (index, position) :: rest, whole => do
    let old ← (whole.item index).mapError (⟨·, some position⟩)
    let new ← modifyItem change rest old
    (whole.setItem index new).mapError (⟨·, some position⟩)

end Value

end CodeMarkup.Script
