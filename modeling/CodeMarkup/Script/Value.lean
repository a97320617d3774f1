import CodeMarkup.Decimal.Shortest
import CodeMarkup.Text.Quoted

/-!
# Script values

Settings scripts compute with few kinds of value: nothing, truth values, whole numbers of 64 bits,
floating-point numbers, characters, texts and arrays.

A value has a text, which is what `+` appends to a text and what a thrown value is reported by. Inside an
array, values are shown so that their kinds can be told apart: texts and characters are quoted there, and
nothing is shown as `()`.
-/

namespace CodeMarkup.Script

/-- A value of a script. -/
inductive Value where
  /-- nothing -/
  | unit
  /-- a truth value -/
  | bool (value : Bool)
  /-- a whole number -/
  | int (value : Int64)
  /-- a floating-point number -/
  | float (value : Float)
  /-- a character -/
  | char (value : Char)
  /-- a text -/
  | text (value : String)
  /-- an array -/
  | array (items : List Value)

instance : Inhabited Value := ⟨.unit⟩

namespace Value

/-- The name of a value's kind. -/
def kind : Value → String
  | .unit => "()"
  | .bool _ => "bool"
  | .int _ => "i64"
  | .float _ => "f64"
  | .char _ => "char"
  | .text _ => "string"
  | .array _ => "array"

/-- How a value's kind is shown among the arguments of a function: a text counts as each of the ways in
which a function can take one. -/
def argumentKind : Value → String
  | .text _ => "&str | ImmutableString | String"
  | value => value.kind

/-! ## Texts -/

/-- A number without a fraction keeps a point. -/
def withPoint (text : List Char) : List Char :=
  if text.contains '.' then text else text ++ ['.', '0']

/-- Where numbers are written with a power of ten, by themselves and inside an array. -/
inductive FloatStyle where
  /-- by itself: above ten to the power 13, and below ten to the power -13 -/
  | alone
  /-- inside an array: from ten to the power 16, and below ten to the power -4 -/
  | inside
  deriving DecidableEq

/-- Whether the size of a number calls for a power of ten. -/
def FloatStyle.isScientific (size : Float) : FloatStyle → Bool
  | .alone => 1e13 < size || size < 1e-13
  | .inside => 1e16 ≤ size || size < 1e-4

/-- The text of a floating-point number: the fewest digits that read back. -/
def floatText (style : FloatStyle) (number : Float) : String :=
  if number.isNaN then "NaN"
  else
    let sign := if number < 0 then ['-'] else []
    if number.isInf then String.ofList (sign ++ "inf".toList)
    else if number == 0 then
      if style = .inside ∧ number.toBits ≠ 0 then "-0.0" else "0.0"
    else
      let (digits, lead) := (Decimal.Binary.ofFloat number).shortest.normal
      String.ofList <| sign ++
        if style.isScientific number.abs then Decimal.scientific digits lead
        else withPoint (Decimal.positional digits lead)

/-- One character between apostrophes. -/
def quotedCharacter (c : Char) : String :=
  String.ofList <| '\'' :: (if c = '\'' then ['\\', c]
    else if c = '"' then [c] else Text.quotedChar c) ++ ['\'']

mutual

/-- A value as an array shows it. -/
def shown : Value → String
  | .unit => "()"
  | .bool value => toString value
  | .int value => toString value.toInt
  | .float value => floatText .inside value
  | .char value => quotedCharacter value
  | .text value => Text.quote value
  | .array items => "[" ++ shownAll items ++ "]"

/-- Values with commas between them. -/
def shownAll : List Value → String
  | [] => ""
  | [value] => shown value
  | value :: rest => shown value ++ ", " ++ shownAll rest

end

/-- The text of a value. -/
def display : Value → String
  | .unit => ""
  | .float value => floatText .alone value
  | .char value => String.singleton value
  | .text value => value
  | value => shown value

end Value

end CodeMarkup.Script
