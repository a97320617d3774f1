import CodeMarkup.Script.Value

/-!
# Script faults

A script that does not read well is not run at all. One that runs can still go wrong, and then a fault says
how and, as a rule, where. Faults can be caught by the script itself, except that it ran too long.
-/

namespace CodeMarkup.Script

/-- A place in a script; lines and the characters of a line count from 1. -/
structure Position where
  /-- the line -/
  line : Nat
  /-- the character in the line -/
  column : Nat
  deriving DecidableEq, Repr

/-- Where a script begins. -/
def Position.start : Position := ⟨1, 1⟩

/-- A position in a few characters. -/
def Position.short (position : Position) : String :=
  toString position.line ++ ":" ++ toString position.column

/-- A position at the end of a message. -/
def Position.describe (position : Position) : String :=
  " (line " ++ toString position.line ++ ", position " ++ toString position.column ++ ")"

/-- What went wrong. -/
inductive Cause where
  /-- a value was thrown -/
  | thrown (value : Value)
  /-- no function of this name takes arguments of these kinds -/
  | noFunction (name : String) (kinds : List String)
  /-- no namespace has this name -/
  | noNamespace (name : String)
  /-- no variable has this name -/
  | noVariable (name : String)
  /-- a value has one kind, and another is needed -/
  | wrongKind (kind needed : String)
  /-- what is to be gone through is no array -/
  | notIterable
  /-- a value of the first kind has no items to be had by a value of the second -/
  | noIndex (kind index : String)
  /-- an array has no such item -/
  | noItem (index : Int) (count : Nat)
  /-- a text has no such character -/
  | noCharacter (index : Int) (count : Nat)
  /-- a sum of whole numbers does not fit -/
  | sumTooLarge (left right : Int64)
  /-- a whole number has no negative -/
  | noNegative (value : Int64)
  /-- the script ran too long -/
  | tooLong
  /-- something that goes wrong in no script that is read here, in the words of the engine it went wrong in -/
  | foreign (wording : String)

/-- A count with a noun in the right number. -/
def countOf (count : Nat) (noun : String) : String :=
  "only " ++ toString count ++ " " ++ noun ++ if count = 1 then "" else "s"

/-- What is said of an index that is out of bounds. -/
def outOfBounds (whole noun : String) (index : Int) (count : Nat) : String :=
  " index " ++ toString index ++ " out of bounds: "
    ++ if count = 0 then whole ++ " is empty" else countOf count noun ++ " in " ++ whole

/-- The wording of a cause. -/
def Cause.message : Cause → String
  | .thrown value =>
    if value.display = "" then "Runtime error" else "Runtime error: " ++ value.display
  | .noFunction name kinds =>
    "Function not found: " ++ name ++ " (" ++ ", ".intercalate kinds ++ ")"
  | .noNamespace name => "Module not found: " ++ name
  | .noVariable name => "Variable not found: " ++ name
  | .wrongKind kind needed => "Data type incorrect: " ++ kind ++ " (expecting " ++ needed ++ ")"
  | .notIterable => "For loop expects iterable type"
  | .noIndex kind index => "Indexer unavailable: " ++ kind ++ " [" ++ index ++ "]"
  | .noItem index count => "Array" ++ outOfBounds "array" "element" index count
  | .noCharacter index count => "String" ++ outOfBounds "string" "character" index count
  | .sumTooLarge left right =>
    "Addition overflow: " ++ toString left.toInt ++ " + " ++ toString right.toInt
  | .noNegative value => "Negation overflow: -" ++ toString value.toInt
  | .tooLong => "Too many operations"
  | .foreign wording => wording

/-- Whether a script can catch it. -/
def Cause.isCatchable : Cause → Bool
  | .tooLong => false
  | _ => true

/-- The value that a catch clause is given: what was thrown, or else the wording. -/
def Cause.caught : Cause → Value
  | .thrown value => value
  | cause => .text cause.message

/-- What went wrong, and where. -/
structure Fault where
  /-- what went wrong -/
  cause : Cause
  /-- where it did, if that is known -/
  position : Option Position

/-- The wording of a fault. -/
def Fault.message (fault : Fault) : String :=
  fault.cause.message ++ match fault.position with
    | some position => position.describe
    | none => ""

end CodeMarkup.Script
