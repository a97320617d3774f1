import CodeMarkup.Script.Fault

/-!
# Statements and expressions

A script that was read is a list of statements. Statements have values, that of a list being the value of
its last one, so a statement can stand where an expression is expected, and an expression is a statement.

Positions are those that faults report: an operator stands for its operation, a function for the call of
it, an opening bracket for the access behind it.
-/

namespace CodeMarkup.Script

/-- An operator between two operands that are both computed. -/
inductive Operator where
  /-- the sum, or texts one after the other -/
  | plus
  /-- whether two values are equal -/
  | equal
  /-- whether they are not -/
  | unequal
  deriving DecidableEq, Repr

/-- The symbol of an operator. -/
def Operator.name : Operator → String
  | .plus => "+"
  | .equal => "=="
  | .unequal => "!="

/-- An operator in front of one operand. -/
inductive Sign where
  /-- the other truth value -/
  | negation
  /-- the negative of a number -/
  | minus
  deriving DecidableEq, Repr

/-- The symbol of an operator in front. -/
def Sign.name : Sign → String
  | .negation => "!"
  | .minus => "-"

mutual

/-- What has a value. -/
inductive Expr where
  /-- a literal -/
  | literal (value : Value) (position : Position)
  /-- a variable, in a namespace if there are names before its own -/
  | place (space : List String) (name : String) (position : Position)
  /-- a call of a function, in a namespace if there are names before its own -/
  | call (space : List String) (start : Position) (name : String) (position : Position)
    (arguments : List Expr)
  /-- an array -/
  | array (items : List Expr) (position : Position)
  /-- an item of an array, or a character of a text -/
  | item (whole index : Expr) (position : Position)
  /-- an operator in front of an operand -/
  | signed (sign : Sign) (operand : Expr) (position : Position)
  /-- an operator between operands -/
  | binary (operator : Operator) (left right : Expr) (position : Position)
  /-- whether both operands are true; the second is only computed if the first is -/
  | both (left right : Expr) (position : Position)
  /-- whether one of the operands is true; the second is only computed if the first is not -/
  | either (left right : Expr) (position : Position)
  /-- a statement, for its value -/
  | statement (statement : Statement) (position : Position)

/-- What can be done. -/
inductive Statement where
  /-- to compute something -/
  | compute (expr : Expr)
  /-- to make a variable -/
  | declare (name : String) (value : Expr) (position : Position)
  /-- to give a variable, or the item of it that indexes lead to, another value, or to add the value to
  what it holds; `operator` is where that is said -/
  | assign (space : List String) (name : String) (position : Position) (indexes : List Expr)
    (adding : Bool) (value : Expr) (operator : Position)
  /-- to do what a block says -/
  | block (body : List Statement) (position : Position)
  /-- to do one thing or another -/
  | branch (condition : Expr) (yes no : List Statement) (position : Position)
  /-- to do something for each item of an array; `inside` is where the block begins -/
  | each (name : String) (whole : Expr) (body : List Statement) (inside position : Position)
  /-- to do something over and over; `inside` is where the block begins -/
  | forever (body : List Statement) (inside position : Position)
  /-- to throw a value -/
  | raise (value : Expr) (position : Position)
  /-- to do something, and something else if it goes wrong -/
  | attempt (body : List Statement) (name : Option String) (handler : List Statement)
    (position : Position)

end

instance : Inhabited Expr := ⟨.literal .unit .start⟩

namespace Expr

/-- The position that a fault of an expression reports. -/
def position : Expr → Position
  | .literal _ position => position
  | .place _ _ position => position
  | .call _ _ _ position _ => position
  | .array _ position => position
  | .item _ _ position => position
  | .signed _ _ position => position
  | .binary _ _ _ position => position
  | .both _ _ position => position
  | .either _ _ position => position
  | .statement _ position => position

/-- Where an expression begins, as far as faults report it: operands that are both computed come after
their operator. -/
def start : Expr → Position
  | .item whole _ _ => whole.start
  | .both left _ _ => left.start
  | .either left _ _ => left.start
  | expr => expr.position

/-- Whether an expression is a call, or an operation that is one. -/
def isCall : Expr → Bool
  | .call .. | .signed .. | .binary .. => true
  | _ => false

end Expr

namespace Statement

/-- Whether a statement ends with a block, and needs no semicolon before the next. -/
def endsWithBlock : Statement → Bool
  | .compute _ | .declare .. | .assign .. | .raise .. => false
  | .block .. | .branch .. | .each .. | .forever .. | .attempt .. => true

/-- Whether a statement has a value of its own. -/
def hasValue : Statement → Bool
  | .compute _ | .block .. | .branch .. => true
  | .declare .. | .assign .. | .each .. | .forever .. | .raise .. | .attempt .. => false

end Statement

end CodeMarkup.Script
