import CodeMarkup.Script.Statement

/-!
# Idle work

A script is run for what it does to its host and for how it ends. An expression that only looks at values
does neither: it is **idle**, even if it looks at a variable that is not there. So is a statement that is
made of nothing else.

`trim` leaves idle statements out of a script that was read, wherever no one can ask for their value. It
also settles what a literal condition decides. What stays does what it did before, except that the faults
of what was left out are gone with it.
-/

namespace CodeMarkup.Script

/-! ## What is idle -/

mutual

/-- Whether an expression only looks at values. -/
def Expr.isIdle : Expr → Bool
  | .literal .. | .place .. => true
  | .array items _ => areIdle items
  | .both left right _ => left.isIdle && right.isIdle
  | .either left right _ => left.isIdle && right.isIdle
  | .statement statement _ => statement.isIdle
  | .call .. | .item .. | .signed .. | .binary .. => false

/-- Whether all of several expressions only look at values. -/
def areIdle : List Expr → Bool
  | [] => true
  | expr :: rest => expr.isIdle && areIdle rest

/-- Whether a statement only looks at values, and ends. -/
def Statement.isIdle : Statement → Bool
  | .compute expr => expr.isIdle
  | .block body _ => doNothing body
  | .branch condition yes no _ => condition.isIdle && doNothing yes && doNothing no
  | .each _ whole body _ _ => whole.isIdle && doNothing body
  | .attempt body _ handler _ => doNothing body && doNothing handler
  | .declare .. | .assign .. | .forever .. | .raise .. => false

/-- Whether all of several statements are idle. -/
def doNothing : List Statement → Bool
  | [] => true
  | statement :: rest => statement.isIdle && doNothing rest

end

/-- Whether a statement matters only to those after it in its block. -/
def Statement.isPreparation : Statement → Bool
  | .declare _ value _ => value.isIdle
  | _ => false

/-! ## Conditions -/

/-- Whether both sides are true, decided as far as it can be without running anything. -/
def Expr.decideBoth (left right : Expr) (position : Position) : Expr :=
  match left, right with
  | .literal (.bool true) _, right => right
  | .literal (.bool false) here, _ => .literal (.bool false) here
  | left, .literal (.bool true) _ => left
  | left, right => .both left right position

/-- Whether one side is true, decided as far as it can be without running anything. -/
def Expr.decideEither (left right : Expr) (position : Position) : Expr :=
  match left, right with
  | .literal (.bool false) _, right => right
  | .literal (.bool true) here, _ => .literal (.bool true) here
  | left, .literal (.bool false) _ => left
  | left, right => .either left right position

/-- One block or another, decided as far as it can be without running anything. Where there is nothing to do
either way the condition is computed, if it does anything, but need not be a truth value. -/
def Statement.decide (condition : Expr) (yes no : List Statement) (position : Position) : Statement :=
  match condition, yes, no with
  | .literal (.bool true) _, yes, _ => .block yes position
  | .literal (.bool false) _, _, no => .block no position
  | condition, [], [] =>
    if condition.isIdle then .block [] position
    else .block [.compute condition, .compute (.literal .unit position)] position
  | condition, yes, no => .branch condition yes no position

/-! ## Leaving out -/

/-- A statement in front of those of its block that stay. If no one can ask for the block's value, it stays
only if it does something, for itself or for those after it. If someone can, the last one stays for its
value. -/
def Statement.before (valued : Bool) (first : Statement) (isLast : Bool) (rest : List Statement) :
    List Statement :=
  if valued && isLast then
    -- what is idle still gives the block its value, if it has one to give
    if first.isIdle && !first.hasValue then [] else [first]
  else if first.isIdle || (!valued && rest.isEmpty && first.isPreparation) then rest
  else first :: rest

mutual

/-- An expression without idle statements in it. -/
def Expr.trim : Expr → Expr
  | .literal value position => .literal value position
  | .place space name position => .place space name position
  | .call space start name position arguments =>
    .call space start name position (trimExprs arguments)
  | .array items position => .array (trimExprs items) position
  | .item whole index position => .item whole.trim index.trim position
  | .signed sign operand position => .signed sign operand.trim position
  | .binary operator left right position => .binary operator left.trim right.trim position
  | .both left right position => .decideBoth left.trim right.trim position
  | .either left right position => .decideEither left.trim right.trim position
  | .statement statement position => .statement (statement.trim true) position

/-- Expressions without idle statements in them. -/
def trimExprs : List Expr → List Expr
  | [] => []
  | expr :: rest => expr.trim :: trimExprs rest

/-- A statement without idle statements in it; `valued` says whether its value can be asked for. -/
def Statement.trim (valued : Bool) : Statement → Statement
  | .compute expr => .compute expr.trim
  | .declare name value position => .declare name value.trim position
  | .assign space name position indexes adding value operator =>
    .assign space name position (trimExprs indexes) adding value.trim operator
  | .block body position => .block (trim valued body) position
  | .branch condition yes no position =>
    .decide condition.trim (trim valued yes) (trim valued no) position
  | .each name whole body inside position =>
    .each name whole.trim (trim false body) inside position
  | .forever body inside position => .forever (trim false body) inside position
  | .raise value position => .raise value.trim position
  | .attempt body name handler position =>
    match trim false body with
    -- nothing is left that could go wrong
    | [] => .block [] position
    | body => .attempt body name (trim false handler) position

/-- Statements without idle ones; `valued` says whether the value of the last can be asked for. -/
def trim (valued : Bool) : List Statement → List Statement
  | [] => []
  | first :: rest => (first.trim valued).before valued rest.isEmpty (trim valued rest)

end

end CodeMarkup.Script
