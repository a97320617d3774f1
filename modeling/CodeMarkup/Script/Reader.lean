import CodeMarkup.Script.Idle
import CodeMarkup.Script.Token

/-!
# Reading scripts

Statements stand one after another, with a semicolon after each that does not end with a block and is not
the last. Of the operators, `||` binds least, then `&&`, then the comparisons, then `+`; all of them group
to the left, and those in front of an operand bind most.

Expressions can be nested, but not without end: every expression, every operand and every bracket opens a
level, and so do statements and blocks. There are `deepest` levels, and a script that needs more does not
read.

The functions here are given a bound on their nesting, `fuel`. Between two calls that take a token from the
script there are only a few that take none, so a bound that grows with the number of tokens is never met.
-/

namespace CodeMarkup.Script

/-- Reading from a sequence of tokens, which may fail. -/
abbrev ReadM := StateT (List Lexeme) Option

namespace Reader

/-! ## Tokens -/

/-- The next token's symbol, if it is one. -/
def peekSymbol : ReadM (Option Symbol) := do
  match ← get with
  | ⟨.symbol symbol, _⟩ :: _ => return some symbol
  | _ => return none

/-- The next token's word, if it is one. -/
def peekWord : ReadM (Option Word) := do
  match ← get with
  | ⟨.word word, _⟩ :: _ => return some word
  | _ => return none

/-- Takes the next token. -/
def next : ReadM Lexeme := do
  match ← get with
  | [] => failure
  | lexeme :: rest =>
    set rest
    return lexeme

/-- Takes the next token if it is a symbol, and says whether it was. -/
def accept (symbol : Symbol) : ReadM Bool := do
  if (← peekSymbol) = some symbol then
    let _ ← next
    return true
  else return false

/-- Takes the next token, which must be a symbol, and yields its position. -/
def expect (symbol : Symbol) : ReadM Position := do
  match ← next with
  | ⟨.symbol other, position⟩ => if other = symbol then return position else failure
  | _ => failure

/-- Takes the next token, which must be a word. -/
def expectWord (word : Word) : ReadM Position := do
  match ← next with
  | ⟨.word other, position⟩ => if other = word then return position else failure
  | _ => failure

/-- Takes the next token, which must be a name. -/
def expectName : ReadM (String × Position) := do
  match ← next with
  | ⟨.name name, position⟩ => return (name, position)
  | _ => failure

/-! ## Levels -/

/-- How deep the parts of a script can be nested. -/
def deepest : Nat := 64

/-- The next level, if there is one. -/
def deeper (level : Nat) : ReadM Nat :=
  if level < deepest then return level + 1 else failure

/-! ## Operators -/

/-- How strongly a symbol binds as an operator between operands. -/
def binding? : Symbol → Option Nat
  | .either => some 1
  | .both => some 2
  | .equal | .unequal => some 3
  | .plus => some 4
  | _ => none

/-- An operation of two operands. -/
def combine (symbol : Symbol) (left right : Expr) (position : Position) : Expr :=
  match symbol with
  | .either => .either left right position
  | .both => .both left right position
  | .equal => .binary .equal left right position
  | .unequal => .binary .unequal left right position
  | _ => .binary .plus left right position

/-- The negative of an operand. That of a literal is a literal, a floating-point one if it would not fit. -/
def negative (operand : Expr) (position : Position) : Expr :=
  match operand with
  | .literal (.int value) _ =>
    if value = Int64.minValue then .literal (.float (2 ^ 63)) position
    else .literal (.int (-value)) position
  | .literal (.float value) _ => .literal (.float (-value)) position
  | operand => .signed .minus operand position

/-- Whether it is plain from its form that an expression is no truth value. -/
def isNoTruth : Expr → Bool
  | .literal (.bool _) _ => false
  | .literal .. | .array .. => true
  | _ => false

/-- Whether it is plain from its form that an expression is nothing to go through item by item. -/
def isNoSequence : Expr → Bool
  | .literal .. => true
  | _ => false

/-- Whether an operator can have these operands, as far as it is plain from their form. -/
def canCombine (symbol : Symbol) (left right : Expr) : Bool :=
  match symbol with
  | .both | .either => !isNoTruth left && !isNoTruth right
  | _ => true

/-- Whether it is plain from its form that an expression has no items. -/
def lacksItems : Expr → Bool
  | .literal (.text _) _ => false
  | .literal .. | .both .. | .either .. => true
  | _ => false

/-- Whether an access can be what it seems: an index is a whole number, and what it is an index of may have
items. -/
def isAccess (whole index : Expr) : Bool :=
  match index with
  | .literal (.int _) _ => match whole with
    | .literal (.int _) _ => true
    | whole => !lacksItems whole
  | .literal (.text _) _ => match whole with
    | .literal (.int _) _ => true
    | .literal .. | .array .. | .both .. | .either .. => false
    | _ => true
  | .literal .. | .both .. | .either .. => false
  | _ => true

/-! ## Assignments -/

/-- The variable that accesses to items start from, and the indexes of those, if there is one. -/
def target? : Expr → List Expr → Option (List String × String × Position × List Expr)
  | .place space name position, indexes => some (space, name, position, indexes)
  | .item whole index _, indexes => target? whole (index :: indexes)
  | _, _ => none

/-- What is added when a variable is assigned a value, if that value is the variable's own and something
more. -/
def addend? (name : String) : Expr → Option (Expr × Position)
  | .binary .plus (.place [] other _) right position =>
    if other = name then some (right, position) else none
  | _ => none

/-- The assignment of a value to what an expression leads to. -/
def assignment (left : Expr) (sign : Lexeme) (value : Expr) : ReadM Statement := do
  let some (space, name, position, indexes) := target? left [] | failure
  match sign.token with
  | .symbol .plusAssign =>
    return .assign space name position indexes true value sign.position
  | _ =>
    match if space.isEmpty && indexes.isEmpty then addend? name value else none with
    | some (addend, plus) => return .assign space name position indexes true addend plus
    | none => return .assign space name position indexes false value sign.position

/-! ## Expressions and statements -/

mutual

/-- An expression. -/
def expr : (fuel level : Nat) → ReadM Expr
  | 0, _ => failure
  | fuel + 1, level => do
    let level ← deeper level
    let left ← operand fuel level
    operations fuel level 0 left

/-- What follows a left operand, as far as it binds more strongly than `least`. -/
def operations : (fuel level least : Nat) → Expr → ReadM Expr
  | 0, _, _, _ => failure
  | fuel + 1, level, least, left => do
    match (← peekSymbol).bind fun symbol => (binding? symbol).map (symbol, ·) with
    | none => return left
    | some (symbol, strength) =>
      -- an operator that binds no more strongly belongs to what is around this
      if strength ≤ least then return left
      let position ← expect symbol
      let right ← operand fuel level
      let right ← operations fuel level strength right
      if !canCombine symbol left right then failure
      operations fuel level least (combine symbol left right position)

/-- An operand, with the operators in front of it. -/
def operand : (fuel level : Nat) → ReadM Expr
  | 0, _ => failure
  | fuel + 1, level => do
    let level ← deeper level
    match ← peekSymbol with
    | some .bang =>
      let position ← expect .bang
      return .signed .negation (← operand fuel level) position
    | some .minus =>
      let position ← expect .minus
      return negative (← operand fuel level) position
    | _ =>
      let whole ← primary fuel level
      accesses fuel level whole

/-- The accesses to items behind an expression. -/
def accesses : (fuel level : Nat) → Expr → ReadM Expr
  | 0, _, _ => failure
  | fuel + 1, level, whole => do
    if (← peekSymbol) ≠ some .openSquare then return whole
    let position ← expect .openSquare
    let index ← expr fuel (← deeper level)
    let _ ← expect .closeSquare
    if isAccess whole index then accesses fuel level (.item whole index position) else failure

/-- Expressions with commas between them, and perhaps one behind the last, up to a closing bracket. -/
def items : (fuel level : Nat) → (closing : Symbol) → ReadM (List Expr)
  | 0, _, _ => failure
  | fuel + 1, level, closing => do
    if ← accept closing then return []
    let first ← expr fuel level
    if ← accept .comma then return first :: (← items fuel level closing)
    let _ ← expect closing
    return [first]

/-- What a name begins: a variable or a call, in a namespace if names with paths between them come first. -/
def named : (fuel level : Nat) → (space : List String) → (start : Position) → String → Position →
    ReadM Expr
  | 0, _, _, _, _, _ => failure
  | fuel + 1, level, space, start, name, position => do
    match ← peekSymbol with
    | some .path =>
      let _ ← expect .path
      let (inner, later) ← expectName
      named fuel level (space ++ [name]) start inner later
    | some .openRound =>
      let _ ← expect .openRound
      return .call space start name position (← items fuel (← deeper level) .closeRound)
    | _ => return .place space name (if space.isEmpty then position else start)

/-- An operand without operators and accesses. -/
def primary : (fuel level : Nat) → ReadM Expr
  | 0, _ => failure
  | fuel + 1, level => do
    match ← get with
    | ⟨.literal value, position⟩ :: rest =>
      set rest
      return .literal value position
    | ⟨.name name, position⟩ :: rest =>
      set rest
      named fuel level [] position name position
    | ⟨.symbol .openRound, position⟩ :: rest =>
      set rest
      if ← accept .closeRound then return .literal .unit position
      let inner ← expr fuel (← deeper level)
      let _ ← expect .closeRound
      return inner
    | ⟨.symbol .openSquare, position⟩ :: rest =>
      set rest
      return .array (← items fuel (← deeper level) .closeSquare) position
    -- a statement serves as an operand, and its value as the operand's
    | ⟨.symbol .openCurly, position⟩ :: _
    | ⟨.word .ifWord, position⟩ :: _
    | ⟨.word .loopWord, position⟩ :: _
    | ⟨.word .forWord, position⟩ :: _ =>
      return .statement (← statement fuel level) position
    | _ => failure

/-- A block: where it begins and what it says. -/
def block : (fuel level : Nat) → ReadM (Position × List Statement)
  | 0, _ => failure
  | fuel + 1, level => do
    let level ← deeper level
    let position ← expect .openCurly
    let body ← statements fuel level
    let _ ← expect .closeCurly
    return (position, body)

/-- Statements, up to a closing brace or the end. -/
def statements : (fuel level : Nat) → ReadM (List Statement)
  | 0, _ => failure
  | fuel + 1, level => do
    if (← get).isEmpty || (← peekSymbol) = some .closeCurly then return []
    if ← accept .semicolon then return ← statements fuel level
    let first ← statement fuel level
    if ← accept .semicolon then return first :: (← statements fuel level)
    -- without a semicolon another statement can follow only a block
    if first.endsWithBlock || (← get).isEmpty || (← peekSymbol) = some .closeCurly then
      return first :: (← statements fuel level)
    failure

/-- What a statement with a block is about; it does not begin with a block itself. -/
def subject : (fuel level : Nat) → ReadM Expr
  | 0, _ => failure
  | fuel + 1, level => do
    -- a brace here would be taken for the block
    if (← peekSymbol) = some .openCurly then failure
    expr fuel level

/-- What is done if a condition does not hold. -/
def alternative : (fuel level : Nat) → ReadM (List Statement)
  | 0, _ => failure
  | fuel + 1, level => do
    if (← peekWord) ≠ some .elseWord then return []
    let _ ← next
    if (← peekWord) = some .ifWord then return [← statement fuel level]
    return (← block fuel level).2

/-- A statement. -/
def statement : (fuel level : Nat) → ReadM Statement
  | 0, _ => failure
  | fuel + 1, level => do
    let level ← deeper level
    match ← get with
    | ⟨.symbol .openCurly, position⟩ :: _ => return .block (← block fuel level).2 position
    | ⟨.word .letWord, position⟩ :: rest =>
      set rest
      let (name, _) ← expectName
      if ← accept .assign then return .declare name (← expr fuel level) position
      return .declare name (.literal .unit position) position
    | ⟨.word .ifWord, position⟩ :: rest =>
      set rest
      let condition ← subject fuel level
      if isNoTruth condition then failure
      let (_, yes) ← block fuel level
      return .branch condition yes (← alternative fuel level) position
    | ⟨.word .forWord, position⟩ :: rest =>
      set rest
      let (name, _) ← expectName
      let _ ← expectWord .inWord
      let whole ← subject fuel level
      if isNoSequence whole then failure
      let (inside, body) ← block fuel level
      return .each name whole body inside position
    | ⟨.word .loopWord, position⟩ :: rest =>
      set rest
      let (inside, body) ← block fuel level
      return .forever body inside position
    | ⟨.word .throwWord, position⟩ :: rest =>
      set rest
      match ← peekSymbol with
      | some .semicolon | some .closeCurly => return .raise (.literal .unit position) position
      | _ =>
        if rest.isEmpty then return .raise (.literal .unit position) position
        return .raise (← expr fuel level) position
    | ⟨.word .tryWord, position⟩ :: rest =>
      set rest
      let (_, body) ← block fuel level
      let _ ← expectWord .catchWord
      let name ← if ← accept .openRound then do
          let (name, _) ← expectName
          let _ ← expect .closeRound
          pure (some name)
        else pure none
      return .attempt body name (← block fuel level).2 position
    | _ =>
      let left ← expr fuel level
      match ← peekSymbol with
      | some .assign | some .plusAssign =>
        let lexeme ← next
        let value ← expr fuel level
        assignment left lexeme value
      | _ => return .compute left

end

/-- A bound on the nesting of calls when so many tokens are to be read. -/
def enough (tokens : Nat) : Nat := 12 * (tokens + 4)

end Reader

/-- The statements of a script, if it reads well, without idle ones. -/
def read? (script : String) : Option (List Statement) := do
  let lexemes ← lexemes? script
  let (body, rest) ← (Reader.statements (Reader.enough lexemes.length) 0).run lexemes
  guard rest.isEmpty
  return trim true body

end CodeMarkup.Script
