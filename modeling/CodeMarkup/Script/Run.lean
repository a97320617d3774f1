import CodeMarkup.Script.Operation

/-!
# Running scripts

A script runs for the sake of a **host**: something with a state of its own and a namespace of functions
that read and change it. A host also hears what a script tells to whoever debugs it. What a script did to the
host before it went wrong stays done, while its own variables are gone when it ends.

Variables are found from the inside out. A block's variables end with the block, however it ends.

Every statement, every expression and every call counts as an operation, and a script is stopped when it
has done `mostOperations`. That is also what ends a loop, so that running a script always ends: a loop
cannot go round more often than there are operations left.
-/

namespace CodeMarkup.Script

/-- Something that scripts work on. -/
structure Host (State : Type) where
  /-- the name of its namespace -/
  namespaceName : String
  /-- what a function of the namespace does with some arguments, if there is one that takes them: it yields
  the next state and a value, or goes wrong -/
  call : State → String → List Value → Option (Except Cause (State × Value))
  /-- what becomes of the state when a script tells a line to whoever debugs it -/
  tell : State → String → State

/-- What a running script can see and change. -/
structure Memory (State : Type) where
  /-- the state of the host -/
  state : State
  /-- the variables, the innermost first -/
  scope : List (String × Value)
  /-- how many operations were done -/
  operations : Nat

/-- Work of a script. What it did stays, also if it goes wrong. -/
abbrev RunM (State : Type) := EStateM Fault (Memory State)

/-- How many operations a script can do. -/
def mostOperations : Nat := 100000

/-! ## Parts of a run -/

section

variable {State : Type}

/-- Goes wrong at a position. -/
def failAt {α : Type} (cause : Cause) (position : Position) : RunM State α :=
  throw ⟨cause, some position⟩

/-- A result whose faults are reported at a position. -/
def orFailAt {α : Type} (result : Except Cause α) (position : Position) : RunM State α :=
  match result with
  | .ok value => return value
  | .error cause => failAt cause position

/-- Counts an operation. -/
def tick (position : Position) : RunM State Unit := do
  modify fun memory => { memory with operations := memory.operations + 1 }
  if mostOperations < (← get).operations then failAt .tooLong position

/-- Does something whose variables end with it, however it ends. -/
def inScope {α : Type} (action : RunM State α) : RunM State α := fun memory =>
  let restore (later : Memory State) : Memory State :=
    { later with
      scope := later.scope.drop (later.scope.length - memory.scope.length) }
  match action memory with
  | .ok value later => .ok value (restore later)
  | .error fault later => .error fault (restore later)

/-- Makes a variable. -/
def declare (name : String) (value : Value) : RunM State Unit :=
  modify fun memory => { memory with scope := (name, value) :: memory.scope }

/-- Variables with the innermost of a name given a value, if there is one. -/
def assignIn? (name : String) (value : Value) :
    List (String × Value) → Option (List (String × Value))
  | [] => none
  | (other, old) :: rest =>
    if other = name then some ((name, value) :: rest)
    else (assignIn? name value rest).map ((other, old) :: ·)

/-- A name with the namespaces it is in. -/
def qualified (space : List String) (name : String) : String :=
  "::".intercalate (space ++ [name])

/-- The value of a variable. No namespace has any. -/
def lookUp (host : Host State) (space : List String) (name : String) (position : Position) :
    RunM State Value := do
  match space with
  | [] =>
    match (← get).scope.lookup name with
    | some value => return value
    | none => failAt (.noVariable name) position
  | root :: _ =>
    if root = host.namespaceName then failAt (.noVariable (qualified space name)) position
    else failAt (.noNamespace ("::".intercalate space)) position

/-- Changes a variable. -/
def update (host : Host State) (space : List String) (name : String) (position : Position)
    (change : Value → Except Fault Value) : RunM State Unit := do
  let old ← lookUp host space name position
  tick position
  match change old with
  | .error fault => throw fault
  | .ok new =>
    modify fun memory =>
      { memory with scope := (assignIn? name new memory.scope).getD memory.scope }

/-- The line that a script tells to whoever debugs it: where it does, and a value as an array shows it, or
nothing. -/
def debugLine (position : Position) (arguments : List Value) : String :=
  position.short ++ " | " ++ Value.shownAll arguments

/-- Calls a function. Outside every namespace there are two, which show a value of any kind, or nothing: one in
a log, which is no concern of the host, and one to whoever debugs the script. -/
def callFunction (host : Host State) (space : List String) (start : Position) (name : String)
    (position : Position) (arguments : List Value) : RunM State Value := do
  let missing : RunM State Value :=
    failAt (.noFunction (qualified space name) (arguments.map Value.argumentKind)) position
  match space with
  | [] =>
    tick position
    if name = "print" ∧ arguments.length ≤ 1 then return .unit
    else if name = "debug" ∧ arguments.length ≤ 1 then
      modify fun memory => { memory with state := host.tell memory.state (debugLine position arguments) }
      return .unit
    else missing
  | root :: inner =>
    if root ≠ host.namespaceName then failAt (.noNamespace ("::".intercalate space)) start
    else
      tick position
      -- the host's functions are in its own namespace only, not in one inside that
      let memory ← get
      match if inner.isEmpty then host.call memory.state name arguments else none with
      | none => missing
      | some (.error cause) => throw ⟨cause, none⟩
      | some (.ok (state, value)) =>
        set { memory with state := state }
        return value

/-- A value that must be a truth value. -/
def truth (value : Value) (position : Position) : RunM State Bool :=
  match value with
  | .bool value => return value
  | value => failAt (.wrongKind value.kind "bool") position

/-- Does something for each of several values. -/
def forEach (action : Value → RunM State Unit) : List Value → RunM State Unit
  | [] => return ()
  | value :: rest => do
    action value
    forEach action rest

/-- Does something over and over, at most so many times; to go on after that is to run too long. -/
def repeatedly (action : RunM State Unit) (position : Position) : Nat → RunM State Unit
  | 0 => failAt .tooLong position
  | times + 1 => do
    action
    repeatedly action position times

/-- Does something, and something else if it goes wrong in a way that can be caught. Throwing nothing from
there throws again what was caught. -/
def attempt (action : RunM State Value) (handler : Value → RunM State Value) : RunM State Value :=
  fun memory =>
    match action memory with
    | .ok value later => .ok value later
    | .error fault later =>
      if !fault.cause.isCatchable then .error fault later
      else
        match handler fault.cause.caught later with
        | .error ⟨.thrown .unit, position⟩ later => .error { fault with position := position } later
        | outcome => outcome

end

/-! ## Expressions and statements -/

section

variable {State : Type} (host : Host State)

mutual

/-- Computes an expression. -/
def Expr.eval : Expr → RunM State Value
  | .literal value position => do
    tick position
    return value
  | .place space name position => do
    tick position
    lookUp host space name position
  | .call space start name position arguments => do
    tick position
    let values ← evalArguments arguments
    callFunction host space start name position values
  | .array items position => do
    tick position
    return .array (← evalAll items)
  | .item whole index position => do
    tick position
    -- the index is known before what it is an index of, and a literal one is no operation
    let place ← match index with
      | .literal value _ => pure value
      | index => index.eval
    let value ← whole.eval
    orFailAt (value.item place) index.start
  | .signed sign operand position => do
    tick position
    orFailAt ((← operand.eval).sign sign) position
  | .binary operator left right position => do
    tick position
    let value ← left.eval
    orFailAt (value.combine operator (← right.eval)) position
  | .both left right position => do
    tick position
    if ← truth (← left.eval) left.position then
      return .bool (← truth (← right.eval) right.position)
    return .bool false
  | .either left right position => do
    tick position
    if ← truth (← left.eval) left.position then return .bool true
    return .bool (← truth (← right.eval) right.position)
  | .statement statement position => do
    tick position
    statement.run

/-- Computes expressions, in order. -/
def evalAll : List Expr → RunM State (List Value)
  | [] => return []
  | expr :: rest => do
    let value ← expr.eval
    return value :: (← evalAll rest)

/-- Computes the arguments of a call, in order, except that a variable in the first place is looked up
last. -/
def evalArguments : List Expr → RunM State (List Value)
  | [] => return []
  | first :: rest =>
    match first with
    | .place [] name position => do
      let others ← evalAll rest
      let value ← lookUp host [] name position
      tick position
      return value :: others
    | first => do
      let value ← first.eval
      return value :: (← evalAll rest)

/-- Does a statement. -/
def Statement.run : Statement → RunM State Value
  | .compute expr => do
    -- a call is one operation, as a statement and as an expression
    if !expr.isCall then tick expr.start
    expr.eval
  | .declare name value position => do
    tick position
    declare name (← value.eval)
    return .unit
  | .assign space name position indexes adding value operator => do
    tick operator
    -- first the value, then the indexes, and the variable last
    let new ← value.eval
    let places := (← evalAll indexes).zip (indexes.map Expr.start)
    update host space name position <| Value.modifyItem (fun old =>
      if adding then (old.added new).mapError (⟨·, some operator⟩) else .ok new) places
    return .unit
  | .block body position => do
    tick position
    inScope (runAll body)
  | .branch condition yes no position => do
    tick position
    if ← truth (← condition.eval) condition.position then inScope (runAll yes)
    else inScope (runAll no)
  | .each name whole body inside position => do
    tick position
    match ← whole.eval with
    | .array items =>
      -- going round is an operation by itself where the body has none
      forEach (fun item => inScope do
        if body.isEmpty then tick inside
        declare name item
        let _ ← runAll body) items
      return .unit
    | _ => failAt .notIterable whole.start
  | .forever body inside position => do
    tick position
    -- every round is an operation at least, so the bound is out of reach before it is used up
    let left := mostOperations + 1 - (← get).operations
    repeatedly (do
      if body.isEmpty then tick inside
      let _ ← inScope (runAll body)) inside left
    return .unit
  | .raise value position => do
    tick position
    failAt (.thrown (← value.eval)) position
  | .attempt body name handler position => do
    tick position
    attempt (inScope (runAll body)) fun caught => inScope do
      if let some name := name then declare name caught
      runAll handler

/-- Does statements, in order. The value of the last is that of all. -/
def runAll : List Statement → RunM State Value
  | [] => return .unit
  | [last] => last.run
  | first :: rest => do
    let _ ← first.run
    runAll rest

end

end

/-- Runs the statements of a script on a host's state. -/
def run {State : Type} (host : Host State) (body : List Statement) (state : State) :
    State × Except Fault Unit :=
  match runAll host body ⟨state, [], 0⟩ with
  | .ok _ memory => (memory.state, .ok ())
  | .error fault memory => (memory.state, .error fault)

end CodeMarkup.Script
