import CodeMarkup.Script.Run

/-!
# The parts of a run

Running an expression or a statement is work put together from a few kinds of parts: operations are counted, variables are
looked up, made and changed, functions are called, faults are thrown and caught. What holds of these parts, and of work in
which one part follows another, holds of every run. `Parts` says what has to be shown of the parts, and `Parts.eval` and
`Parts.run` are the one induction over expressions and statements that makes use of it.

There are two properties rather than one, because a statement may do what an expression may not: it may leave a variable
behind. What holds of expressions is **tight**, and what holds of all work of a script is **loose**. Work whose variables
end with it is tight as soon as it is loose, and so a statement that ends with a block is tight again; only such statements may
stand in expressions here, and in a script that reads no others do. A third property says of work that it is **busy**: expressions and statements are, since each begins
with an operation of its own, and so are the rounds of a loop, which is all that ends some loops.
-/

namespace CodeMarkup.Script

/-! ## What a script may call -/

mutual

/-- Whether an expression calls only functions that may be called, and has only such statements in it as may be there. -/
def Expr.obeys (may : List String → String → Bool) (inner : Statement → Bool) : Expr → Bool
  | .literal .. | .place .. => true
  | .call space _ name _ arguments => may space name && allObey may inner arguments
  | .array items _ => allObey may inner items
  | .item whole index _ => whole.obeys may inner && index.obeys may inner
  | .signed _ operand _ => operand.obeys may inner
  | .binary _ left right _ => left.obeys may inner && right.obeys may inner
  | .both left right _ => left.obeys may inner && right.obeys may inner
  | .either left right _ => left.obeys may inner && right.obeys may inner
  | .statement statement _ => inner statement && statement.obeys may inner

/-- Whether all of several expressions do. -/
def allObey (may : List String → String → Bool) (inner : Statement → Bool) : List Expr → Bool
  | [] => true
  | expr :: rest => expr.obeys may inner && allObey may inner rest

/-- Whether a statement does. -/
def Statement.obeys (may : List String → String → Bool) (inner : Statement → Bool) : Statement → Bool
  | .compute expr => expr.obeys may inner
  | .declare _ value _ => value.obeys may inner
  | .assign _ _ _ indexes _ value _ => allObey may inner indexes && value.obeys may inner
  | .block body _ => bodyObeys may inner body
  | .branch condition yes no _ => condition.obeys may inner && bodyObeys may inner yes && bodyObeys may inner no
  | .each _ whole body _ _ => whole.obeys may inner && bodyObeys may inner body
  | .forever body _ _ => bodyObeys may inner body
  | .raise value _ => value.obeys may inner
  | .attempt body _ handler _ => bodyObeys may inner body && bodyObeys may inner handler

/-- Whether all of several statements do. -/
def bodyObeys (may : List String → String → Bool) (inner : Statement → Bool) : List Statement → Bool
  | [] => true
  | statement :: rest => statement.obeys may inner && bodyObeys may inner rest

end

/-- Whether expressions call only functions that may be called, whatever statements are in them. -/
abbrev allCallOnly (may : List String → String → Bool) (exprs : List Expr) : Bool := allObey may (fun _ => true) exprs

/-! ## What holds of the parts -/

variable {State : Type} {host : Host State} {may : List String → String → Bool}
  {tight loose busy : ∀ {α : Type}, RunM State α → Prop}

/-- What has to be shown of the parts of runs, for properties to hold of all expressions and statements that call only what
may be called, if each statement in an expression ends with a block. -/
structure Parts (host : Host State) (may : List String → String → Bool)
    (tight loose busy : ∀ {α : Type}, RunM State α → Prop) : Prop where
  /-- what holds of expressions holds of all work -/
  loosen {α : Type} {work : RunM State α} : tight work → loose work
  /-- a result by itself -/
  pure {α : Type} (value : α) : tight (pure value : RunM State α)
  /-- one thing after another -/
  bind {α β : Type} {first : RunM State α} {second : α → RunM State β} :
    tight first → (∀ value, tight (second value)) → tight (first >>= second)
  /-- one thing after another, of which some may leave variables -/
  bindLoose {α β : Type} {first : RunM State α} {second : α → RunM State β} :
    loose first → (∀ value, loose (second value)) → loose (first >>= second)
  /-- something after busy work -/
  bindBusy {α β : Type} {first : RunM State α} {second : α → RunM State β} :
    busy first → (∀ value, loose (second value)) → busy (first >>= second)
  /-- an operation -/
  tick (position : Position) : tight (tick position : RunM State Unit)
  /-- an operation is done -/
  tickBusy (position : Position) : busy (CodeMarkup.Script.tick position : RunM State Unit)
  /-- a fault -/
  failAt {α : Type} (cause : Cause) (position : Position) : tight (failAt cause position : RunM State α)
  /-- a look at a variable -/
  lookUp (space : List String) (name : String) (position : Position) : tight (lookUp host space name position)
  /-- a change of a variable -/
  update (space : List String) (name : String) (position : Position) (change : Value → Except Fault Value) :
    tight (update host space name position change)
  /-- a call -/
  call {space : List String} {name : String} (start position : Position) (arguments : List Value) :
    may space name → tight (callFunction host space start name position arguments)
  /-- a new variable -/
  declare (name : String) (value : Value) : loose (declare name value : RunM State Unit)
  /-- work whose variables end with it -/
  inScope {α : Type} {work : RunM State α} : loose work → tight (inScope work)
  /-- busy work whose variables end with it -/
  inScopeBusy {α : Type} {work : RunM State α} : busy work → busy (CodeMarkup.Script.inScope work)
  /-- work whose faults are caught -/
  attempt {work : RunM State Value} {handler : Value → RunM State Value} :
    tight work → (∀ value, tight (handler value)) → tight (attempt work handler)
  /-- rounds without end -/
  rounds {work : RunM State Unit} (position : Position) : tight work → busy work →
    tight (do
      let left := mostOperations + 1 - (← get).operations
      repeatedly work position left
      return .unit : RunM State Value)

namespace Parts

variable (parts : Parts host may tight loose busy)

include parts

theorem orFailAt {α : Type} (result : Except Cause α) (position : Position) :
    tight (orFailAt result position : RunM State α) := by
  cases result with
  | ok value => exact parts.pure value
  | error cause => exact parts.failAt cause position

theorem truth (value : Value) (position : Position) : tight (truth value position : RunM State Bool) := by
  unfold CodeMarkup.Script.truth
  split
  · exact parts.pure _
  · exact parts.failAt _ _

theorem forEach {action : Value → RunM State Unit} (h : ∀ value, tight (action value)) (values : List Value) :
    tight (forEach action values) := by
  induction values with
  | nil => exact parts.pure ()
  | cons value rest ih => exact parts.bind (h value) fun _ => ih

/-- What begins with an operation is busy. -/
theorem ticked {α : Type} (position : Position) {work : RunM State α} (h : tight work) :
    tight (do CodeMarkup.Script.tick position; work) ∧ busy (do CodeMarkup.Script.tick position; work) :=
  ⟨parts.bind (parts.tick position) fun _ => h, parts.bindBusy (parts.tickBusy position) fun _ => parts.loosen h⟩

/-- What a statement with a block has to show. -/
theorem block {α : Type} {work : RunM State α} {ends : Bool} (h : tight work ∧ busy work) :
    loose work ∧ busy work ∧ (ends → tight work) :=
  ⟨parts.loosen h.1, h.2, fun _ => h.1⟩

/-! ## What holds of runs -/

mutual

theorem eval : (expr : Expr) → expr.obeys may Statement.endsWithBlock → tight (expr.eval host) ∧ busy (expr.eval host)
  | .literal value position, _ => by
    rw [Expr.eval]
    exact parts.ticked position (parts.pure value)
  | .place space name position, _ => by
    rw [Expr.eval]
    exact parts.ticked position (parts.lookUp space name position)
  | .call space start name position arguments, h => by
    rw [Expr.obeys, Bool.and_eq_true] at h
    rw [Expr.eval]
    exact parts.ticked position (parts.bind (evalArguments arguments h.2) fun values => parts.call start position values h.1)
  | .array items position, h => by
    rw [Expr.obeys] at h
    rw [Expr.eval]
    exact parts.ticked position (parts.bind (evalAll items h) fun _ => parts.pure _)
  | .item whole index position, h => by
    rw [Expr.obeys, Bool.and_eq_true] at h
    have hindex := (eval index h.2).1
    have hitem (place : Value) := parts.bind (eval whole h.1).1 fun value =>
      parts.orFailAt (value.item place) index.start
    rw [Expr.eval]
    refine parts.ticked position ?_
    split
    · exact parts.bind (parts.pure _) hitem
    · exact parts.bind hindex hitem
  | .signed sign operand position, h => by
    rw [Expr.obeys] at h
    rw [Expr.eval]
    exact parts.ticked position (parts.bind (eval operand h).1 fun _ => parts.orFailAt _ _)
  | .binary operator left right position, h => by
    rw [Expr.obeys, Bool.and_eq_true] at h
    rw [Expr.eval]
    exact parts.ticked position (parts.bind (eval left h.1).1 fun _ => parts.bind (eval right h.2).1 fun _ =>
      parts.orFailAt _ _)
  | .both left right position, h => by
    rw [Expr.obeys, Bool.and_eq_true] at h
    rw [Expr.eval]
    refine parts.ticked position (parts.bind (eval left h.1).1 fun _ => parts.bind (parts.truth _ _) fun holds => ?_)
    split
    · exact parts.bind (eval right h.2).1 fun _ => parts.bind (parts.truth _ _) fun _ => parts.pure _
    · exact parts.pure _
  | .either left right position, h => by
    rw [Expr.obeys, Bool.and_eq_true] at h
    rw [Expr.eval]
    refine parts.ticked position (parts.bind (eval left h.1).1 fun _ => parts.bind (parts.truth _ _) fun holds => ?_)
    split
    · exact parts.pure _
    · exact parts.bind (eval right h.2).1 fun _ => parts.bind (parts.truth _ _) fun _ => parts.pure _
  | .statement statement position, h => by
    rw [Expr.obeys, Bool.and_eq_true] at h
    rw [Expr.eval]
    exact parts.ticked position ((run statement h.2).2.2 h.1)

theorem evalAll : (exprs : List Expr) → allObey may Statement.endsWithBlock exprs → tight (evalAll host exprs)
  | [], _ => by
    rw [CodeMarkup.Script.evalAll]
    exact parts.pure []
  | expr :: rest, h => by
    rw [allObey, Bool.and_eq_true] at h
    rw [CodeMarkup.Script.evalAll]
    exact parts.bind (eval expr h.1).1 fun _ => parts.bind (evalAll rest h.2) fun _ => parts.pure _

theorem evalArguments : (arguments : List Expr) → allObey may Statement.endsWithBlock arguments →
    tight (evalArguments host arguments)
  | [], _ => by
    rw [CodeMarkup.Script.evalArguments]
    exact parts.pure []
  | first :: rest, h => by
    rw [allObey, Bool.and_eq_true] at h
    have hfirst := (eval first h.1).1
    have hrest := evalAll rest h.2
    unfold CodeMarkup.Script.evalArguments
    split
    · exact parts.bind hrest fun _ => parts.bind (parts.lookUp _ _ _) fun _ =>
        parts.bind (parts.tick _) fun _ => parts.pure _
    · exact parts.bind hfirst fun _ => parts.bind hrest fun _ => parts.pure _

theorem run : (statement : Statement) → statement.obeys may Statement.endsWithBlock →
    loose (statement.run host) ∧ busy (statement.run host) ∧ (statement.endsWithBlock → tight (statement.run host))
  | .compute expr, h => by
    rw [Statement.obeys] at h
    obtain ⟨htight, hbusy⟩ := eval expr h
    rw [Statement.run]
    split
    · have hticked := parts.ticked expr.start htight
      exact ⟨parts.loosen hticked.1, hticked.2, nofun⟩
    · exact ⟨parts.loosen htight, hbusy, nofun⟩
  | .declare name value position, h => by
    rw [Statement.obeys] at h
    have hdeclare := parts.bindLoose (parts.loosen (eval value h).1) fun new =>
      parts.bindLoose (parts.declare name new) fun _ => parts.loosen (parts.pure Value.unit)
    rw [Statement.run]
    exact ⟨parts.bindLoose (parts.loosen (parts.tick position)) fun _ => hdeclare,
      parts.bindBusy (parts.tickBusy position) fun _ => hdeclare, nofun⟩
  | .assign space name position indexes adding value operator, h => by
    rw [Statement.obeys, Bool.and_eq_true] at h
    rw [Statement.run]
    have hassign := parts.ticked operator (parts.bind (eval value h.2).1 fun new =>
      parts.bind (evalAll indexes h.1) fun places => parts.bind (parts.update space name position
        (Value.modifyItem (fun old => if adding then (old.added new).mapError (⟨·, some operator⟩) else .ok new)
          (places.zip (indexes.map Expr.start)))) fun _ => parts.pure Value.unit)
    exact ⟨parts.loosen hassign.1, hassign.2, nofun⟩
  | .block body position, h => by
    rw [Statement.obeys] at h
    rw [Statement.run]
    exact parts.block (parts.ticked position (parts.inScope (runAll body h).1))
  | .branch condition yes no position, h => by
    rw [Statement.obeys, Bool.and_eq_true, Bool.and_eq_true] at h
    have hyes := (runAll yes h.1.2).1
    have hno := (runAll no h.2).1
    rw [Statement.run]
    refine parts.block (parts.ticked position (parts.bind (eval condition h.1.1).1 fun _ =>
      parts.bind (parts.truth _ _) fun holds => ?_))
    split
    · exact parts.inScope hyes
    · exact parts.inScope hno
  | .each name whole body inside position, h => by
    rw [Statement.obeys, Bool.and_eq_true] at h
    have hbody := (runAll body h.2).1
    rw [Statement.run]
    refine parts.block (parts.ticked position (parts.bind (eval whole h.1).1 fun items => ?_))
    split
    · refine parts.bind (parts.forEach (fun item => parts.inScope ?_) _) fun _ => parts.pure _
      have hround := parts.bindLoose (parts.declare name item) fun _ =>
        parts.bindLoose hbody fun _ => parts.loosen (parts.pure ())
      split
      · exact parts.bindLoose (parts.loosen (parts.tick inside)) fun _ => hround
      · exact hround
    · exact parts.failAt _ _
  | .forever body inside position, h => by
    rw [Statement.obeys] at h
    obtain ⟨hbody, hbusy⟩ := runAll body h
    have hround := parts.bind (parts.inScope hbody) fun _ => parts.pure ()
    rw [Statement.run]
    refine parts.block (parts.ticked position (parts.rounds inside ?_ ?_)) <;> split
    · exact (parts.ticked inside hround).1
    · exact hround
    · exact (parts.ticked inside hround).2
    · rename_i hempty
      exact parts.bindBusy (parts.inScopeBusy (hbusy (Bool.not_eq_true _ ▸ hempty))) fun _ => parts.loosen (parts.pure ())
  | .raise value position, h => by
    rw [Statement.obeys] at h
    rw [Statement.run]
    have hraise := parts.ticked position (parts.bind (eval value h).1 fun thrown =>
      parts.failAt (α := Value) (.thrown thrown) position)
    exact ⟨parts.loosen hraise.1, hraise.2, nofun⟩
  | .attempt body name handler position, h => by
    rw [Statement.obeys, Bool.and_eq_true] at h
    have hhandler := (runAll handler h.2).1
    rw [Statement.run]
    refine parts.block (parts.ticked position
      (parts.attempt (parts.inScope (runAll body h.1).1) fun caught => parts.inScope ?_))
    split
    · exact parts.bindLoose (parts.declare _ caught) fun _ => hhandler
    · exact hhandler

theorem runAll : (body : List Statement) → bodyObeys may Statement.endsWithBlock body →
    loose (runAll host body) ∧ (body.isEmpty = false → busy (runAll host body))
  | [], _ => by
    rw [CodeMarkup.Script.runAll]
    exact ⟨parts.loosen (parts.pure _), nofun⟩
  | [last], h => by
    rw [bodyObeys, Bool.and_eq_true] at h
    rw [CodeMarkup.Script.runAll]
    exact ⟨(run last h.1).1, fun _ => (run last h.1).2.1⟩
  | first :: second :: rest, h => by
    rw [bodyObeys, Bool.and_eq_true] at h
    have hrest := (runAll (second :: rest) h.2).1
    rw [CodeMarkup.Script.runAll]
    · exact ⟨parts.bindLoose (run first h.1).1 fun _ => hrest,
        fun _ => parts.bindBusy (run first h.1).2.1 fun _ => hrest⟩
    · exact List.cons_ne_nil _ _

end

end Parts

end CodeMarkup.Script
