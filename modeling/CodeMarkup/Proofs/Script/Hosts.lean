import CodeMarkup.Proofs.Script.Quiet

/-!
# Scripts on different hosts

All that a script learns of its host is what the functions yield and whether they go wrong. So if the states of one host are
views of the states of another, and both hosts act alike on them (`Host.Shows`), a script does the same on both: it ends
alike, and leaves the view of the one state where it leaves the other (`run_of_shows`).

Two works are **alike** if, begun at a memory and at its view, they end alike and at a memory and its view. What the parts of
runs are alike in, runs are, by one induction over expressions and statements.
-/

namespace CodeMarkup.Script

variable {State Other : Type} {α β : Type}

/-- The states of a host, seen in some way, are states of another host, which acts on them as the first one does. -/
structure Host.Shows (host : Host State) (other : Host Other) (view : State → Other) : Prop where
  /-- the namespaces have the same name -/
  namespaceName : other.namespaceName = host.namespaceName
  /-- functions yield the same -/
  call (state : State) (name : String) (arguments : List Value) :
    other.call (view state) name arguments =
      (host.call state name arguments).map fun result => result.map fun (next, value) => (view next, value)
  /-- what is told is taken in the same way -/
  tell (state : State) (line : String) : other.tell (view state) line = view (host.tell state line)

/-- A memory with the state of the host seen in some way. -/
def Memory.seen (view : State → Other) (memory : Memory State) : Memory Other :=
  ⟨view memory.state, memory.scope, memory.operations⟩

/-- The end of work, seen in the same way. -/
def endSeen (view : State → Other) :
    EStateM.Result Fault (Memory State) α → EStateM.Result Fault (Memory Other) α
  | .ok value memory => .ok value (memory.seen view)
  | .error fault memory => .error fault (memory.seen view)

/-- Works that end alike, if they begin alike. -/
def Alike (view : State → Other) (work : RunM State α) (work' : RunM Other α) : Prop :=
  ∀ memory : Memory State, work' (memory.seen view) = endSeen view (work memory)

/-! ## The parts -/

variable {view : State → Other} {host : Host State} {other : Host Other}

theorem alike_pure (value : α) : Alike view (pure value) (pure value) :=
  fun _ => rfl

theorem alike_throw (fault : Fault) : Alike view (throw fault : RunM State α) (throw fault) :=
  fun _ => rfl

theorem alike_failAt (cause : Cause) (position : Position) :
    Alike view (failAt cause position : RunM State α) (failAt cause position) :=
  fun _ => rfl

theorem alike_declare (name : String) (value : Value) : Alike view (declare name value) (declare name value) :=
  fun _ => rfl

theorem Alike.bind {first : RunM State α} {first' : RunM Other α} {second : α → RunM State β}
    {second' : α → RunM Other β} (hfirst : Alike view first first')
    (hsecond : ∀ value, Alike view (second value) (second' value)) :
    Alike view (first >>= second) (first' >>= second') := by
  intro memory
  have hseen := hfirst memory
  rcases hend : first memory with ⟨value, between⟩ | ⟨fault, between⟩ <;> rw [hend] at hseen
  · rw [bind_apply_of_ok hend, bind_apply_of_ok hseen]
    exact hsecond value between
  · rw [bind_apply_of_error hend, bind_apply_of_error hseen]
    rfl

theorem alike_tick (position : Position) : Alike view (tick position) (tick position) := by
  intro memory
  have hoperations : (memory.seen view).operations = memory.operations := rfl
  rw [tick_apply, tick_apply, hoperations]
  split <;> rfl

theorem alike_orFailAt (result : Except Cause α) (position : Position) :
    Alike view (orFailAt result position) (orFailAt result position) := by
  cases result with
  | ok value => exact alike_pure value
  | error cause => exact alike_failAt cause position

theorem alike_truth (value : Value) (position : Position) : Alike view (truth value position) (truth value position) := by
  cases value with
  | bool value => exact alike_pure value
  | _ => exact alike_failAt _ _

theorem Alike.inScope {work : RunM State α} {work' : RunM Other α} (h : Alike view work work') :
    Alike view (inScope work) (inScope work') := by
  intro memory
  unfold CodeMarkup.Script.inScope
  rw [h memory]
  rcases work memory with _ | _ <;> rfl

theorem endSeen_rethrown (fault : Fault) (result : EStateM.Result Fault (Memory State) Value) :
    endSeen view (rethrown fault result) = rethrown fault (endSeen view result) := by
  rcases result with _ | ⟨⟨cause, position⟩, after⟩
  · rfl
  · cases cause with
    | thrown value => cases value <;> rfl
    | _ => rfl

theorem Alike.attempt {work : RunM State Value} {work' : RunM Other Value} {handler : Value → RunM State Value}
    {handler' : Value → RunM Other Value} (hwork : Alike view work work')
    (hhandler : ∀ value, Alike view (handler value) (handler' value)) :
    Alike view (attempt work handler) (attempt work' handler') := by
  intro memory
  rw [attempt_apply, attempt_apply, hwork memory]
  rcases work memory with ⟨value, between⟩ | ⟨fault, between⟩
  · rfl
  · simp only [endSeen]
    split
    · rfl
    · rw [hhandler fault.cause.caught between, ← endSeen_rethrown]
      rfl

theorem Alike.forEach {action : Value → RunM State Unit} {action' : Value → RunM Other Unit}
    (h : ∀ value, Alike view (action value) (action' value)) (values : List Value) :
    Alike view (forEach action values) (forEach action' values) := by
  induction values with
  | nil => exact alike_pure ()
  | cons value rest ih => exact (h value).bind fun _ => ih

theorem Alike.repeatedly {work : RunM State Unit} {work' : RunM Other Unit} (h : Alike view work work')
    (position : Position) (times : Nat) :
    Alike view (repeatedly work position times) (repeatedly work' position times) := by
  induction times with
  | zero => exact alike_failAt _ _
  | succ times ih => exact h.bind fun _ => ih

section

variable (hshows : host.Shows other view)

include hshows

theorem alike_lookUp (space : List String) (name : String) (position : Position) :
    Alike view (lookUp host space name position) (lookUp other space name position) := by
  intro memory
  rcases space with _ | ⟨root, inner⟩
  · simp only [lookUp, get_bind_apply, Memory.seen]
    cases memory.scope.lookup name <;> rfl
  · simp only [lookUp, hshows.namespaceName]
    split <;> rfl

theorem alike_update (space : List String) (name : String) (position : Position)
    (change : Value → Except Fault Value) :
    Alike view (update host space name position change) (update other space name position change) := by
  refine (alike_lookUp hshows space name position).bind fun old => (alike_tick position).bind fun _ => ?_
  cases change old with
  | error fault => exact alike_throw fault
  | ok new => exact fun _ => rfl

theorem alike_callFunction (space : List String) (start : Position) (name : String) (position : Position)
    (arguments : List Value) :
    Alike view (callFunction host space start name position arguments)
      (callFunction other space start name position arguments) := by
  rcases space with _ | ⟨root, inner⟩
  · refine (alike_tick position).bind fun _ memory => ?_
    split
    · rfl
    · split
      · have htold := hshows.tell memory.state (debugLine position arguments)
        exact congrArg (fun state : Other => (EStateM.Result.ok .unit ⟨state, memory.scope, memory.operations⟩ :
          EStateM.Result Fault (Memory Other) Value)) htold
      · rfl
  · simp only [callFunction, hshows.namespaceName]
    split
    · exact alike_failAt _ _
    · refine (alike_tick position).bind fun _ memory => ?_
      simp only [get_bind_apply, Memory.seen, hshows.call]
      split
      · rcases host.call memory.state name arguments with _ | _ | ⟨next, value⟩ <;> rfl
      · rfl

end

/-! ## Runs -/

theorem runAll_cons_cons (host : Host State) (first second : Statement) (rest : List Statement) :
    runAll host (first :: second :: rest) = (do
      let _ ← first.run host
      runAll host (second :: rest)) := by
  rw [runAll]
  exact List.cons_ne_nil _ _

mutual

theorem alike_eval (hshows : host.Shows other view) : (expr : Expr) → Alike view (expr.eval host) (expr.eval other)
  | .literal value position => by
    rw [Expr.eval, Expr.eval]
    exact (alike_tick position).bind fun _ => alike_pure value
  | .place space name position => by
    rw [Expr.eval, Expr.eval]
    exact (alike_tick position).bind fun _ => alike_lookUp hshows space name position
  | .call space start name position arguments => by
    rw [Expr.eval, Expr.eval]
    exact (alike_tick position).bind fun _ => (alike_evalArguments hshows arguments).bind fun values =>
      alike_callFunction hshows space start name position values
  | .array items position => by
    rw [Expr.eval, Expr.eval]
    exact (alike_tick position).bind fun _ => (alike_evalAll hshows items).bind fun _ => alike_pure _
  | .item whole index position => by
    have hindex := alike_eval hshows index
    have hitem (place : Value) : Alike view (do orFailAt ((← whole.eval host).item place) index.start)
        (do orFailAt ((← whole.eval other).item place) index.start) :=
      (alike_eval hshows whole).bind fun value => alike_orFailAt (value.item place) index.start
    rw [Expr.eval, Expr.eval]
    refine (alike_tick position).bind fun _ => ?_
    cases index with
    | literal value _ => exact (alike_pure value).bind hitem
    | _ => exact hindex.bind hitem
  | .signed sign operand position => by
    rw [Expr.eval, Expr.eval]
    exact (alike_tick position).bind fun _ => (alike_eval hshows operand).bind fun _ => alike_orFailAt _ _
  | .binary operator left right position => by
    rw [Expr.eval, Expr.eval]
    exact (alike_tick position).bind fun _ => (alike_eval hshows left).bind fun _ => (alike_eval hshows right).bind fun _ =>
      alike_orFailAt _ _
  | .both left right position => by
    rw [Expr.eval, Expr.eval]
    refine (alike_tick position).bind fun _ => (alike_eval hshows left).bind fun _ => (alike_truth _ _).bind fun holds => ?_
    cases holds with
    | true => exact (alike_eval hshows right).bind fun _ => (alike_truth _ _).bind fun _ => alike_pure _
    | false => exact alike_pure _
  | .either left right position => by
    rw [Expr.eval, Expr.eval]
    refine (alike_tick position).bind fun _ => (alike_eval hshows left).bind fun _ => (alike_truth _ _).bind fun holds => ?_
    cases holds with
    | true => exact alike_pure _
    | false => exact (alike_eval hshows right).bind fun _ => (alike_truth _ _).bind fun _ => alike_pure _
  | .statement statement position => by
    rw [Expr.eval, Expr.eval]
    exact (alike_tick position).bind fun _ => alike_statement hshows statement

theorem alike_evalAll (hshows : host.Shows other view) :
    (exprs : List Expr) → Alike view (evalAll host exprs) (evalAll other exprs)
  | [] => by
    rw [evalAll, evalAll]
    exact alike_pure []
  | expr :: rest => by
    rw [evalAll, evalAll]
    exact (alike_eval hshows expr).bind fun _ => (alike_evalAll hshows rest).bind fun _ => alike_pure _

theorem alike_evalArguments (hshows : host.Shows other view) : (arguments : List Expr) →
    Alike view (evalArguments host arguments) (evalArguments other arguments)
  | [] => by
    rw [evalArguments, evalArguments]
    exact alike_pure []
  | first :: rest => by
    have hfirst := alike_eval hshows first
    have hrest := alike_evalAll hshows rest
    have hvariable (name : String) (position : Position) := hrest.bind fun others =>
      (alike_lookUp hshows [] name position).bind fun value => (alike_tick position).bind fun _ =>
        alike_pure (value :: others)
    have hvalue := hfirst.bind fun value => hrest.bind fun others => alike_pure (value :: others)
    unfold evalArguments
    -- a variable in the first place is looked up last
    cases first with
    | place space name position =>
      cases space with
      | nil => exact hvariable name position
      | cons root inner => exact hvalue
    | _ => exact hvalue

theorem alike_statement (hshows : host.Shows other view) :
    (statement : Statement) → Alike view (statement.run host) (statement.run other)
  | .compute expr => by
    rw [Statement.run, Statement.run]
    split
    · exact (alike_tick expr.start).bind fun _ => alike_eval hshows expr
    · exact alike_eval hshows expr
  | .declare name value position => by
    rw [Statement.run, Statement.run]
    exact (alike_tick position).bind fun _ => (alike_eval hshows value).bind fun new =>
      (alike_declare name new).bind fun _ => alike_pure _
  | .assign space name position indexes adding value operator => by
    rw [Statement.run, Statement.run]
    exact (alike_tick operator).bind fun _ => (alike_eval hshows value).bind fun _ =>
      (alike_evalAll hshows indexes).bind fun _ =>
        (alike_update hshows space name position _).bind fun _ => alike_pure _
  | .block body position => by
    rw [Statement.run, Statement.run]
    exact (alike_tick position).bind fun _ => (alike_runAll hshows body).inScope
  | .branch condition yes no position => by
    rw [Statement.run, Statement.run]
    refine (alike_tick position).bind fun _ => (alike_eval hshows condition).bind fun _ =>
      (alike_truth _ _).bind fun holds => ?_
    cases holds with
    | true => exact (alike_runAll hshows yes).inScope
    | false => exact (alike_runAll hshows no).inScope
  | .each name whole body inside position => by
    have hround (item : Value) : Alike view (do declare name item; let _ ← runAll host body)
        (do declare name item; let _ ← runAll other body) :=
      (alike_declare name item).bind fun _ => (alike_runAll hshows body).bind fun _ => alike_pure ()
    rw [Statement.run, Statement.run]
    refine (alike_tick position).bind fun _ => (alike_eval hshows whole).bind fun items => ?_
    cases items with
    | array items =>
      refine (Alike.forEach (fun item => Alike.inScope ?_) items).bind fun _ => alike_pure _
      split
      · exact (alike_tick inside).bind fun _ => hround item
      · exact hround item
    | _ => exact alike_failAt _ _
  | .forever body inside position => by
    have hround := (alike_runAll hshows body).inScope.bind fun _ => alike_pure ()
    rw [Statement.run, Statement.run]
    refine (alike_tick position).bind fun _ memory => ?_
    refine ((Alike.repeatedly ?_ inside _).bind fun _ => alike_pure Value.unit) memory
    split
    · exact (alike_tick inside).bind fun _ => hround
    · exact hround
  | .raise value position => by
    rw [Statement.run, Statement.run]
    exact (alike_tick position).bind fun _ => (alike_eval hshows value).bind fun _ => alike_failAt _ _
  | .attempt body name handler position => by
    rw [Statement.run, Statement.run]
    refine (alike_tick position).bind fun _ => Alike.attempt (alike_runAll hshows body).inScope fun caught => Alike.inScope ?_
    cases name with
    | none => exact alike_runAll hshows handler
    | some name => exact (alike_declare name caught).bind fun _ => alike_runAll hshows handler

theorem alike_runAll (hshows : host.Shows other view) :
    (body : List Statement) → Alike view (runAll host body) (runAll other body)
  | [] => by
    rw [runAll, runAll]
    exact alike_pure _
  | [last] => by
    rw [runAll, runAll]
    exact alike_statement hshows last
  | first :: second :: rest => by
    have hrest := alike_runAll hshows (second :: rest)
    rw [runAll_cons_cons, runAll_cons_cons]
    exact (alike_statement hshows first).bind fun _ => hrest

end

/-- **A script does the same on hosts of which one shows the states of the other.** -/
theorem run_of_shows (hshows : host.Shows other view) (body : List Statement) (state : State) :
    run other body (view state) = (run host body state).map view id := by
  have hseen := alike_runAll hshows body ⟨state, [], 0⟩
  unfold run
  rw [show (⟨view state, [], 0⟩ : Memory Other) = Memory.seen view ⟨state, [], 0⟩ from rfl, hseen]
  rcases runAll host body ⟨state, [], 0⟩ with _ | _ <;> rfl

end CodeMarkup.Script
