import CodeMarkup.Rehearsal.Engine
import CodeMarkup.Render.Step

/-!
# Rehearsals

A rehearsal runs a studio on one thread, in an order that can be foretold, so that the meeting of renders
can be watched step by step.

Suppliers and engines may be **gated**: each fetch, or each load, then waits for a permit of its gate.
Permits are given out in the order in which tasks came to wait, and those that nobody waits for are kept.
A lock that is released goes straight to the task that has waited for it longest. A task that gets what
it waited for is **ready**; ready tasks run in that order, each until it has to wait again.

Besides the studio itself a rehearsal keeps an account: how often each language was fetched, and what
each engine was asked.
-/

namespace CodeMarkup

/-- What a task may have to wait at. -/
inductive Gate where
  /-- fetches of the language with this key -/
  | fetch (key : String)
  /-- loads of this engine -/
  | load (engine : Nat)
  deriving DecidableEq, Repr

/-- What an engine was asked. -/
inductive EngineEvent where
  /-- to load these names -/
  | load (names : List String)
  /-- and it did -/
  | loaded (names : List String)
  /-- and it did not -/
  | refused (names : List String)
  /-- to draw with this grammar -/
  | draw (grammar : String)
  deriving DecidableEq, Repr

/-- A task that can run. -/
structure Ready where
  /-- the task -/
  task : Nat
  /-- whether it holds a permit of the gate it is at -/
  admitted : Bool

/-- The studio of a rehearsal. -/
abbrev RehearsalStudio := Studio RehearsalEngine (List String)

/-- A rehearsal. -/
structure Rehearsal where
  /-- the studio -/
  studio : RehearsalStudio
  /-- the engines whose loads are gated -/
  gated : List Nat
  /-- the engines that refuse loads -/
  refusing : List Nat
  /-- the permits that nobody has taken, by gate -/
  permits : Gate → Nat
  /-- the tasks waiting at gates, first come first -/
  atGate : List (Gate × Nat)
  /-- the tasks waiting for locks, by station and name, first come first -/
  atLock : List ((Nat × String) × Nat)
  /-- the tasks that can run, in order -/
  ready : List Ready
  /-- how often each language was fetched, by key -/
  fetches : List (String × Nat)
  /-- what each engine was asked, in order -/
  events : List (Nat × EngineEvent)

namespace Rehearsal

/-! ## Looking at a task -/

/-- The stage of a task. -/
def stage? (rehearsal : Rehearsal) (task : Nat) : Option (Stage (List String)) :=
  (rehearsal.studio.tasks[task]?).map Task.stage

/-- The gate that a task is at. -/
def gate? (rehearsal : Rehearsal) (task : Nat) : Option Gate :=
  match rehearsal.stage? task with
  | some (.running _ (.fetching _ language)) =>
    match language.supplier with
    | some (.fixed _ false) => some (.fetch language.key)
    | _ => none
  | some (.running _ (.loading engine ..)) =>
    if engine ∈ rehearsal.gated then some (.load engine) else none
  | _ => none

/-- The lock that a task is to take, or to release. -/
def lock? (rehearsal : Rehearsal) (task : Nat) : Option (Nat × String) := do
  let state ← rehearsal.studio.tasks[task]?
  match state.stage with
  | .running _ (.queued _ resolution) => return (state.station, resolution.primary)
  | .running _ (.unlocking _ resolution _) => return (state.station, resolution.primary)
  | _ => none

/-- What a supplier answers. In a rehearsal there are no installed libraries. -/
def answerOf (language : Language) : Except FetchFault Bundle :=
  match language.supplier with
  | some (.fixed (.ok bundle) _) => .ok bundle
  | some (.fixed (.error text) _) => .error (.reported text)
  | _ => .error .noGrammars

/-- The action by which a task goes on. -/
def action (rehearsal : Rehearsal) (task : Nat) : Action Bool :=
  match rehearsal.stage? task with
  | some (.running _ (.fetching _ language)) => .answer task (answerOf language)
  | some (.running _ (.loading engine ..)) => .advance task (engine ∈ rehearsal.refusing)
  | _ => .advance task false

/-! ## The account -/

/-- Counts with one more for a key. -/
def countFetch (key : String) : List (String × Nat) → List (String × Nat)
  | [] => [(key, 1)]
  | (other, count) :: rest =>
    if other = key then (other, count + 1) :: rest else (other, count) :: countFetch key rest

/-- The account of a task's step, seen from the stages before and after it. -/
def note (rehearsal : Rehearsal) (before after : Stage (List String)) : Rehearsal :=
  let record (engine : Nat) (event : EngineEvent) :=
    { rehearsal with events := rehearsal.events ++ [(engine, event)] }
  match before, after with
  | .running _ .reading, .running _ (.fetching _ language) =>
    { rehearsal with fetches := countFetch language.key rehearsal.fetches }
  | .running _ (.starting ..), .running _ (.loading engine _ names) => record engine (.load names)
  | .running _ (.loading engine _ names), .running _ (.unlocking _ _ result) =>
    record engine (match result with
      | .ok () => .loaded names
      | .error _ => .refused names)
  | .running _ (.drawing engine resolution), .running _ (.drawn _ (.ok _)) =>
    record engine (.draw (renderName resolution.primary))
  | _, _ => rehearsal

/-! ## Running -/

/-- Has a task do an action, and puts it on account. Nothing happens if it cannot. -/
def perform (rehearsal : Rehearsal) (task : Nat) : Rehearsal :=
  match rehearsal.studio.step RehearsalEngine.model (rehearsal.action task) with
  | none => rehearsal
  | some studio =>
    let later := { rehearsal with studio := studio }
    match rehearsal.stage? task, later.stage? task with
    | some before, some after => later.note before after
    | _, _ => later

/-- The first value of a key in a list of pairs, and the list without it. -/
def takeFirst {α β : Type} [DecidableEq α] (key : α) : List (α × β) → Option (β × List (α × β))
  | [] => none
  | (other, value) :: rest =>
    if other = key then some (value, rest)
    else (takeFirst key rest).map fun (found, left) => (found, (other, value) :: left)

/-- Gives a released lock to the task that has waited for it longest. -/
def handOver (rehearsal : Rehearsal) (lock : Nat × String) : Rehearsal :=
  match takeFirst lock rehearsal.atLock with
  | none => rehearsal
  | some (task, waiting) =>
    let rehearsal := { rehearsal with atLock := waiting }.perform task
    { rehearsal with ready := rehearsal.ready ++ [⟨task, false⟩] }

/-- Whether a task is to release a lock. -/
def isUnlocking (rehearsal : Rehearsal) (task : Nat) : Bool :=
  match rehearsal.stage? task with
  | some (.running _ (.unlocking ..)) => true
  | _ => false

/-- Whether a lock is held. -/
def isHeld (rehearsal : Rehearsal) (lock : Nat × String) : Bool :=
  match rehearsal.studio.stations[lock.1]? with
  | some station => station.held.contains lock.2
  | none => false

/-- The rehearsal with the first ready task a step further, or waiting, or done. -/
def tick (rehearsal : Rehearsal) : Rehearsal :=
  match rehearsal.ready with
  | [] => rehearsal
  | ⟨task, admitted⟩ :: rest =>
    let goOn (rehearsal : Rehearsal) : Rehearsal :=
      { rehearsal with ready := ⟨task, false⟩ :: rest }.perform task
    match rehearsal.gate? task with
    | some gate =>
      if admitted then goOn rehearsal
      -- nobody lets the task through yet, so it queues
      else if rehearsal.permits gate = 0 then
        { rehearsal with ready := rest, atGate := rehearsal.atGate ++ [(gate, task)] }
      else goOn { rehearsal with
        permits := fun other => rehearsal.permits other - if other = gate then 1 else 0 }
    | none =>
      if (rehearsal.stage? task).all Stage.isEnded then { rehearsal with ready := rest }
      else
        match rehearsal.lock? task with
        | none => goOn rehearsal
        | some lock =>
          -- the next in line has the lock before anyone else can take it
          if rehearsal.isUnlocking task then (goOn rehearsal).handOver lock
          else if rehearsal.isHeld lock then
            { rehearsal with ready := rest, atLock := rehearsal.atLock ++ [(lock, task)] }
          else goOn rehearsal

/-- A number of ticks. -/
def ticks : Nat → Rehearsal → Rehearsal
  | 0, rehearsal => rehearsal
  | count + 1, rehearsal => ticks count rehearsal.tick

/-- No task needs more ticks than this from its call to its end. -/
def ticksPerTask : Nat := 24

/-- Runs ready tasks until there are none. -/
def settle (rehearsal : Rehearsal) : Rehearsal :=
  ticks (ticksPerTask * rehearsal.studio.tasks.length) rehearsal

/-! ## Orders -/

/-- What a rehearsal can be told to do. -/
inductive Order where
  /-- to ask something of a view -/
  | call (view : Nat) (call : ViewCall)
  /-- to ask a station for the drawing of a request -/
  | render (station : Nat) (request : Request)
  /-- to let some more tasks through a gate -/
  | release (gate : Gate) (permits : Nat)
  /-- to have an engine refuse loads, or not -/
  | refuse (engine : Nat) (on : Bool)
  /-- to wait -/
  | rest

/-- Makes a call, which runs at once. -/
def makeCall (rehearsal : Rehearsal) (action : Action Bool) : Rehearsal :=
  match rehearsal.studio.step RehearsalEngine.model action with
  | none => rehearsal
  | some studio =>
    { rehearsal with studio := studio
                     ready := rehearsal.ready ++ [⟨rehearsal.studio.tasks.length, false⟩] }

/-- Gives out permits of a gate to the tasks that wait at it, as long as there are any, and keeps the
others. -/
def release (gate : Gate) : Nat → Rehearsal → Rehearsal
  | 0, rehearsal => rehearsal
  | permits + 1, rehearsal =>
    match takeFirst gate rehearsal.atGate with
    | some (task, waiting) =>
      release gate permits
        { rehearsal with atGate := waiting, ready := rehearsal.ready ++ [⟨task, true⟩] }
    | none =>
      { rehearsal with
        permits := fun other => rehearsal.permits other + if other = gate then permits + 1 else 0 }

/-- Follows an order and settles. The events on account are those of the last order. -/
def follow (rehearsal : Rehearsal) (order : Order) : Rehearsal :=
  let rehearsal := { rehearsal with events := [] }
  settle <| match order with
    | .call view call => rehearsal.makeCall (.call view call)
    | .render station request => rehearsal.makeCall (.render station request)
    | .release gate permits => rehearsal.release gate permits
    | .refuse engine on =>
      let others := rehearsal.refusing.filter (· ≠ engine)
      { rehearsal with refusing := if on then engine :: others else others }
    | .rest => rehearsal

end Rehearsal

end CodeMarkup
