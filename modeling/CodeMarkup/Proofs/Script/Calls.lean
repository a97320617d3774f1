import CodeMarkup.Proofs.Script.Allowance

/-!
# Calls of the host's functions

A statement that calls a function of the host computes the arguments and makes the call. What comes of it is settled by the
host's state alone, as if the script began there, provided that the arguments call nothing but readers and that no variables
are there (`callResult?`). Only that the script runs too long can come in between, if fewer operations are left than the call
does (`callOperations`), and then, as in every other way in which such a statement can go wrong, the host is as it was.
-/

namespace CodeMarkup.Script

variable {State : Type} {host : Host State} {may : List String → String → Bool}

/-- The values of arguments that are computed first thing, if none of them goes wrong. -/
def valuesOf? (host : Host State) (state : State) (arguments : List Expr) : Option (List Value) :=
  match evalArguments host arguments ⟨state, [], 0⟩ with
  | .ok values _ => some values
  | .error .. => none

/-- The host's next state and the value that a call yields which is made first thing. There is none if an argument goes wrong,
if there is no such function, or if the function goes wrong. -/
def callResult? (host : Host State) (state : State) (name : String) (arguments : List Expr) : Option (State × Value) :=
  (valuesOf? host state arguments).bind fun values =>
    match host.call state name values with
    | some (.ok result) => some result
    | _ => none

/-- How many operations such a call does. The call is one as an expression and one as a call. -/
def callOperations (host : Host State) (state : State) (arguments : List Expr) : Nat :=
  (stateAfter (evalArguments host arguments ⟨state, [], 0⟩)).operations + 2

/-- A function of the host's own is called with the values of its arguments. -/
theorem callFunction_apply (start : Position) (name : String) (position : Position) (values : List Value)
    (memory : Memory State) :
    callFunction host [host.namespaceName] start name position values memory =
      if mostOperations < memory.operations + 1 then .error ⟨.tooLong, some position⟩ (memory.later 1)
      else match host.call memory.state name values with
        | none => .error ⟨.noFunction (qualified [host.namespaceName] name) (values.map Value.argumentKind), some position⟩
          (memory.later 1)
        | some (.error cause) => .error ⟨cause, none⟩ (memory.later 1)
        | some (.ok (state, value)) => .ok value { memory.later 1 with state := state } := by
  have htick := tick_apply position memory
  simp only [callFunction, ne_eq, not_true_eq_false, if_false, List.isEmpty_nil, if_true]
  split
  · rename_i hmost
    rw [if_pos hmost] at htick
    exact bind_apply_of_error htick _
  · rename_i hmost
    rw [if_neg hmost] at htick
    rw [bind_apply_of_ok htick, get_bind_apply]
    rcases h : host.call (memory.later 1).state name values with _ | _ | ⟨state, value⟩ <;>
      rw [show memory.state = (memory.later 1).state from rfl, h] <;> rfl

section

variable (hdeaf : host.Deaf) (hreads : ∀ space name, may space name → space = [host.namespaceName] → host.IsReader name)
  {arguments : List Expr} (hmay : allObey may Statement.endsWithBlock arguments) {state : State} {done : Nat}

include hdeaf hreads hmay

/-- Arguments that can be computed have the values that they have first thing. -/
theorem evalArguments_ok {values : List Value} {after : Memory State}
    (h : evalArguments host arguments ⟨state, [], done⟩ = .ok values after) :
    valuesOf? host state arguments = some values ∧
      after = ⟨state, [], (stateAfter (evalArguments host arguments ⟨state, [], 0⟩)).operations + done⟩ := by
  obtain ⟨hquiet, huniform⟩ := (uniformParts hdeaf hreads).evalArguments arguments hmay
  have halike := huniform ⟨state, [], 0⟩ done
  have hfollows := hquiet ⟨state, [], 0⟩
  rw [Memory.later, Nat.zero_add, h] at halike
  rcases halike with heq | ⟨⟨_, _, hlong⟩, -⟩
  · unfold valuesOf?
    rcases hfirst : evalArguments host arguments ⟨state, [], 0⟩ with ⟨first, between⟩ | _ <;> rw [hfirst] at heq hfollows <;>
      cases heq
    obtain ⟨next, scope, operations⟩ := between
    obtain rfl : next = state := hfollows.state
    obtain rfl : scope = [] := List.length_eq_zero_iff.mp (hfollows.ends rfl)
    exact ⟨rfl, rfl⟩
  · cases hlong

/-- Arguments that cannot be computed go wrong by themselves, or there are too few operations left for them. -/
theorem evalArguments_error {fault : Fault} {after : Memory State}
    (h : evalArguments host arguments ⟨state, [], done⟩ = .error fault after) :
    after.state = state ∧ (valuesOf? host state arguments = none ∨ fault.cause = .tooLong ∧
      mostOperations < (stateAfter (evalArguments host arguments ⟨state, [], 0⟩)).operations + done) := by
  obtain ⟨hquiet, huniform⟩ := (uniformParts hdeaf hreads).evalArguments arguments hmay
  have halike := huniform ⟨state, [], 0⟩ done
  have hfollows := hquiet ⟨state, [], done⟩
  rw [h] at hfollows
  rw [Memory.later, Nat.zero_add, h] at halike
  refine ⟨hfollows.state, halike.imp (fun heq => ?_) ?_⟩
  · unfold valuesOf?
    rcases hfirst : evalArguments host arguments ⟨state, [], 0⟩ with _ | _
    · rw [hfirst] at heq
      cases heq
    · rfl
  · rintro ⟨⟨_, _, hlong⟩, hmost⟩
    cases hlong
    exact ⟨rfl, hmost⟩

/-- **What a call of the host's own comes to.** It yields the host's next state and leaves no variables, or it goes wrong and
leaves the host as it was: because the call would go wrong by itself, or because too few operations were left for it. -/
theorem run_call (start : Position) (name : String) (position : Position) :
    (∃ next value, callResult? host state name arguments = some (next, value) ∧
      done + callOperations host state arguments ≤ mostOperations ∧
      (Statement.compute (.call [host.namespaceName] start name position arguments)).run host ⟨state, [], done⟩
        = .ok value ⟨next, [], done + callOperations host state arguments⟩) ∨
    ∃ fault after,
      (Statement.compute (.call [host.namespaceName] start name position arguments)).run host ⟨state, [], done⟩
        = .error fault after ∧ after.state = state ∧
      (callResult? host state name arguments = none ∨
        fault.cause = .tooLong ∧ mostOperations < done + callOperations host state arguments) := by
  have hrun : (Statement.compute (.call [host.namespaceName] start name position arguments)).run host =
      (do
        tick position
        let values ← evalArguments host arguments
        callFunction host [host.namespaceName] start name position values) := by
    rw [Statement.run, Expr.eval]
    rfl
  have htick : tick position ⟨state, [], done⟩ =
      if mostOperations < done + 1 then .error ⟨.tooLong, some position⟩ ⟨state, [], done + 1⟩
      else .ok () ⟨state, [], done + 1⟩ :=
    tick_apply position _
  rw [hrun, callOperations]
  by_cases hmost : mostOperations < done + 1
  · rw [if_pos hmost] at htick
    exact Or.inr ⟨_, _, bind_apply_of_error htick _, rfl, Or.inr ⟨rfl, by omega⟩⟩
  · rw [if_neg hmost] at htick
    rw [bind_apply_of_ok htick]
    rcases harguments : evalArguments host arguments ⟨state, [], done + 1⟩ with ⟨values, after⟩ | ⟨fault, after⟩
    · obtain ⟨hvalues, rfl⟩ := evalArguments_ok hdeaf hreads hmay harguments
      rw [bind_apply_of_ok harguments, callFunction_apply]
      simp only [callResult?, hvalues, Option.bind_some]
      generalize (stateAfter (evalArguments host arguments ⟨state, [], 0⟩)).operations = spent
      have htotal : spent + (done + 1) + 1 = done + (spent + 2) := by omega
      rw [htotal]
      by_cases hleast : mostOperations < done + (spent + 2)
      · rw [if_pos hleast]
        exact Or.inr ⟨_, _, rfl, rfl, Or.inr ⟨rfl, hleast⟩⟩
      · rw [if_neg hleast]
        rcases host.call state name values with _ | cause | ⟨next, value⟩
        · exact Or.inr ⟨_, _, rfl, rfl, Or.inl rfl⟩
        · exact Or.inr ⟨_, _, rfl, rfl, Or.inl rfl⟩
        · refine Or.inl ⟨next, value, rfl, Nat.le_of_not_lt hleast, ?_⟩
          rw [← htotal]
          rfl
    · obtain ⟨hstate, hfault⟩ := evalArguments_error hdeaf hreads hmay harguments
      refine Or.inr ⟨fault, after, bind_apply_of_error harguments _, hstate, hfault.imp (fun hvalues => ?_) ?_⟩
      · rw [callResult?, hvalues, Option.bind_none]
      · exact fun h => ⟨h.1, by omega⟩

end

/-! ## Statements one after the other -/

/-- What is left when statements were done, and whether they went wrong; their value is gone. -/
def ending : EStateM.Result Fault (Memory State) Value → Memory State × Except Fault Unit
  | .ok _ memory => (memory, .ok ())
  | .error fault memory => (memory, .error fault)

theorem run_eq_ending (body : List Statement) (state : State) :
    run host body state =
      ((ending (runAll host body ⟨state, [], 0⟩)).1.state, (ending (runAll host body ⟨state, [], 0⟩)).2) := by
  unfold run
  rcases runAll host body ⟨state, [], 0⟩ with _ | _ <;> rfl

variable {statement : Statement} {memory : Memory State}

theorem ending_runAll_cons_of_ok {value : Value} {between : Memory State}
    (h : statement.run host memory = .ok value between) (rest : List Statement) :
    ending (runAll host (statement :: rest) memory) = ending (runAll host rest between) := by
  cases rest with
  | nil => rw [runAll, runAll, h]; rfl
  | cons next rest =>
    rw [runAll, bind_apply_of_ok h]
    exact List.cons_ne_nil _ _

theorem ending_runAll_cons_of_error {fault : Fault} {after : Memory State}
    (h : statement.run host memory = .error fault after) (rest : List Statement) :
    ending (runAll host (statement :: rest) memory) = (after, .error fault) := by
  cases rest with
  | nil => rw [runAll, h]; rfl
  | cons next rest =>
    rw [runAll, bind_apply_of_error h]
    · rfl
    · exact List.cons_ne_nil _ _

end CodeMarkup.Script
