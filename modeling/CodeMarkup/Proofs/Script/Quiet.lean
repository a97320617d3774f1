import CodeMarkup.Proofs.Script.Parts
import CodeMarkup.Proofs.Work

/-!
# Quiet work

A script changes its host only by calling functions of it, or by what it tells it, which a **deaf** host takes no notice of.
So on a deaf host, work that calls none but **readers**, which leave the host as it is, is quiet: the host is the same
afterwards, however the work ends. What else it leaves behind is operations that were done, and, if it is not in a block of
its own, variables.
-/

namespace CodeMarkup.Script

variable {State : Type} {α β : Type} {host : Host State} {may : List String → String → Bool}

/-- A function that leaves the host as it is, as far as it yields a value at all. -/
def Host.IsReader (host : Host State) (name : String) : Prop :=
  ∀ ⦃state arguments next value⦄, host.call state name arguments = some (.ok (next, value)) → next = state

/-- A host that is not changed by anything it is told. -/
def Host.Deaf (host : Host State) : Prop :=
  ∀ state line, host.tell state line = state

/-- What quiet work makes of a memory; `declares` says whether it may leave variables behind. -/
structure Memory.Follows (declares : Bool) (before after : Memory State) : Prop where
  /-- the host is the same -/
  state : after.state = before.state
  /-- no variable is lost -/
  scope : before.scope.length ≤ after.scope.length
  /-- there are no new ones -/
  ends : declares = false → after.scope.length = before.scope.length
  /-- operations are not undone -/
  operations : before.operations ≤ after.operations

/-- Work that changes nothing but variables and the number of operations, however it ends. -/
def Quiet (declares : Bool) (work : RunM State α) : Prop :=
  ∀ memory : Memory State, memory.Follows declares (stateAfter (work memory))

/-- A memory in which more operations were done. -/
def Memory.later (memory : Memory State) (count : Nat) : Memory State :=
  { memory with operations := memory.operations + count }

theorem tick_apply (position : Position) (memory : Memory State) :
    tick position memory =
      if mostOperations < memory.operations + 1 then .error ⟨.tooLong, some position⟩ (memory.later 1)
      else .ok () (memory.later 1) := by
  have h : tick position memory =
      (if mostOperations < memory.operations + 1 then failAt .tooLong position else pure () : RunM State Unit)
        (memory.later 1) :=
    rfl
  rw [h]
  split <;> rfl

/-! ## The parts -/

variable {declares : Bool}

theorem Memory.Follows.rfl (memory : Memory State) : memory.Follows declares memory :=
  ⟨Eq.refl _, Nat.le_refl _, fun _ => Eq.refl _, Nat.le_refl _⟩

theorem Memory.Follows.trans {before between after : Memory State} (h : before.Follows declares between)
    (h' : between.Follows declares after) : before.Follows declares after where
  state := h'.state.trans h.state
  scope := Nat.le_trans h.scope h'.scope
  ends hdeclares := (h'.ends hdeclares).trans (h.ends hdeclares)
  operations := Nat.le_trans h.operations h'.operations

theorem Quiet.loosen {work : RunM State α} (h : Quiet false work) : Quiet true work :=
  fun memory => ⟨(h memory).state, (h memory).scope, nofun, (h memory).operations⟩

theorem Quiet.bind {first : RunM State α} {second : α → RunM State β} (hfirst : Quiet declares first)
    (hsecond : ∀ value, Quiet declares (second value)) : Quiet declares (first >>= second) := by
  intro memory
  have hmemory := hfirst memory
  rcases h : first memory with ⟨value, between⟩ | ⟨fault, between⟩
  · rw [h] at hmemory
    rw [bind_apply_of_ok h]
    exact hmemory.trans (hsecond value between)
  · rw [h] at hmemory
    rw [bind_apply_of_error h]
    exact hmemory

theorem quiet_pure (value : α) : Quiet declares (pure value : RunM State α) :=
  fun memory => .rfl memory

theorem quiet_failAt (cause : Cause) (position : Position) :
    Quiet declares (failAt cause position : RunM State α) :=
  fun memory => .rfl memory

theorem quiet_tick (position : Position) : Quiet declares (tick position : RunM State Unit) := by
  intro memory
  have hafter : stateAfter (tick position memory) = memory.later 1 := by
    rw [tick_apply]
    split <;> rfl
  rw [hafter]
  exact ⟨rfl, Nat.le_refl _, fun _ => rfl, Nat.le_succ _⟩

theorem quiet_lookUp (space : List String) (name : String) (position : Position) :
    Quiet declares (lookUp host space name position) := by
  intro memory
  rcases space with _ | ⟨root, inner⟩
  · simp only [lookUp, get_bind_apply]
    cases memory.scope.lookup name <;> exact .rfl memory
  · simp only [lookUp]
    split <;> exact .rfl memory

theorem length_assignIn? {name : String} {value : Value} {scope changed : List (String × Value)}
    (h : assignIn? name value scope = some changed) : changed.length = scope.length := by
  induction scope generalizing changed with
  | nil => cases h
  | cons entry rest ih =>
    obtain ⟨other, old⟩ := entry
    rw [assignIn?] at h
    split at h
    · cases h
      rfl
    · obtain ⟨inner, hinner, rfl⟩ := Option.map_eq_some_iff.mp h
      rw [List.length_cons, List.length_cons, ih hinner]

theorem length_getD_assignIn? (name : String) (value : Value) (scope : List (String × Value)) :
    ((assignIn? name value scope).getD scope).length = scope.length := by
  rcases h : assignIn? name value scope with _ | changed
  · rfl
  · exact length_assignIn? h

theorem quiet_update (space : List String) (name : String) (position : Position)
    (change : Value → Except Fault Value) : Quiet declares (update host space name position change) := by
  refine (quiet_lookUp space name position).bind fun old => (quiet_tick position).bind fun _ => ?_
  split
  · exact fun memory => .rfl memory
  · rename_i new _
    intro memory
    have hlength := length_getD_assignIn? name new memory.scope
    exact ⟨rfl, Nat.le_of_eq hlength.symm, fun _ => hlength, Nat.le_refl _⟩

theorem quiet_callFunction (hdeaf : host.Deaf) {space : List String} {name : String}
    (h : space = [host.namespaceName] → host.IsReader name) (start position : Position) (arguments : List Value) :
    Quiet declares (callFunction host space start name position arguments) := by
  rcases space with _ | ⟨root, inner⟩
  · refine (quiet_tick position).bind fun _ => ?_
    split
    · exact quiet_pure _
    · split
      · exact fun memory => ⟨hdeaf _ _, Nat.le_refl _, fun _ => rfl, Nat.le_refl _⟩
      · exact quiet_failAt _ _
  · simp only [callFunction]
    split
    · exact quiet_failAt _ _
    · rename_i hroot
      refine (quiet_tick position).bind fun _ memory => ?_
      simp only [get_bind_apply]
      rcases hcall : if inner.isEmpty then host.call memory.state name arguments else none with
        _ | cause | ⟨next, value⟩
      · exact quiet_failAt _ _ memory
      · exact .rfl memory
      · split at hcall
        · rename_i hinner
          obtain rfl : root = host.namespaceName := Decidable.not_not.mp hroot
          obtain rfl := List.isEmpty_iff.mp hinner
          exact ⟨h rfl hcall, Nat.le_refl _, fun _ => rfl, Nat.le_refl _⟩
        · cases hcall

theorem Quiet.inScope {work : RunM State α} (h : Quiet true work) : Quiet false (inScope work) := by
  intro memory
  have hmemory := h memory
  have hlength (after : Memory State) (hscope : memory.scope.length ≤ after.scope.length) :
      (after.scope.drop (after.scope.length - memory.scope.length)).length = memory.scope.length := by
    rw [List.length_drop, Nat.sub_sub_self hscope]
  unfold CodeMarkup.Script.inScope
  rcases hwork : work memory with ⟨_, after⟩ | ⟨_, after⟩ <;> rw [hwork] at hmemory <;>
    exact ⟨hmemory.state, Nat.le_of_eq (hlength after hmemory.scope).symm,
      fun _ => hlength after hmemory.scope, hmemory.operations⟩

/-- What becomes of a handler's end: throwing nothing throws again what was caught. -/
def rethrown (fault : Fault) : EStateM.Result Fault (Memory State) Value → EStateM.Result Fault (Memory State) Value
  | .error ⟨.thrown .unit, position⟩ later => .error { fault with position := position } later
  | outcome => outcome

theorem attempt_apply (work : RunM State Value) (handler : Value → RunM State Value) (memory : Memory State) :
    attempt work handler memory =
      match work memory with
      | .ok value later => .ok value later
      | .error fault later =>
        if !fault.cause.isCatchable then .error fault later
        else rethrown fault (handler fault.cause.caught later) :=
  rfl

theorem stateAfter_rethrown (fault : Fault) (result : EStateM.Result Fault (Memory State) Value) :
    stateAfter (rethrown fault result) = stateAfter result := by
  unfold rethrown
  split <;> rfl

theorem Quiet.attempt {work : RunM State Value} {handler : Value → RunM State Value} (hwork : Quiet declares work)
    (hhandler : ∀ value, Quiet declares (handler value)) : Quiet declares (attempt work handler) := by
  intro memory
  have hmemory := hwork memory
  rw [attempt_apply]
  rcases hend : work memory with _ | ⟨fault, between⟩ <;> rw [hend] at hmemory
  · exact hmemory
  · simp only
    split
    · exact hmemory
    · rw [stateAfter_rethrown]
      exact hmemory.trans (hhandler fault.cause.caught between)

theorem Quiet.repeatedly {work : RunM State Unit} (h : Quiet declares work) (position : Position) (times : Nat) :
    Quiet declares (repeatedly work position times) := by
  induction times with
  | zero => exact quiet_failAt _ _
  | succ times ih => exact h.bind fun _ => ih

/-- **Work of a script that calls only readers of a deaf host leaves the host as it is.** -/
theorem quietParts (hdeaf : host.Deaf)
    (h : ∀ space name, may space name → space = [host.namespaceName] → host.IsReader name) :
    Parts host may (Quiet false) (Quiet true) (fun _ => True) where
  loosen := Quiet.loosen
  pure := quiet_pure
  bind := Quiet.bind
  bindLoose := Quiet.bind
  bindBusy _ _ := trivial
  tick := quiet_tick
  tickBusy _ := trivial
  failAt := quiet_failAt
  lookUp := quiet_lookUp
  update := quiet_update
  call start position arguments hmay := quiet_callFunction hdeaf (h _ _ hmay) start position arguments
  declare _ _ _ := ⟨rfl, Nat.le_succ _, nofun, Nat.le_refl _⟩
  inScope := Quiet.inScope
  inScopeBusy _ := trivial
  attempt := Quiet.attempt
  rounds position hwork _ memory := ((hwork.repeatedly position _).bind fun _ => quiet_pure _) memory

end CodeMarkup.Script
