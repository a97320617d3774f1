import CodeMarkup.Proofs.Script.Quiet

/-!
# Operations to spare

Nothing in a script can find out how many operations were done before it, except by being stopped: from a memory in which
more were done, work ends as it does with fewer, unless there are too few operations left for it (`Uniform`). That a script
ran too long cannot be caught, so this holds of whole runs.

An endless loop is given a bound on its rounds that depends on how many operations were done. As every round does one at
least, the bound is out of reach as long as there are operations left, and so it is nothing to find out anything by either.
-/

namespace CodeMarkup.Script

variable {State : Type} {α β : Type} {host : Host State} {may : List String → String → Bool}

/-! ## Two memories -/

/-- How work ends if more operations were done before it. -/
def endLater (count : Nat) : EStateM.Result Fault (Memory State) α → EStateM.Result Fault (Memory State) α
  | .ok value memory => .ok value (memory.later count)
  | .error fault memory => .error fault (memory.later count)

/-- Work was stopped for running too long. -/
def RanTooLong (result : EStateM.Result Fault (Memory State) α) : Prop :=
  ∃ position memory, result = .error ⟨.tooLong, position⟩ memory

/-- Work that had more operations behind it ended like work that had fewer, or was stopped because too few were left. -/
def EndsAlike (count : Nat) (early late : EStateM.Result Fault (Memory State) α) : Prop :=
  late = endLater count early ∨ RanTooLong late ∧ mostOperations < (stateAfter early).operations + count

/-- How work ends does not depend on how many operations were done before, as long as enough are left. -/
def Uniform (work : RunM State α) : Prop :=
  ∀ memory count, EndsAlike count (work memory) (work (memory.later count))

/-- Work that ends well does an operation at least. -/
def Spends (work : RunM State α) : Prop :=
  ∀ memory value later, work memory = .ok value later → memory.operations < later.operations

/-- Work that cannot tell how many operations were done is uniform. -/
theorem uniform_of_endLater {work : RunM State α}
    (h : ∀ memory count, work (Memory.later memory count) = endLater count (work memory)) : Uniform work :=
  fun memory count => Or.inl (h memory count)

/-- Work that takes no operation back. -/
def Counts (work : RunM State α) : Prop :=
  ∀ memory, memory.operations ≤ (stateAfter (work memory)).operations

theorem Quiet.counts {declares : Bool} {work : RunM State α} (h : Quiet declares work) : Counts work :=
  fun memory => (h memory).operations

theorem EndsAlike.bind {count : Nat} {first first' : RunM State α} {second second' : α → RunM State β}
    {memory memory' : Memory State} (hfirst : EndsAlike count (first memory) (first' memory'))
    (hcounts : ∀ value, Counts (second value))
    (hsecond : ∀ value between, first memory = .ok value between →
      EndsAlike count (second value between) (second' value (between.later count))) :
    EndsAlike count ((first >>= second) memory) ((first' >>= second') memory') := by
  rcases hearly : first memory with ⟨value, between⟩ | ⟨fault, between⟩
  · rw [bind_apply_of_ok hearly]
    rw [hearly] at hfirst
    rcases hfirst with heq | ⟨⟨position, after, hlate⟩, hmost⟩
    · rw [bind_apply_of_ok heq]
      exact hsecond value between hearly
    · exact Or.inr ⟨⟨position, after, bind_apply_of_error hlate _⟩,
        Nat.lt_of_lt_of_le hmost (Nat.add_le_add_right (hcounts value between) count)⟩
  · rw [bind_apply_of_error hearly]
    rw [hearly] at hfirst
    rcases hfirst with heq | ⟨⟨position, after, hlate⟩, hmost⟩
    · exact Or.inl (bind_apply_of_error heq _)
    · exact Or.inr ⟨⟨position, after, bind_apply_of_error hlate _⟩, hmost⟩

theorem Uniform.bind {first : RunM State α} {second : α → RunM State β} (hfirst : Uniform first)
    (hcounts : ∀ value, Counts (second value)) (hsecond : ∀ value, Uniform (second value)) :
    Uniform (first >>= second) :=
  fun memory count => (hfirst memory count).bind hcounts fun value between _ => hsecond value between count

/-- Behind work that cannot tell how many operations were done, it does not matter how many the rest does. -/
theorem uniform_bind_of_endLater {first : RunM State α} {second : α → RunM State β}
    (hfirst : ∀ memory count, first (Memory.later memory count) = endLater count (first memory))
    (hsecond : ∀ value, Uniform (second value)) : Uniform (first >>= second) := by
  intro memory count
  have hlate := hfirst memory count
  rcases hearly : first memory with ⟨value, between⟩ | ⟨fault, between⟩ <;> rw [hearly] at hlate
  · rw [bind_apply_of_ok hearly, bind_apply_of_ok hlate]
    exact hsecond value between count
  · rw [bind_apply_of_error hearly, bind_apply_of_error hlate]
    exact Or.inl rfl

/-! ## The parts -/

theorem uniform_tick (position : Position) : Uniform (tick position : RunM State Unit) := by
  intro memory count
  have hswap : (memory.later count).later 1 = (memory.later 1).later count := by
    simp only [Memory.later, Nat.add_right_comm]
  have hoperations : (memory.later count).operations + 1 = memory.operations + 1 + count := Nat.add_right_comm _ _ _
  rw [tick_apply, tick_apply, hswap, hoperations]
  by_cases hearly : mostOperations < memory.operations + 1
  · rw [if_pos hearly, if_pos (Nat.lt_of_lt_of_le hearly (Nat.le_add_right _ _))]
    exact Or.inl rfl
  · rw [if_neg hearly]
    split
    · rename_i hlate
      exact Or.inr ⟨⟨_, _, rfl⟩, hlate⟩
    · exact Or.inl rfl

theorem spends_tick (position : Position) : Spends (tick position : RunM State Unit) := by
  intro memory value later h
  rw [tick_apply] at h
  split at h
  · cases h
  · cases h
    exact Nat.lt_succ_self _

theorem Spends.bind {first : RunM State α} {second : α → RunM State β} (hfirst : Spends first)
    (hcounts : ∀ value, Counts (second value)) : Spends (first >>= second) := by
  intro memory value later h
  obtain ⟨middle, between, hdone, hrest⟩ := done_of_bind h
  have hlater := hcounts middle between
  rw [hrest] at hlater
  exact Nat.lt_of_lt_of_le (hfirst memory middle between hdone) hlater

theorem lookUp_later (space : List String) (name : String) (position : Position) (memory : Memory State) (count : Nat) :
    lookUp host space name position (memory.later count) = endLater count (lookUp host space name position memory) := by
  rcases space with _ | ⟨root, inner⟩
  · simp only [lookUp, get_bind_apply, Memory.later]
    cases memory.scope.lookup name <;> rfl
  · simp only [lookUp]
    split <;> rfl

theorem uniform_update (space : List String) (name : String) (position : Position)
    (change : Value → Except Fault Value) : Uniform (update host space name position change) := by
  refine uniform_bind_of_endLater (lookUp_later space name position) fun old =>
    (uniform_tick position).bind (fun _ memory => ?_) fun _ => uniform_of_endLater fun memory count => ?_ <;>
    rcases change old with _ | new
  · exact Nat.le_refl _
  · exact Nat.le_refl _
  · rfl
  · rfl

theorem uniform_callFunction (space : List String) (start : Position) (name : String) (position : Position)
    (arguments : List Value) : Uniform (callFunction host space start name position arguments) := by
  rcases space with _ | ⟨root, inner⟩
  · refine (uniform_tick position).bind (fun _ memory => ?_) fun _ => uniform_of_endLater fun memory count => ?_ <;>
      split
    · exact Nat.le_refl _
    · split <;> exact Nat.le_refl _
    · rfl
    · split <;> rfl
  · simp only [callFunction]
    split
    · exact uniform_of_endLater fun _ _ => rfl
    · refine (uniform_tick position).bind (fun _ memory => ?_) fun _ => uniform_of_endLater fun memory count => ?_ <;>
        simp only [get_bind_apply, Memory.later] <;>
        rcases if inner.isEmpty then host.call memory.state name arguments else none with _ | cause | ⟨state, value⟩
      · exact Nat.le_refl _
      · exact Nat.le_refl _
      · exact Nat.le_refl _
      · rfl
      · rfl
      · rfl

theorem Uniform.inScope {work : RunM State α} (h : Uniform work) : Uniform (inScope work) := by
  intro memory count
  unfold CodeMarkup.Script.inScope
  rcases h memory count with heq | ⟨⟨position, after, hlate⟩, hmost⟩
  · rw [heq]
    rcases work memory with _ | _ <;> exact Or.inl rfl
  · rw [hlate]
    refine Or.inr ⟨⟨_, _, rfl⟩, ?_⟩
    rcases hearly : work memory with _ | _ <;> rw [hearly] at hmost <;> exact hmost

theorem Spends.inScope {work : RunM State α} (h : Spends work) : Spends (inScope work) := by
  intro memory value later hdone
  unfold CodeMarkup.Script.inScope at hdone
  rcases hwork : work memory with ⟨value, after⟩ | ⟨fault, after⟩ <;> rw [hwork] at hdone <;> cases hdone
  exact h memory value after hwork

theorem EndsAlike.rethrown {count : Nat} {early late : EStateM.Result Fault (Memory State) Value}
    (h : EndsAlike count early late) (fault : Fault) : EndsAlike count (rethrown fault early) (rethrown fault late) := by
  rcases h with rfl | ⟨⟨position, after, rfl⟩, hmost⟩
  · refine Or.inl ?_
    rcases early with _ | ⟨⟨cause, position⟩, after⟩
    · rfl
    · cases cause with
      | thrown value => cases value <;> rfl
      | _ => rfl
  · refine Or.inr ⟨⟨_, _, rfl⟩, ?_⟩
    rwa [stateAfter_rethrown]

theorem Uniform.attempt {work : RunM State Value} {handler : Value → RunM State Value} (hwork : Uniform work)
    (hcounts : ∀ value, Counts (handler value)) (hhandler : ∀ value, Uniform (handler value)) :
    Uniform (attempt work handler) := by
  intro memory count
  have halike := hwork memory count
  rw [attempt_apply, attempt_apply]
  rcases hearly : work memory with ⟨value, between⟩ | ⟨fault, between⟩ <;> rw [hearly] at halike <;>
    rcases halike with heq | ⟨⟨position, after, hlate⟩, hmost⟩
  · rw [heq]
    exact Or.inl rfl
  · rw [hlate]
    exact Or.inr ⟨⟨_, _, rfl⟩, hmost⟩
  · rw [heq]
    simp only [endLater]
    split
    · exact Or.inl rfl
    · exact (hhandler fault.cause.caught between count).rethrown fault
  · -- that a script ran too long is not for it to catch
    rw [hlate]
    refine Or.inr ⟨⟨_, _, rfl⟩, ?_⟩
    simp only
    split
    · exact hmost
    · rw [stateAfter_rethrown]
      exact Nat.lt_of_lt_of_le hmost (Nat.add_le_add_right (hcounts fault.cause.caught between) count)

theorem repeatedly_endsAlike {declares : Bool} {work : RunM State Unit} (huniform : Uniform work) (hspends : Spends work)
    (hquiet : Quiet declares work) (position : Position) (fewer : Nat) :
    ∀ {more : Nat}, fewer ≤ more → ∀ (memory : Memory State) (count : Nat),
      mostOperations < memory.operations + count + fewer →
      EndsAlike count (repeatedly work position more memory)
        (repeatedly work position fewer (memory.later count)) := by
  induction fewer with
  | zero =>
    intro more _ memory count hmost
    have hcounts := (hquiet.repeatedly position more).counts memory
    exact Or.inr ⟨⟨_, _, rfl⟩, Nat.lt_of_lt_of_le hmost (Nat.add_le_add_right hcounts count)⟩
  | succ fewer ih =>
    intro more hle memory count hmost
    obtain ⟨more, rfl⟩ : ∃ rest, more = rest + 1 := ⟨more - 1, by omega⟩
    refine (huniform memory count).bind (fun _ => (hquiet.repeatedly position more).counts) fun _ between hdone => ?_
    have hspent := hspends memory () between hdone
    exact ih (Nat.le_of_succ_le_succ hle) between count (by omega)

theorem uniform_rounds {declares : Bool} {work : RunM State Unit} (position : Position) (huniform : Uniform work)
    (hspends : Spends work) (hquiet : Quiet declares work) :
    Uniform (do
      let left := mostOperations + 1 - (← get).operations
      repeatedly work position left
      return .unit : RunM State Value) := by
  intro memory count
  simp only [get_bind_apply]
  refine EndsAlike.bind (repeatedly_endsAlike huniform hspends hquiet position _ ?_ memory count ?_)
    (fun _ => (quiet_pure Value.unit : Quiet declares _).counts) fun _ between _ => Or.inl rfl
  · exact Nat.sub_le_sub_left (Nat.le_add_right _ _) _
  · have hoperations : (memory.later count).operations = memory.operations + count := rfl
    omega

/-- **How work of a script ends does not depend on how many operations were done before it, as long as enough are left.** -/
theorem uniformParts (hdeaf : host.Deaf)
    (h : ∀ space name, may space name → space = [host.namespaceName] → host.IsReader name) :
    Parts host may (fun work => Quiet false work ∧ Uniform work) (fun work => Quiet true work ∧ Uniform work) Spends where
  loosen hwork := ⟨hwork.1.loosen, hwork.2⟩
  pure value := ⟨quiet_pure value, uniform_of_endLater fun _ _ => rfl⟩
  bind hfirst hsecond := ⟨hfirst.1.bind fun value => (hsecond value).1,
    hfirst.2.bind (fun value => (hsecond value).1.counts) fun value => (hsecond value).2⟩
  bindLoose hfirst hsecond := ⟨hfirst.1.bind fun value => (hsecond value).1,
    hfirst.2.bind (fun value => (hsecond value).1.counts) fun value => (hsecond value).2⟩
  bindBusy hfirst hsecond := hfirst.bind fun value => (hsecond value).1.counts
  tick position := ⟨quiet_tick position, uniform_tick position⟩
  tickBusy := spends_tick
  failAt cause position := ⟨quiet_failAt cause position, uniform_of_endLater fun _ _ => rfl⟩
  lookUp space name position := ⟨quiet_lookUp space name position, uniform_of_endLater (lookUp_later space name position)⟩
  update space name position change :=
    ⟨quiet_update space name position change, uniform_update space name position change⟩
  call start position arguments hmay :=
    ⟨(quietParts hdeaf h).call start position arguments hmay, uniform_callFunction _ start _ position arguments⟩
  declare name value := ⟨(quietParts hdeaf h).declare name value, uniform_of_endLater fun _ _ => rfl⟩
  inScope hwork := ⟨hwork.1.inScope, hwork.2.inScope⟩
  inScopeBusy := Spends.inScope
  attempt hwork hhandler := ⟨hwork.1.attempt fun value => (hhandler value).1,
    hwork.2.attempt (fun value => (hhandler value).1.counts) fun value => (hhandler value).2⟩
  rounds position hwork hbusy :=
    ⟨(quietParts hdeaf h).rounds position hwork.1 trivial, uniform_rounds position hwork.2 hbusy hwork.1⟩

end CodeMarkup.Script
