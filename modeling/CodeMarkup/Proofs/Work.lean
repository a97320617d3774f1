/-!
# Work that can fail

Work made of steps succeeds only if each of its steps does. Work on a state may also fail halfway, and what it
did before stays done; so what is said of the state afterwards is said of both endings (`Keeps`): a property
that each step keeps is kept by the whole, wherever it ends.
-/

namespace CodeMarkup

variable {ε σ α β : Type}

/-- Work that succeeds after other work: that succeeded before. -/
theorem ok_of_bind {first : Except ε α} {second : α → Except ε β} {result : β}
    (h : first >>= second = .ok result) : ∃ value, first = .ok value ∧ second value = .ok result := by
  rcases first with fault | value
  · cases h
  · exact ⟨value, rfl, h⟩

/-! ## Work on a state -/

/-- Work on a state that succeeds after other work: that succeeded before, and left a state to go on from. -/
theorem done_of_bind {first : EStateM ε σ α} {second : α → EStateM ε σ β} {before after : σ} {result : β}
    (h : (first >>= second) before = .ok result after) :
    ∃ value between, first before = .ok value between ∧ second value between = .ok result after := by
  rcases hfirst : first before with ⟨value, between⟩ | ⟨fault, between⟩
  · exact ⟨value, between, rfl, by simpa only [bind, EStateM.bind, hfirst] using h⟩
  · simp only [bind, EStateM.bind, hfirst] at h
    cases h

/-- Work on a state that fails after other work: that failed before, or left a state in which the rest fails. -/
theorem failed_of_bind {first : EStateM ε σ α} {second : α → EStateM ε σ β} {before after : σ} {fault : ε}
    (h : (first >>= second) before = .error fault after) :
    first before = .error fault after ∨
      ∃ value between, first before = .ok value between ∧ second value between = .error fault after := by
  rcases hfirst : first before with ⟨value, between⟩ | ⟨other, between⟩
  · exact Or.inr ⟨value, between, rfl, by simpa only [bind, EStateM.bind, hfirst] using h⟩
  · simp only [bind, EStateM.bind, hfirst] at h
    cases h
    exact Or.inl rfl

/-- Work after work that succeeds goes on from the state that this leaves. -/
theorem bind_apply_of_ok {first : EStateM ε σ α} {before between : σ} {value : α}
    (h : first before = .ok value between) (second : α → EStateM ε σ β) :
    (first >>= second) before = second value between := by
  simp only [bind, EStateM.bind, h]

/-- Work after work that fails is not done. -/
theorem bind_apply_of_error {first : EStateM ε σ α} {before after : σ} {fault : ε}
    (h : first before = .error fault after) (second : α → EStateM ε σ β) :
    (first >>= second) before = .error fault after := by
  simp only [bind, EStateM.bind, h]

/-- Work that looks at the state first. -/
theorem get_bind_apply (second : σ → EStateM ε σ β) (state : σ) : (get >>= second) state = second state state :=
  rfl

/-- Work that first puts another state in place. -/
theorem set_bind_apply (next : σ) (second : PUnit → EStateM ε σ β) (state : σ) :
    (set next >>= second) state = second ⟨⟩ next :=
  rfl

/-- Whether work is done, and has not failed. -/
def isDone : EStateM.Result ε σ α → Bool
  | .ok .. => true
  | .error .. => false

theorem exists_of_isDone {result : EStateM.Result ε σ α} (h : isDone result = true) :
    ∃ value state, result = .ok value state := by
  rcases result with ⟨value, state⟩ | _
  · exact ⟨value, state, rfl⟩
  · cases h

/-- The state that work leaves, however it ends. -/
def stateAfter : EStateM.Result ε σ α → σ
  | .ok _ state => state
  | .error _ state => state

theorem exists_of_not_isDone {result : EStateM.Result ε σ α} (h : isDone result = false) :
    ∃ fault, result = .error fault (stateAfter result) := by
  rcases result with ⟨value, state⟩ | ⟨fault, state⟩
  · cases h
  · exact ⟨fault, rfl⟩

/-- Work keeps a property of the state, however it ends. -/
def Keeps (property : σ → Prop) (work : EStateM ε σ α) : Prop :=
  ∀ state, property state → property (stateAfter (work state))

variable {property : σ → Prop}

theorem Keeps.done {work : EStateM ε σ α} (h : Keeps property work) {before after : σ} {result : α}
    (hdone : work before = .ok result after) (hbefore : property before) : property after := by
  have hafter := h before hbefore
  rwa [hdone] at hafter

theorem keeps_pure (value : α) : Keeps property (pure value : EStateM ε σ α) :=
  fun _ => id

theorem keeps_throw (fault : ε) : Keeps property (throw fault : EStateM ε σ α) :=
  fun _ => id

theorem Keeps.bind {first : EStateM ε σ α} {second : α → EStateM ε σ β} (hfirst : Keeps property first)
    (hsecond : ∀ value, Keeps property (second value)) : Keeps property (first >>= second) := by
  intro state h
  have hbetween := hfirst state h
  simp only [Bind.bind, EStateM.bind]
  rcases hstate : first state with ⟨value, between⟩ | ⟨fault, between⟩
  · rw [hstate] at hbetween
    exact hsecond value between hbetween
  · rw [hstate] at hbetween
    exact hbetween

/-- Work that looks at the state first has only states with the property to reckon with. -/
theorem keeps_get_bind {second : σ → EStateM ε σ β}
    (hsecond : ∀ state, property state → Keeps property (second state)) :
    Keeps property (get >>= second) :=
  fun state h => hsecond state h state h

end CodeMarkup
