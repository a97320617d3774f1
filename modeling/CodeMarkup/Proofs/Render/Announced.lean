import CodeMarkup.Render.Loading

/-!
# Loads that announce themselves late

Beginning a load has two halves, the count and the announcement, and so has ending one. Here the halves are steps
of their own, and between the halves of one load other loads may take any of theirs.

The count is always right. The flag is not: when the last load in flight has been counted out, another may be counted
in and announced before the end of the first is, and then the flag is lowered while a load is in flight, and stays so
(`not_shown_while_loading`). It never errs the other way. Once no load is between two halves, a flag that is shown
stands for a load in flight; and the two agree as long as no load begins between the halves of the last one's end
(`inFlight_of_still`).

What a step does is one of four things (`Half`). The first invariant (`Counted`) is kept by all of them, the second
one (`Timely`) by those in which no load begins too early.
-/

namespace CodeMarkup

/-- Where a load stands with the flag. -/
inductive LoadStand where
  /-- it was counted in when there were `before`, which it has not announced yet -/
  | entering (before : Nat)
  /-- it is in flight -/
  | going
  /-- it was counted out as one of `before`, which it has not announced yet -/
  | leaving (before : Nat)
  /-- it is over -/
  | over
  deriving DecidableEq, Repr

/-- Whether a load has been counted in and not been counted out. -/
def LoadStand.isCounted : LoadStand → Bool
  | .entering _ | .going => true
  | .leaving _ | .over => false

/-- Whether a load is between two halves. -/
def LoadStand.isBetween : LoadStand → Bool
  | .entering _ | .leaving _ => true
  | .going | .over => false

/-- What a load can do to the flag. -/
inductive FlagAction where
  /-- another load begins, and is counted in -/
  | enter
  /-- a load announces what it was counted as -/
  | announce (load : Nat)
  /-- a load ends, and is counted out -/
  | leave (load : Nat)
  deriving DecidableEq, Repr

/-- A flag and the loads that have begun. -/
structure FlaggedLoads where
  /-- the flag -/
  flag : LoadingFlag
  /-- the loads, in the order in which they began -/
  loads : List LoadStand
  deriving DecidableEq, Repr

namespace FlaggedLoads

/-! ## Runs -/

/-- No load has begun. -/
def idle : FlaggedLoads := ⟨.idle, []⟩

/-- What an action leads to, if it can happen. -/
def step (shared : FlaggedLoads) : FlagAction → Option FlaggedLoads
  | .enter => some ⟨shared.flag.countIn, shared.loads ++ [.entering shared.flag.inFlight]⟩
  | .announce load =>
    match shared.loads[load]? with
    | some (.entering before) => some ⟨shared.flag.announceIn before, shared.loads.set load .going⟩
    | some (.leaving before) => some ⟨shared.flag.announceOut before, shared.loads.set load .over⟩
    | _ => none
  | .leave load =>
    match shared.loads[load]? with
    | some .going => some ⟨shared.flag.countOut, shared.loads.set load (.leaving shared.flag.inFlight)⟩
    | _ => none

/-- What actions lead to, one after another. -/
def run (shared : FlaggedLoads) : List FlagAction → Option FlaggedLoads
  | [] => some shared
  | action :: rest => do
    let next ← shared.step action
    next.run rest

/-- No load is between two halves. -/
def Still (shared : FlaggedLoads) : Prop :=
  ∀ load ∈ shared.loads, load.isBetween = false

instance (shared : FlaggedLoads) : Decidable shared.Still :=
  inferInstanceAs (Decidable (∀ load ∈ shared.loads, load.isBetween = false))

/-- No load begins in a run between the halves of the end of what was the last load in flight. -/
def Unhurried (shared : FlaggedLoads) : List FlagAction → Prop
  | [] => True
  | action :: rest => (action = .enter → .leaving 1 ∉ shared.loads) ∧
    ∀ next, shared.step action = some next → Unhurried next rest

variable {shared next final : FlaggedLoads} {action : FlagAction} {actions : List FlagAction} {load : Nat}
  {stand other later : LoadStand}

/-- What an action does: one half of a beginning or of an end. -/
inductive Half (shared : FlaggedLoads) : FlagAction → FlaggedLoads → Prop where
  /-- a load is counted in -/
  | countIn : Half shared .enter
      ⟨shared.flag.countIn, shared.loads ++ [.entering shared.flag.inFlight]⟩
  /-- a load announces that it has begun -/
  | announceIn {load before : Nat} (hload : shared.loads[load]? = some (.entering before)) :
    Half shared (.announce load) ⟨shared.flag.announceIn before, shared.loads.set load .going⟩
  /-- a load is counted out -/
  | countOut {load : Nat} (hload : shared.loads[load]? = some .going) :
    Half shared (.leave load)
      ⟨shared.flag.countOut, shared.loads.set load (.leaving shared.flag.inFlight)⟩
  /-- a load announces that it has ended -/
  | announceOut {load before : Nat} (hload : shared.loads[load]? = some (.leaving before)) :
    Half shared (.announce load) ⟨shared.flag.announceOut before, shared.loads.set load .over⟩

/-- **Every step is one of the halves.** -/
theorem half_of_step (h : shared.step action = some next) : Half shared action next := by
  cases action with
  | enter =>
    obtain rfl := Option.some.inj h
    exact .countIn
  | announce load =>
    simp only [step] at h
    split at h
    · rename_i hload
      obtain rfl := Option.some.inj h
      exact .announceIn hload
    · rename_i hload
      obtain rfl := Option.some.inj h
      exact .announceOut hload
    · cases h
  | leave load =>
    simp only [step] at h
    split at h
    · rename_i hload
      obtain rfl := Option.some.inj h
      exact .countOut hload
    · cases h

/-! ## The other loads -/

/-- The loads that stand elsewhere are where they were after one has gone on. -/
theorem mem_set_of_ne (hload : shared.loads[load]? = some stand) (hmem : other ∈ shared.loads)
    (hne : stand ≠ other) : other ∈ shared.loads.set load later := by
  obtain ⟨place, hplace⟩ := List.mem_iff_getElem?.mp hmem
  refine List.mem_iff_getElem?.mpr ⟨place, ?_⟩
  rw [List.getElem?_set_ne, hplace]
  rintro rfl
  exact hne (Option.some.inj (hload.symm.trans hplace))

/-- A load that is counted is one of those that are. -/
theorem countP_isCounted_pos (hload : shared.loads[load]? = some stand) (hcounted : stand.isCounted = true) :
    0 < shared.loads.countP LoadStand.isCounted :=
  List.countP_pos_iff.mpr ⟨stand, List.mem_of_getElem? hload, hcounted⟩

/-- What a load that goes on does to the number of loads that are counted. -/
theorem countP_set_isCounted (hload : shared.loads[load]? = some stand) :
    (shared.loads.set load later).countP LoadStand.isCounted + stand.isCounted.toNat
      = shared.loads.countP LoadStand.isCounted + later.isCounted.toNat := by
  obtain ⟨hlt, hstand⟩ := List.getElem?_eq_some_iff.mp hload
  rw [List.countP_set hlt, hstand]
  cases hstood : stand.isCounted with
  | false => cases later.isCounted <;> rfl
  | true =>
    have hpos := countP_isCounted_pos hload hstood
    cases later.isCounted <;> simp <;> omega

/-! ## What every step preserves -/

/-- **The count is right, and the flag is not shown for nothing**: if it is shown while no load is in flight, the
load that will lower it is about to. -/
structure Counted (shared : FlaggedLoads) : Prop where
  /-- the loads that are counted are those in flight -/
  inFlight : shared.flag.inFlight = shared.loads.countP LoadStand.isCounted
  /-- the last one to leave lowers the flag -/
  lowering : shared.flag.shown = true → shared.flag.inFlight = 0 → .leaving 1 ∈ shared.loads

theorem counted_idle : Counted idle :=
  ⟨rfl, nofun⟩

/-- A load that was counted in is one of those in flight. -/
theorem Counted.pos (h : shared.Counted) (hload : shared.loads[load]? = some stand)
    (hcounted : stand.isCounted = true) : 0 < shared.flag.inFlight := by
  rw [h.inFlight]
  exact countP_isCounted_pos hload hcounted

@[simp] theorem inFlight_announceIn (before : Nat) (flag : LoadingFlag) :
    (flag.announceIn before).inFlight = flag.inFlight := by
  unfold LoadingFlag.announceIn
  split <;> rfl

@[simp] theorem inFlight_announceOut (before : Nat) (flag : LoadingFlag) :
    (flag.announceOut before).inFlight = flag.inFlight := by
  unfold LoadingFlag.announceOut
  split <;> rfl

/-- **A step keeps the count right.** -/
theorem Counted.step (h : shared.Counted) (hstep : shared.step action = some next) : next.Counted := by
  cases half_of_step hstep with
  | countIn =>
    refine ⟨?_, fun _ hzero => absurd hzero (Nat.succ_ne_zero _)⟩
    rw [List.countP_append, ← h.inFlight]
    rfl
  | announceIn hload =>
    refine ⟨?_, fun _ hzero => ?_⟩
    · have hcount := @countP_set_isCounted shared _ _ .going hload
      rw [inFlight_announceIn, h.inFlight]
      exact (Nat.add_right_cancel hcount).symm
    · -- the load itself is in flight
      have hpos := h.pos hload rfl
      rw [inFlight_announceIn] at hzero
      omega
  | @countOut load hload =>
    have hpos := h.pos hload rfl
    have hcount := @countP_set_isCounted shared _ _ (.leaving shared.flag.inFlight) hload
    constructor
    case inFlight =>
      have hbefore := h.inFlight
      simp only [LoadStand.isCounted, Bool.toNat_true, Bool.toNat_false] at hcount
      change shared.flag.inFlight - 1 = (shared.loads.set load _).countP LoadStand.isCounted
      omega
    case lowering =>
      intro _ hzero
      have hlast : shared.flag.inFlight = 1 := by
        simp only [LoadingFlag.countOut] at hzero
        omega
      rw [hlast]
      exact List.mem_set (List.getElem?_eq_some_iff.mp hload).1 _
  | @announceOut load before hload =>
    constructor
    case inFlight =>
      have hcount := @countP_set_isCounted shared _ _ .over hload
      rw [inFlight_announceOut, h.inFlight]
      exact (Nat.add_right_cancel hcount).symm
    case lowering =>
      intro hshown hzero
      rw [inFlight_announceOut] at hzero
      unfold LoadingFlag.announceOut at hshown
      split at hshown
      · cases hshown
      · rename_i hbefore
        refine mem_set_of_ne hload (h.lowering hshown hzero) ?_
        rintro ⟨⟩
        exact hbefore rfl

/-- **What every step preserves as long as no load begins too early**: the flag is not lowered for nothing either. -/
structure Timely (shared : FlaggedLoads) : Prop where
  /-- while the last load to leave has not lowered the flag, no load is in flight -/
  pending : .leaving 1 ∈ shared.loads → shared.flag.inFlight = 0
  /-- if loads are in flight and the flag is not shown, the load that will raise it is about to -/
  raising : shared.flag.shown = false → 0 < shared.flag.inFlight → .entering 0 ∈ shared.loads

theorem timely_idle : Timely idle :=
  ⟨nofun, nofun⟩

/-- **A step keeps the flag timely**, unless a load begins between the halves of the last one's end. -/
theorem Timely.step (h : shared.Timely) (hcounted : shared.Counted)
    (hstep : shared.step action = some next) (hearly : action = .enter → .leaving 1 ∉ shared.loads) :
    next.Timely := by
  cases half_of_step hstep with
  | countIn =>
    constructor
    case pending =>
      intro hmem
      rcases List.mem_append.mp hmem with hold | hnew
      · exact absurd hold (hearly rfl)
      · cases List.mem_singleton.mp hnew
    case raising =>
      intro hshown _
      rcases Nat.eq_zero_or_pos shared.flag.inFlight with hzero | hpos
      · rw [hzero]
        exact List.mem_append_right _ (List.mem_singleton_self _)
      · exact List.mem_append_left _ (h.raising hshown hpos)
  | announceIn hload =>
    constructor
    case pending =>
      intro hmem
      rw [inFlight_announceIn]
      rcases List.mem_or_eq_of_mem_set hmem with hold | ⟨⟨⟩⟩
      exact h.pending hold
    case raising =>
      intro hshown hpos
      rw [inFlight_announceIn] at hpos
      unfold LoadingFlag.announceIn at hshown
      split at hshown
      · cases hshown
      · rename_i hbefore
        refine mem_set_of_ne hload (h.raising hshown hpos) ?_
        rintro ⟨⟩
        exact hbefore rfl
  | @countOut load hload =>
    have hpos := hcounted.pos hload rfl
    constructor
    case pending =>
      intro hmem
      rcases List.mem_or_eq_of_mem_set hmem with hold | hnew
      · exact absurd (h.pending hold) (Nat.ne_of_gt hpos)
      · have hlast := LoadStand.leaving.inj hnew
        simp only [LoadingFlag.countOut]
        omega
    case raising =>
      intro hshown _
      exact mem_set_of_ne hload (h.raising hshown hpos) nofun
  | @announceOut load before hload =>
    constructor
    case pending =>
      intro hmem
      rw [inFlight_announceOut]
      rcases List.mem_or_eq_of_mem_set hmem with hold | ⟨⟨⟩⟩
      exact h.pending hold
    case raising =>
      intro hshown hpos
      rw [inFlight_announceOut] at hpos
      unfold LoadingFlag.announceOut at hshown
      split at hshown
      · -- it was the last to leave, so none is in flight
        rename_i hbefore
        subst hbefore
        exact absurd (h.pending (List.mem_of_getElem? hload)) (Nat.ne_of_gt hpos)
      · exact mem_set_of_ne hload (h.raising hshown hpos) nofun

/-! ## Whole runs -/

theorem run_cons_eq_some (h : shared.run (action :: actions) = some final) :
    ∃ next, shared.step action = some next ∧ next.run actions = some final := by
  rwa [run, Option.bind_eq_bind, Option.bind_eq_some_iff] at h

theorem Counted.run (h : shared.Counted) (hrun : shared.run actions = some final) : final.Counted := by
  induction actions generalizing shared with
  | nil =>
    obtain rfl := Option.some.inj hrun
    exact h
  | cons action rest ih =>
    obtain ⟨next, hstep, hrest⟩ := run_cons_eq_some hrun
    exact ih (h.step hstep) hrest

theorem Timely.run (h : shared.Timely) (hcounted : shared.Counted)
    (hrun : shared.run actions = some final) (hunhurried : shared.Unhurried actions) : final.Timely := by
  induction actions generalizing shared with
  | nil =>
    obtain rfl := Option.some.inj hrun
    exact h
  | cons action rest ih =>
    obtain ⟨next, hstep, hrest⟩ := run_cons_eq_some hrun
    obtain ⟨hearly, hlater⟩ := hunhurried
    exact ih (h.step hcounted hstep hearly) (hcounted.step hstep) hrest (hlater next hstep)

theorem Still.not_mem (h : shared.Still) (hbetween : stand.isBetween = true) : stand ∉ shared.loads := by
  intro hmem
  cases (h stand hmem).symm.trans hbetween

/-- **What the flag says once no load is between two halves**, in whatever order the halves were taken.

The count is the number of loads in flight. If the flag is shown, there is one. The other way round, if there is one
the flag is shown, provided that no load began between the halves of the end of what was the last load in flight. -/
theorem inFlight_of_still (hrun : idle.run actions = some final) (hstill : final.Still) :
    final.flag.inFlight = final.loads.count .going ∧
    (final.flag.shown = true → 0 < final.flag.inFlight) ∧
    (idle.Unhurried actions → (final.flag.shown = true ↔ 0 < final.flag.inFlight)) := by
  have hcounted : final.Counted := counted_idle.run hrun
  have hpositive : final.flag.shown = true → 0 < final.flag.inFlight := fun hshown =>
    Nat.pos_of_ne_zero fun hzero => hstill.not_mem rfl (hcounted.lowering hshown hzero)
  refine ⟨?_, hpositive, fun hunhurried => ⟨hpositive, fun hpos => ?_⟩⟩
  · rw [hcounted.inFlight, List.count]
    refine List.countP_congr fun load hmem => ?_
    have hload := hstill load hmem
    cases load <;> simp_all [LoadStand.isCounted, LoadStand.isBetween]
  · refine Decidable.byContradiction fun hdown => ?_
    have htimely : final.Timely := timely_idle.run counted_idle hrun hunhurried
    exact hstill.not_mem rfl (htimely.raising (Bool.not_eq_true _ ▸ hdown) hpos)

/-- Two loads at once, the first of which is over. -/
def nested : List FlagAction :=
  [.enter, .enter, .announce 1, .announce 0, .leave 0, .announce 0]

theorem inFlight_of_still_nested : ∃ final : FlaggedLoads, idle.run nested = some final ∧ final.Still ∧
    final.flag.inFlight = 1 ∧ (final.flag.shown = true ↔ 0 < final.flag.inFlight) := by
  obtain ⟨-, -, hshown⟩ := @inFlight_of_still _ nested (rfl : idle.run nested = _) (by decide)
  exact ⟨_, rfl, by decide, rfl, hshown (by simp [Unhurried, nested, step, idle])⟩

/-- A load is counted out, and before it announces that, another one is counted in and announces itself. -/
def hurried : List FlagAction :=
  [.enter, .announce 0, .leave 0, .enter, .announce 1, .announce 0]

/-- **The flag can be down while a load is in flight**, and no load is about to raise it. -/
theorem not_shown_while_loading :
    ¬ ∀ (actions : List FlagAction) (final : FlaggedLoads), idle.run actions = some final → final.Still →
      (final.flag.shown = true ↔ 0 < final.flag.inFlight) := by
  intro hexact
  have hshown := hexact hurried ⟨⟨1, false⟩, [.over, .going]⟩ rfl (by decide)
  exact absurd (hshown.mpr Nat.one_pos) Bool.false_ne_true

end FlaggedLoads

end CodeMarkup
