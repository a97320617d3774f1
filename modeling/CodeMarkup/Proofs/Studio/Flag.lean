import CodeMarkup.Proofs.Studio.LoadOnce

/-!
# The loading flag is exact

What a station shows of its loads is derived from a count, which one task raises where another may lower it.
The main statement, `loading_shown_iff`, says that the flag is right all the same: in whatever order calls are
made and tasks take their steps, loading is shown at a station iff some task there is loading at that
moment. So it is not shown once all tasks are over, whatever became of them, and it comes to be shown only
by a step in which a task begins to load: never by a drawing that finds its grammar loaded or has no language
to highlight, by a supplier's answer, or by waiting for a lock.

What a move does to flags is one of three things (`FlagMove`), each with what it does to the number of tasks
that load (`loadsAt`). The invariant ties the two numbers together (`Exact`).
-/

namespace CodeMarkup

variable {World Engine Load : Type}

/-- Whether a call is in the middle of a load. -/
def Stage.isLoading (stage : Stage Load) : Bool :=
  stage.loads?.isSome

theorem Stage.isLoading_of_isEnded {stage : Stage Load} (h : stage.isEnded = true) :
    stage.isLoading = false := by
  unfold isEnded at h
  split at h
  · rfl
  · cases h

/-- What is shown after an end was shown before. -/
theorem LoadingFlag.shown_of_shown_lower {flag : LoadingFlag} (h : flag.lower.shown = true) :
    flag.shown = true := by
  unfold lower announceOut at h
  split at h
  · cases h
  · exact h

namespace Studio

/-- The loading flags, by the numbers of their stations. -/
def flags (studio : Studio Engine Load) : List LoadingFlag :=
  studio.stations.map (·.loading)

/-- Whether a task is in the middle of a load at a station. -/
def loadsThere (station : Nat) (task : Task Load) : Bool :=
  task.station = station && task.stage.isLoading

/-- How many tasks are in the middle of a load at a station. -/
def loadsAt (studio : Studio Engine Load) (station : Nat) : Nat :=
  studio.tasks.countP (loadsThere station)

/-! ## The moves -/

/-- What a move that leads a task at a station from one stage to another does to flags. -/
inductive FlagMove (studio next : Studio Engine Load) (station : Nat) :
    Stage Load → Stage Load → Prop where
  /-- the flags are left alone -/
  | keep {before after : Stage Load} (hsame : after.isLoading = before.isLoading)
      (hflags : next.flags = studio.flags) :
    FlagMove studio next station before after
  /-- a load begins -/
  | raise {run : Run} {index : Nat} {resolution : Resolution} {load : Load}
      (hflags : next.flags = studio.flags.modify station LoadingFlag.raise) :
    FlagMove studio next station (.running run (.starting index resolution))
      (.running run (.loading index resolution load))
  /-- a load ends -/
  | lower {before after : Stage Load} (hbefore : before.isLoading = true)
      (hafter : after.isLoading = false)
      (hflags : next.flags = studio.flags.modify station LoadingFlag.lower) :
    FlagMove studio next station before after

variable {model : EngineModel World Engine Load} {studio next : Studio Engine Load}
  {number station : Nat} {before after : Stage Load}

/-- What a change of a station does to flags. -/
theorem flags_modifyStation {f : Station → Station} {g : LoadingFlag → LoadingFlag}
    (hf : ∀ place, (f place).loading = g place.loading) :
    (studio.modifyStation station f).flags = studio.flags.modify station g := by
  refine List.ext_getElem? fun index => ?_
  rw [flags, modifyStation, flags, List.getElem?_map, List.getElem?_modify, List.getElem?_modify,
    List.getElem?_map]
  rcases studio.stations[index]? with _ | place
  · rfl
  · by_cases h : station = index <;> simp [h, hf]

/-- A change of a station that leaves its flag alone. -/
theorem flags_modifyStation_of_loading {f : Station → Station}
    (hf : ∀ place, (f place).loading = place.loading) :
    (studio.modifyStation station f).flags = studio.flags := by
  rw [@flags_modifyStation _ _ _ _ f id hf, List.modify_id]

/-- **What every move does to flags.** -/
theorem Move.flagMove {stage : Stage Load} (hmove : Move model studio number station stage next) :
    ∃ after, next.tasks = (studio.setStage number after).tasks ∧
      FlagMove studio next station stage after := by
  cases hmove with
  | same | sameEngine | otherEngine | refresh | restamp | change => exact ⟨_, rfl, .keep rfl rfl⟩
  | swap | lock | unlock | abandon =>
    exact ⟨_, rfl, .keep rfl (flags_modifyStation_of_loading fun _ => rfl)⟩
  | @read run place =>
    obtain ⟨result, hphase⟩ | ⟨engine, language, hphase⟩ :=
      @firstPhase_cases Load run.request place.engine
    all_goals
      rw [hphase]
      exact ⟨_, rfl, .keep rfl rfl⟩
  | check | recheck =>
    refine ⟨_, rfl, .keep ?_ rfl⟩
    split <;> rfl
  | start => exact ⟨_, rfl, .raise (flags_modifyStation fun _ => rfl)⟩
  | @loaded run index resolution load world engine after result hengine hload =>
    have hflags := @flags_modifyStation Engine Load (studio.modifyEngine index fun _ => after) station
      (fun place => { place with loading := place.loading.lower }) LoadingFlag.lower fun _ => rfl
    exact ⟨_, rfl, .lower rfl rfl hflags⟩
  | resolve | unresolved | load | draw | fail | deliver | drop | keep | display =>
    exact ⟨_, rfl, .keep rfl rfl⟩

/-! ## Counting -/

/-- Changing one item of a list changes the count by what that item counts. -/
theorem countP_modify {α : Type} (p : α → Bool) {items : List α} {place : Nat} {item : α} (f : α → α)
    (h : items[place]? = some item) :
    (items.modify place f).countP p + (p item).toNat = items.countP p + (p (f item)).toNat := by
  induction items generalizing place with
  | nil => cases h
  | cons first rest ih =>
    cases place with
    | zero =>
      obtain rfl := Option.some.inj h
      rw [List.modify_zero_cons, List.countP_cons, List.countP_cons]
      cases p first <;> cases p (f first) <;> simp
    | succ place =>
      have hrest := ih h
      rw [List.modify_succ_cons, List.countP_cons, List.countP_cons]
      omega

/-- A move changes the number of loads at its station by what its task does, and no other. -/
theorem loadsAt_of_moved (hmoved : studio.tasks[number]? = some ⟨station, before⟩)
    (htasks : next.tasks = (studio.setStage number after).tasks) (index : Nat) :
    next.loadsAt index + (loadsThere index ⟨station, before⟩).toNat
      = studio.loadsAt index + (loadsThere index ⟨station, after⟩).toNat := by
  rw [loadsAt, htasks, setStage, loadsAt]
  exact countP_modify (loadsThere index) (fun task => { task with stage := after }) hmoved

theorem loadsAt_pos_iff {index : Nat} :
    0 < studio.loadsAt index ↔
      ∃ task ∈ studio.tasks, task.station = index ∧ task.stage.isLoading = true := by
  rw [loadsAt, List.countP_pos_iff]
  simp [loadsThere]

/-! ## The invariant -/

/-- **The flags are exact**: each counts the tasks that load at its station, and shows whether there are any. -/
def Exact (studio : Studio Engine Load) : Prop :=
  ∀ (index : Nat) (flag : LoadingFlag), studio.flags[index]? = some flag →
    flag.inFlight = studio.loadsAt index ∧ (flag.shown = true ↔ 0 < flag.inFlight)

/-- A call that is made loads nothing yet. -/
theorem Exact.addTask (h : studio.Exact) {stage : Stage Load} (hidle : stage.isLoading = false) :
    (studio.addTask station stage).Exact := by
  intro index flag hflag
  have hcount : (studio.addTask station stage).loadsAt index = studio.loadsAt index := by
    rw [loadsAt, Studio.addTask, List.countP_append, loadsAt]
    simp [loadsThere, hidle]
  rw [hcount]
  exact h index flag hflag

/-- A move keeps the flags exact. -/
theorem Exact.move (h : studio.Exact) (hmoved : studio.tasks[number]? = some ⟨station, before⟩)
    (htasks : next.tasks = (studio.setStage number after).tasks)
    (hmove : FlagMove studio next station before after) : next.Exact := by
  intro index flag hflag
  have hcount := loadsAt_of_moved hmoved htasks index
  cases hmove with
  | keep hsame hflags =>
    simp only [loadsThere, hsame] at hcount
    rw [hflags] at hflag
    obtain ⟨hin, hshown⟩ := h index flag hflag
    exact ⟨by omega, hshown⟩
  | raise hflags =>
    rw [hflags] at hflag
    rcases getElem?_modify_eq_some hflag with ⟨rfl, old, hold, rfl⟩ | ⟨hother, hold⟩
    · obtain ⟨hin, hshown⟩ := h index old hold
      refine ⟨?_, old.shown_raise_iff hshown⟩
      have hraise : old.raise.inFlight = old.inFlight + 1 := by
        unfold LoadingFlag.raise LoadingFlag.announceIn LoadingFlag.countIn
        split <;> rfl
      simp only [loadsThere, Stage.isLoading, Stage.loads?, decide_true, Bool.true_and,
        Option.isSome_none, Option.isSome_some, Bool.toNat_false, Bool.toNat_true] at hcount
      omega
    · simp only [loadsThere, decide_eq_false (Ne.symm hother), Bool.false_and] at hcount
      obtain ⟨hin, hshown⟩ := h index flag hold
      exact ⟨by omega, hshown⟩
  | lower hbefore hafter hflags =>
    rw [hflags] at hflag
    rcases getElem?_modify_eq_some hflag with ⟨rfl, old, hold, rfl⟩ | ⟨hother, hold⟩
    · obtain ⟨hin, hshown⟩ := h index old hold
      refine ⟨?_, old.shown_lower_iff hshown⟩
      have hlower : old.lower.inFlight = old.inFlight - 1 := by
        unfold LoadingFlag.lower LoadingFlag.announceOut LoadingFlag.countOut
        split <;> rfl
      simp only [loadsThere, hbefore, hafter, decide_true, Bool.and_true, Bool.and_false,
        Bool.toNat_false, Bool.toNat_true] at hcount
      omega
    · simp only [loadsThere, decide_eq_false (Ne.symm hother), Bool.false_and] at hcount
      obtain ⟨hin, hshown⟩ := h index flag hold
      exact ⟨by omega, hshown⟩

/-- **A step keeps the flags exact.** -/
theorem Exact.step (h : studio.Exact) {action : Action World}
    (hstep : studio.step model action = some next) : next.Exact := by
  rcases step_inv hstep with ⟨_, _, _, -, -, rfl⟩ | ⟨_, _, -, -, rfl⟩ | ⟨_, _, -, hmoved, hmove⟩
  · exact h.addTask rfl
  · exact h.addTask rfl
  · obtain ⟨after, htasks, hflags⟩ := hmove.flagMove
    exact h.move hmoved htasks hflags

variable {engines : List Engine} {stations : List (Option Nat)} {views : List Nat}
  {actions : List (Action World)}

/-- **The flags are exact in every run**, if nothing loads at its start. -/
theorem exact_run (hrun : (initial engines stations views).run model actions = some studio) :
    studio.Exact := by
  refine @run_induction _ _ _ model (initial engines stations views) (fun _ studio => studio.Exact) ?_
    (fun _ _ _ _ _ h hstep => h.step hstep) actions studio hrun
  intro index flag hflag
  rw [flags, initial, List.map_map, List.getElem?_map, Option.map_eq_some_iff] at hflag
  obtain ⟨engine, -, rfl⟩ := hflag
  exact ⟨rfl, by simp [Station.ofEngine, LoadingFlag.idle]⟩

/-! ## Raising -/

/-- **A flag is raised only by a task that begins to load.** -/
theorem began_of_raised {action : Action World} (hstep : studio.step model action = some next)
    {index : Nat} {flag raised : LoadingFlag} (hflag : studio.flags[index]? = some flag)
    (hraised : next.flags[index]? = some raised) (hdown : flag.shown = false)
    (hup : raised.shown = true) :
    ∃ number run engine resolution load, action.task? = some number ∧
      studio.tasks[number]? = some ⟨index, .running run (.starting engine resolution)⟩ ∧
      next.tasks[number]? = some ⟨index, .running run (.loading engine resolution load)⟩ := by
  have hchanged : next.flags[index]? ≠ studio.flags[index]? := by
    rw [hflag, hraised]
    rintro ⟨⟩
    rw [hdown] at hup
    cases hup
  rcases step_inv hstep with ⟨_, _, _, -, -, rfl⟩ | ⟨_, _, -, -, rfl⟩ |
    ⟨number, ⟨station, before⟩, haction, hmoved, hmove⟩
  · exact absurd rfl hchanged
  · exact absurd rfl hchanged
  · obtain ⟨after, htasks, hflags⟩ := hmove.flagMove
    cases hflags with
    | keep _ hsame => exact absurd (hsame ▸ rfl) hchanged
    | raise hflags =>
      have hmine : station = index := Decidable.byContradiction fun hother => by
        rw [hflags, List.getElem?_modify_ne _ _ hother] at hchanged
        exact hchanged rfl
      subst hmine
      exact ⟨number, _, _, _, _, haction, hmoved, getElem?_setStage_self htasks hmoved⟩
    | lower _ _ hflags =>
      rw [hflags] at hraised
      rcases getElem?_modify_eq_some hraised with ⟨rfl, old, hold, rfl⟩ | ⟨-, hold⟩
      · obtain rfl := Option.some.inj (hold.symm.trans hflag)
        rw [LoadingFlag.shown_of_shown_lower hup] at hdown
        cases hdown
      · obtain rfl := Option.some.inj (hold.symm.trans hflag)
        rw [hdown] at hup
        cases hup

/-- **Loading is shown at a station iff a task there is loading**, at any time of any run that starts with
nothing called.

So it is not shown once every task there is over, whether it ended well or not. And whatever happens next, it
comes to be shown only if a task at this station has found its grammar missing under its lock and begins to
load: no other step of any task raises the flag. -/
theorem loading_shown_iff (hrun : (initial engines stations views).run model actions = some studio) :
    (∀ index place, studio.stations[index]? = some place →
      (place.loading.shown = true ↔
        ∃ task ∈ studio.tasks, task.station = index ∧ task.stage.isLoading = true)) ∧
    (∀ index place, studio.stations[index]? = some place →
      (∀ task ∈ studio.tasks, task.station = index → task.stage.isEnded = true) →
      place.loading.shown = false) ∧
    ∀ action next index place later, studio.step model action = some next →
      studio.stations[index]? = some place → next.stations[index]? = some later →
      place.loading.shown = false → later.loading.shown = true →
      ∃ number run engine resolution load, action.task? = some number ∧
        studio.tasks[number]? = some ⟨index, .running run (.starting engine resolution)⟩ ∧
        next.tasks[number]? = some ⟨index, .running run (.loading engine resolution load)⟩ := by
  have hflag : ∀ {studio : Studio Engine Load} {index : Nat} {place : Station},
      studio.stations[index]? = some place → studio.flags[index]? = some place.loading := by
    intro studio index place hplace
    rw [flags, List.getElem?_map, hplace, Option.map_some]
  have hshown : ∀ index place, studio.stations[index]? = some place →
      (place.loading.shown = true ↔
        ∃ task ∈ studio.tasks, task.station = index ∧ task.stage.isLoading = true) := by
    intro index place hplace
    obtain ⟨hin, hiff⟩ := exact_run hrun index place.loading (hflag hplace)
    rw [hiff, hin, loadsAt_pos_iff]
  refine ⟨hshown, fun index place hplace hended => ?_, ?_⟩
  · rw [← Bool.not_eq_true, hshown index place hplace]
    rintro ⟨task, htask, hstation, hloading⟩
    rw [Stage.isLoading_of_isEnded (hended task htask hstation)] at hloading
    cases hloading
  · intro action next index place later hstep hplace hlater hdown hup
    exact began_of_raised hstep (hflag hplace) (hflag hlater) hdown hup

/-- The first of three drawings has failed to load, the second is loading, and the third waits for its lock. -/
theorem loading_shown_iff_retrying : ∃ studio place,
    freshStudio.run Highlighter.model (retrying.take 21) = some studio ∧
      studio.stations[0]? = some place ∧ place.loading.shown = true ∧
      studio.tasks.map (·.stage.isLoading) = [false, true, false] ∧
      (place.loading.shown = true ↔
        ∃ task ∈ studio.tasks, task.station = 0 ∧ task.stage.isLoading = true) := by
  obtain ⟨hshown, -⟩ := @loading_shown_iff _ _ _ Highlighter.model _ [.ofParser fun _ _ => none]
    [some 0] [] (retrying.take 21) rfl
  exact ⟨_, _, rfl, rfl, rfl, rfl, hshown 0 _ rfl⟩

end Studio

end CodeMarkup
