import CodeMarkup.Proofs.Studio.LoadOnce

/-!
# Engines that several stations share

The lock of a name is a station's, but what is loaded is an engine's. So two drawings at two stations that share
an engine may both find a grammar missing, neither of them waiting for the other, and then both load it.

What is left of loading once is this. At one station no two loads of a primary grammar succeed with one engine.
And once a load has succeeded at whatever station, only those drawings still load its primary grammar with that
engine that had found it missing before: a drawing that checks later finds it loaded (`loads_of_shared_engine`).
-/

namespace CodeMarkup

variable {World Engine Load : Type}

/-- The engine with which a call has found that it has to load, and what it has to load, until it has loaded. -/
def Stage.needs? : Stage Load → Option (Nat × Resolution)
  | .running _ (.starting index resolution) | .running _ (.loading index resolution _) =>
    some (index, resolution)
  | _ => none

namespace Stage

variable {stage : Stage Load} {index : Nat} {resolution : Resolution}

theorem needs?_of_mustLoad (h : stage.mustLoad = false) : stage.needs? = none := by
  unfold needs?
  split
  · cases h
  · cases h
  · rfl

/-- A call that has to load has the lock of the primary grammar. -/
theorem lock?_of_needs? (h : stage.needs? = some (index, resolution)) :
    stage.lock? = some resolution.primary := by
  unfold needs? at h
  split at h
  · obtain ⟨rfl, rfl⟩ := Prod.mk.inj (Option.some.inj h)
    rfl
  · obtain ⟨rfl, rfl⟩ := Prod.mk.inj (Option.some.inj h)
    rfl
  · cases h

end Stage

namespace Studio

variable {model : EngineModel World Engine Load} {start middle studio next : Studio Engine Load}
  {actions before after : List (Action World)} {action : Action World} {events : List LoadEvent}
  {number station index : Nat} {resolution : Resolution} {event : LoadEvent}

/-! ## What has to be loaded -/

section Moves

variable {old new : Stage Load}

/-- A call that has to load has had to before, or has just found the primary grammar missing. -/
theorem LoadMove.needs_cases (hmove : LoadMove model studio next old new)
    (hneeds : new.needs? = some (index, resolution)) :
    old.needs? = some (index, resolution) ∨
      ∃ engine, studio.engines[index]? = some engine ∧ model.isLoaded engine resolution.primary = false := by
  cases hmove with
  | work _ hto =>
    rw [Stage.needs?_of_mustLoad hto] at hneeds
    cases hneeds
  | missing hengine hmissing =>
    obtain ⟨rfl, rfl⟩ := Prod.mk.inj (Option.some.inj hneeds)
    exact Or.inr ⟨_, hengine, hmissing⟩
  | start | load => exact Or.inl hneeds
  | loaded => cases hneeds

/-- A load begins or ends only where it has to be made. -/
theorem LoadMove.needs_of_event (hmove : LoadMove model studio next old new)
    (hevent : old.loadEvent? number station new = some event) :
    old.needs? = some (event.engine, event.resolution) := by
  obtain ⟨-, -, -, run, ⟨-, rfl⟩ | ⟨-, load, rfl⟩⟩ := hmove.event_inv hevent
  · rfl
  · rfl

/-- A load that has succeeded has not to be made any more. -/
theorem LoadMove.needs_of_succeeds (hmove : LoadMove model studio next old new)
    (hevent : old.loadEvent? number station new = some event) (hsucceeds : event.Succeeds) :
    new.needs? = none := by
  cases hmove with
  | work hfrom =>
    rw [Stage.loadEvent?_of_mustLoad hfrom] at hevent
    cases hevent
  | missing | load => cases hevent
  | start =>
    obtain rfl := Option.some.inj hevent
    cases hsucceeds
  | loaded => rfl

end Moves

/-! ## Loads that have succeeded -/

/-- **What loads that have succeeded say of those still to be made.** -/
structure Spread (studio : Studio Engine Load) (events : List LoadEvent) : Prop where
  /-- what a task has to load no other at its station has loaded -/
  needed {number index : Nat} {task : Task Load} {resolution : Resolution} {event : LoadEvent} :
    studio.tasks[number]? = some task → task.stage.needs? = some (index, resolution) → event ∈ events →
    event.Succeeds → event.station = task.station → event.engine = index →
    event.resolution.primary ≠ resolution.primary
  /-- no two loads that are alike have succeeded -/
  apart : events.Pairwise fun earlier later => earlier.Succeeds → later.Succeeds → ¬ later.Alike earlier

section Turns

variable {old new : Stage Load}

/-- What a task has to load after a turn no other at its station has loaded. -/
theorem Spread.needed_turn (h : studio.Spread events) (hexclusive : studio.Exclusive)
    (hstocked : studio.Stocked model events) (hturn : Turn model studio next number station old new)
    {other : Nat} {task : Task Load} (htask : next.tasks[other]? = some task)
    (hneeds : task.stage.needs? = some (index, resolution))
    (hmem : event ∈ events ++ (old.loadEvent? number station new).toList) (hsucceeds : event.Succeeds)
    (hstation : event.station = task.station) (hengine : event.engine = index) :
    event.resolution.primary ≠ resolution.primary := by
  intro hprimary
  rcases List.mem_append.mp hmem with hearlier | hnew
  · rcases hturn.task_cases htask with ⟨rfl, rfl⟩ | ⟨-, hold⟩
    · rcases hturn.load.needs_cases hneeds with hbefore | ⟨engine, hfound, hmissing⟩
      · exact h.needed hturn.moved hbefore hearlier hsucceeds hstation hengine hprimary
      · -- a grammar that has been loaded is not missing
        have hloaded := hstocked.loaded hearlier hsucceeds (hengine ▸ hfound)
          (hprimary ▸ hstocked.listed hearlier)
        rw [hmissing] at hloaded
        cases hloaded
    · exact h.needed hold hneeds hearlier hsucceeds hstation hengine hprimary
  · have hevent := Option.mem_toList.mp hnew
    rcases hturn.task_cases htask with ⟨rfl, rfl⟩ | ⟨hne, hold⟩
    · rw [hturn.load.needs_of_succeeds hevent hsucceeds] at hneeds
      cases hneeds
    · -- the load that ends has the lock, and so has this task
      have hplace := (hturn.load.event_inv hevent).2.1
      have hmine := Stage.lock?_of_needs? (hturn.load.needs_of_event hevent)
      exact hne (hexclusive.one hold hturn.moved (hstation.symm.trans hplace) (Stage.lock?_of_needs? hneeds)
        (hprimary ▸ hmine))

/-- In a turn no load succeeds that one at its station has made unnecessary. -/
theorem Spread.turn (h : studio.Spread events) (hexclusive : studio.Exclusive)
    (hstocked : studio.Stocked model events) (hturn : Turn model studio next number station old new) :
    next.Spread (events ++ (old.loadEvent? number station new).toList) := by
  constructor
  case needed => exact h.needed_turn hexclusive hstocked hturn
  case apart =>
    refine List.pairwise_append.mpr ⟨h.apart, ?_, ?_⟩
    · rcases old.loadEvent? number station new with _ | event
      · exact .nil
      · exact List.pairwise_singleton ..
    · rintro earlier hearlier later hlater hsucceeds - ⟨hstation, hengine, hprimary⟩
      have hevent := Option.mem_toList.mp hlater
      have hplace := (hturn.load.event_inv hevent).2.1
      exact h.needed hturn.moved (hturn.load.needs_of_event hevent) hearlier hsucceeds
        (hstation.symm.trans hplace) hengine.symm hprimary.symm

end Turns

/-- **In a step no load succeeds that one at its station has made unnecessary.** -/
theorem Spread.step (h : studio.Spread events) (hexclusive : studio.Exclusive)
    (hstocked : studio.Stocked model events) (hstep : studio.step model action = some next) :
    next.Spread (events ++ (studio.loadEvent? next action).toList) := by
  rcases turn_of_step hstep with ⟨station, stage, -, hidle, rfl, hevent⟩ | ⟨_, _, _, _, hturn, hevent⟩
  · rw [hevent, Option.toList_none, List.append_nil]
    refine ⟨?_, h.apart⟩
    intro other index task resolution event htask hneeds
    rcases getElem?_addTask_eq_some htask with ⟨-, rfl⟩ | ⟨-, hold⟩
    · rw [Stage.needs?_of_mustLoad hidle] at hneeds
      cases hneeds
    · exact h.needed hold hneeds
  · rw [hevent]
    exact h.turn hexclusive hstocked hturn

theorem spread_run (hmodel : model.Reliable) (hstart : start.tasks = [])
    (hrun : start.run model actions = some studio) : studio.Spread (loadEvents model start actions) := by
  refine @run_induction _ _ _ model start (fun actions studio =>
    studio.Spread (loadEvents model start actions)) ?_ ?_ actions studio hrun
  · refine ⟨?_, .nil⟩
    intro number index task resolution event htask
    rw [hstart, List.getElem?_nil] at htask
    cases htask
  · intro done studio action next hrun hspread hstep
    obtain ⟨hexclusive, hstocked, -⟩ := loads_run hmodel hstart hrun
    rw [loadEvents_concat hrun hstep]
    exact hspread.step hexclusive hstocked hstep

/-! ## Who may still load -/

/-- The loads of a run in two parts are those of the parts. -/
theorem loadEvents_append (hbefore : start.run model before = some middle) (after : List (Action World)) :
    loadEvents model start (before ++ after) = loadEvents model start before ++ loadEvents model middle after := by
  induction before generalizing start with
  | nil =>
    obtain rfl := Option.some.inj hbefore
    rfl
  | cons action rest ih =>
    rw [run, Option.bind_eq_bind, Option.bind_eq_some_iff] at hbefore
    obtain ⟨next, hnext, hrest⟩ := hbefore
    simp only [List.cons_append, loadEvents, hnext, ih hrest, List.append_assoc]

/-- **What has been loaded only those tasks still have to load that had to already.** -/
theorem needs_of_needs (hmodel : model.Reliable) (hstart : start.tasks = [])
    (hbefore : start.run model before = some middle) (hevent : event ∈ loadEvents model start before)
    (hsucceeds : event.Succeeds) (hafter : middle.run model after = some studio) {task : Task Load}
    (htask : studio.tasks[number]? = some task) (hneeds : task.stage.needs? = some (event.engine, resolution))
    (hprimary : resolution.primary = event.resolution.primary) :
    ∃ old, middle.tasks[number]? = some old ∧ old.stage.needs? = some (event.engine, resolution) := by
  refine @run_induction _ _ _ model middle (fun _ studio => ∀ number task resolution,
    studio.tasks[number]? = some task → task.stage.needs? = some (event.engine, resolution) →
    resolution.primary = event.resolution.primary → ∃ old, middle.tasks[number]? = some old ∧
      old.stage.needs? = some (event.engine, resolution)) ?_ ?_ after studio hafter
    number task resolution htask hneeds hprimary
  · exact fun number task resolution htask hneeds _ => ⟨task, htask, hneeds⟩
  · intro done studio action next hdone ih hstep other task resolution htask hneeds hprimary
    rcases turn_of_step hstep with ⟨station, stage, -, hidle, rfl, -⟩ | ⟨_, _, _, _, hturn, -⟩
    · rcases getElem?_addTask_eq_some htask with ⟨-, rfl⟩ | ⟨-, hold⟩
      · rw [Stage.needs?_of_mustLoad hidle] at hneeds
        cases hneeds
      · exact ih other task resolution hold hneeds hprimary
    · rcases hturn.task_cases htask with ⟨rfl, rfl⟩ | ⟨-, hold⟩
      · rcases hturn.load.needs_cases hneeds with hearlier | ⟨engine, hfound, hmissing⟩
        · exact ih _ _ resolution hturn.moved hearlier hprimary
        · -- the load that has succeeded is one of the whole run so far
          have hrun : start.run model (before ++ done) = some studio := by
            rw [run_append, hbefore, Option.bind_some, hdone]
          have hmem : event ∈ loadEvents model start (before ++ done) := by
            rw [loadEvents_append hbefore]
            exact List.mem_append_left _ hevent
          obtain ⟨-, hstocked, -⟩ := loads_run hmodel hstart hrun
          have hloaded := hstocked.loaded hmem hsucceeds hfound (hprimary ▸ hstocked.listed hmem)
          rw [hmissing] at hloaded
          cases hloaded
      · exact ih other task resolution hold hneeds hprimary

/-- **Who has loaded, and who may still load, when stations share an engine**, in whatever order drawings and
exchanges of engines take their steps.

At one station at most one load for a given primary grammar succeeds with one engine. And when a load has
succeeded, at whatever station, then all loads for its primary grammar that still begin or end with its engine are
of tasks that by then had found the grammar missing. -/
theorem loads_of_shared_engine (hmodel : model.Reliable) (hstart : start.tasks = [])
    (hbefore : start.run model before = some middle) (hafter : middle.run model after = some studio) :
    (loadEvents model start (before ++ after)).Pairwise (fun earlier later =>
      earlier.Succeeds → later.Succeeds → ¬ later.Alike earlier) ∧
    ∀ event ∈ loadEvents model start before, event.Succeeds → ∀ later ∈ loadEvents model middle after,
      later.engine = event.engine → later.resolution.primary = event.resolution.primary →
      ∃ task, middle.tasks[later.task]? = some task ∧
        task.stage.needs? = some (later.engine, later.resolution) := by
  constructor
  case left =>
    have hrun : start.run model (before ++ after) = some studio := by
      rw [run_append, hbefore, Option.bind_some, hafter]
    exact (spread_run hmodel hstart hrun).apart
  case right =>
    intro event hevent hsucceeds
    refine @run_induction _ _ _ model middle (fun done _ => ∀ later ∈ loadEvents model middle done,
      later.engine = event.engine → later.resolution.primary = event.resolution.primary →
      ∃ task, middle.tasks[later.task]? = some task ∧
        task.stage.needs? = some (later.engine, later.resolution)) nofun ?_ after studio hafter
    intro done studio action next hdone ih hstep later hlater hengine hprimary
    rw [loadEvents_concat hdone hstep] at hlater
    rcases List.mem_append.mp hlater with hold | hnew
    · exact ih later hold hengine hprimary
    · rcases turn_of_step hstep with ⟨-, -, -, -, -, hnone⟩ | ⟨number, station, old, new, hturn, hsome⟩
      · rw [hnone] at hnew
        cases hnew
      · rw [hsome] at hnew
        have hload := Option.mem_toList.mp hnew
        obtain ⟨rfl, -⟩ := hturn.load.event_inv hload
        have hneeds := hturn.load.needs_of_event hload
        rw [hengine] at hneeds ⊢
        exact needs_of_needs hmodel hstart hbefore hevent hsucceeds hdone hturn.moved hneeds hprimary

/-! ## Two stations -/

/-- Two stations over one highlighter in which nothing is loaded. -/
def sharedStudio : Studio Highlighter TableLoad :=
  initial [.ofParser fun _ _ => none] [some 0, some 0] []

/-- One grammar, of the name `x`. -/
def oneGrammar : List GrammarDefinition :=
  [⟨some "x", .linked ⟨"x", 14⟩⟩]

/-- A drawing in a language that has one grammar is asked for at a station. -/
def askingAt (station : Nat) : Action Surroundings :=
  .render station ⟨"", some ⟨"a", "a", some (.fixed (.ok (.sequence oneGrammar)) true)⟩, .empty, ""⟩

/-- Two drawings, one at each station, both find the grammar missing. The first loads it. -/
def bothMissing : List (Action Surroundings) :=
  [askingAt 0, askingAt 1] ++ resolving 0 oneGrammar ++ resolving 1 oneGrammar ++
    [0, 0, 1, 1, 0, 0, 0, 0].map (.advance · ⟨.blank, []⟩)

/-- Then the second loads it as well, and a third drawing is made in full. -/
def bothLoaded : List (Action Surroundings) :=
  [askingAt 0] ++ resolving 2 oneGrammar ++ [1, 1, 1, 1, 2].map (.advance · ⟨.blank, []⟩)

/-- **Stations that share an engine may load a grammar twice.** Their locks do not keep them apart. -/
theorem not_one_success : ¬ ∀ (start studio : Studio Highlighter TableLoad) (actions : List (Action Surroundings)),
    start.tasks = [] → start.run Highlighter.model actions = some studio →
    (loadEvents Highlighter.model start actions).Pairwise fun earlier later =>
      earlier.Succeeds → later.Succeeds → earlier.engine = later.engine →
        earlier.resolution.primary ≠ later.resolution.primary := by
  intro h
  have hpairwise := h sharedStudio _ (bothMissing ++ bothLoaded) rfl rfl
  -- the second event is the success of the one station, the fourth that of the other
  exact List.pairwise_iff_getElem.mp hpairwise 1 3 (by decide) (by decide) (by decide) rfl rfl rfl rfl

/-- Of the two drawings that have found the grammar missing each loads it. The third has no load. -/
theorem loads_of_shared_engine_twice : ∃ middle studio,
    sharedStudio.run Highlighter.model bothMissing = some middle ∧
      middle.run Highlighter.model bothLoaded = some studio ∧
      (loadEvents Highlighter.model middle bothLoaded).map
          (fun event => (event.task, event.station, event.result?.map Except.toBool))
        = [(1, 1, none), (1, 1, some true)] ∧
      ∀ later ∈ loadEvents Highlighter.model middle bothLoaded, later.engine = 0 →
        later.resolution.primary = "x" → ∃ task, middle.tasks[later.task]? = some task ∧
          task.stage.needs? = some (later.engine, later.resolution) := by
  obtain ⟨-, hneeds⟩ := @loads_of_shared_engine _ _ _ Highlighter.model sharedStudio _ _ bothMissing bothLoaded
    Highlighter.reliable_model rfl rfl rfl
  exact ⟨_, _, rfl, rfl, rfl, hneeds ⟨0, 0, 0, ⟨oneGrammar, "x"⟩, some (.ok ())⟩ (.tail _ (.head _)) rfl⟩

end Studio

end CodeMarkup
