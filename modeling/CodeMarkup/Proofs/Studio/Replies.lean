import CodeMarkup.Proofs.Studio.LoadOnce

/-!
# Replies of suppliers

What a drawing goes ahead with is what its language has resolved to by the **reply** of its supplier. Suppliers
may answer as they like, and not the same each time, so the replies of a run are listed in order (`replies`).
From the reply on a drawing keeps to the resolution that it brought (`resolved_run`), and so does each load
(`resolved_of_loadEvents`). So whatever is known of the replies of a run is known of all that is resolved and
loaded in it.
-/

namespace CodeMarkup

variable {World Engine Load : Type}

/-- What a supplier has answered for a language. -/
structure Reply where
  /-- the language -/
  language : Language
  /-- the answer -/
  answer : Except FetchFault Bundle

/-- What the language resolves to by a reply, or why it does not. -/
def Reply.resolution (reply : Reply) : Except RenderFault Resolution :=
  reply.language.resolution reply.answer

/-- The language whose supplier a call waits for. -/
def Stage.asked? : Stage Load → Option Language
  | .running _ (.fetching _ language) => some language
  | _ => none

namespace Studio

/-- The reply that an action brings, if it brings one. -/
def reply? (studio : Studio Engine Load) : Action World → Option Reply
  | .answer number answer => do
    let task ← studio.tasks[number]?
    let language ← task.stage.asked?
    return ⟨language, answer⟩
  | _ => none

/-- The replies that come in the course of a run, in order. -/
def replies (model : EngineModel World Engine Load) (studio : Studio Engine Load) :
    List (Action World) → List Reply
  | [] => []
  | action :: rest =>
    match studio.step model action with
    | none => []
    | some next => (studio.reply? action).toList ++ replies model next rest

/-- The language of a request has resolved by one of some replies. -/
def ResolvedBy (replies : List Reply) (request : Request) (resolution : Resolution) : Prop :=
  ∃ reply ∈ replies, request.highlighted? = some reply.language ∧ reply.resolution = .ok resolution

/-- What is known of a call: it waits for the supplier of its request's language, or goes ahead with what that
language has resolved to by one of some replies. -/
structure Stage.Resolved (replies : List Reply) (stage : Stage Load) : Prop where
  /-- the supplier that is asked is the one of the language -/
  asked {language : Language} : stage.asked? = some language →
    ∃ run, stage.run? = some run ∧ run.request.highlighted? = some language
  /-- what the language has resolved to was replied -/
  resolved {resolution : Resolution} : stage.resolution? = some resolution →
    ∃ run, stage.run? = some run ∧ ResolvedBy replies run.request resolution

variable {model : EngineModel World Engine Load} {start studio next : Studio Engine Load}
  {number station : Nat} {done actions : List (Action World)} {action : Action World}
  {replied more : List Reply}

theorem replies_concat (hrun : start.run model done = some studio)
    (hstep : studio.step model action = some next) :
    replies model start (done ++ [action])
      = replies model start done ++ (studio.reply? action).toList := by
  refine records_concat (replies model) (fun studio _ action => (studio.reply? action).toList)
    (fun _ => rfl) ?_ hrun hstep
  intro studio next action rest hnext
  rw [replies, hnext]

/-- What was replied in a part of a run was replied in the whole. -/
theorem replies_subset {before after : List (Action World)} {middle : Studio Engine Load}
    (hbefore : start.run model before = some middle)
    (hafter : middle.run model after = some studio) :
    replies model start before ⊆ replies model start (before ++ after) := by
  refine @run_induction _ _ _ model middle (fun after studio => start.run model (before ++ after) = some
    studio → replies model start before ⊆ replies model start (before ++ after)) ?_ ?_ after studio hafter ?_
  · intro _
    rw [List.append_nil]
    exact List.Subset.refl _
  · intro done studio action next hdone hsubset hstep _
    have hrun : start.run model (before ++ done) = some studio := by
      rw [run_append, hbefore, Option.bind_some, hdone]
    rw [← List.append_assoc, replies_concat hrun hstep]
    exact List.subset_append_of_subset_left _ (hsubset hrun)
  · rw [run_append, hbefore, Option.bind_some, hafter]

theorem ResolvedBy.mono (hsubset : replied ⊆ more) {request : Request} {resolution : Resolution}
    (h : ResolvedBy replied request resolution) : ResolvedBy more request resolution := by
  obtain ⟨reply, hmem, hreply⟩ := h
  exact ⟨reply, hsubset hmem, hreply⟩

theorem Stage.Resolved.mono {stage : Stage Load} (h : Stage.Resolved replied stage) :
    Stage.Resolved (replied ++ more) stage := by
  refine ⟨h.asked, fun hresolution => ?_⟩
  obtain ⟨run, hrun, hresolved⟩ := h.resolved hresolution
  exact ⟨run, hrun, hresolved.mono (List.subset_append_left ..)⟩

/-- A call that waits for no supplier and has no resolution. -/
theorem Stage.Resolved.of_none {stage : Stage Load} (hasked : stage.asked? = none)
    (hresolution : stage.resolution? = none) : Stage.Resolved replied stage := by
  constructor
  · intro language h
    rw [hasked] at h
    cases h
  · intro resolution h
    rw [hresolution] at h
    cases h

/-- A call that goes on with the resolution that it had. -/
theorem Stage.Resolved.going {stage after : Stage Load} (h : Stage.Resolved replied stage)
    (hrun : after.run? = stage.run?) (hasked : after.asked? = none)
    (hresolution : after.resolution? = stage.resolution?) : Stage.Resolved replied after := by
  constructor
  · intro language hlanguage
    rw [hasked] at hlanguage
    cases hlanguage
  · intro resolution hafter
    rw [hrun]
    exact h.resolved (hresolution ▸ hafter)

theorem Stage.Resolved.firstPhase {run : Run} (engine : Option Nat) :
    Stage.Resolved replied (.running run (firstPhase run.request engine) : Stage Load) := by
  rcases engine with _ | index
  · exact .of_none rfl rfl
  · rw [Studio.firstPhase]
    rcases hlanguage : run.request.highlighted? with _ | language
    · exact .of_none rfl rfl
    · dsimp only
      split
      · exact .of_none rfl rfl
      · constructor
        · intro language hasked
          obtain rfl := Option.some.inj hasked
          exact ⟨run, rfl, hlanguage⟩
        · intro resolution hresolution
          cases hresolution

/-- **A drawing that waits for its supplier goes on by a reply only**, with what the reply resolves to. -/
theorem reply_of_asked {task : Task Load} {run : Run} {engine : Nat} {language : Language}
    (hstep : studio.step model action = some next) (haction : action.task? = some number)
    (htask : studio.tasks[number]? = some task)
    (hstage : task.stage = .running run (.fetching engine language)) :
    ∃ reply, studio.reply? action = some reply ∧ reply.language = language ∧
      next = studio.setStage number (.running run (match reply.resolution with
        | .ok resolution => .checking engine resolution
        | .error fault => .drawn (some engine) (.error fault))) := by
  cases action with
  | call | render => cases haction
  | answer own answer =>
    obtain rfl := Option.some.inj haction
    refine ⟨⟨language, answer⟩, ?_, rfl, ?_⟩
    · simp only [reply?, htask, hstage, Stage.asked?, Option.bind_eq_bind, Option.bind_some,
        Option.pure_def]
    · simp only [step, Studio.answer, htask, hstage, Option.bind_eq_bind, Option.bind_some] at hstep
      exact (Option.some.inj hstep).symm
  | advance own world =>
    obtain rfl := Option.some.inj haction
    simp only [step, advance, htask, hstage, Option.bind_eq_bind, Option.bind_some, draw,
      Option.bind_eq_some_iff] at hstep
    obtain ⟨place, -, hnone⟩ := hstep
    cases hnone

/-- A move of a task that waits for no supplier keeps to its resolution. -/
theorem Move.resolved {stage : Stage Load} (hmove : Move model studio number station stage next)
    (hasked : stage.asked? = none) (h : Stage.Resolved replied stage) :
    ∃ after, next.tasks = (studio.setStage number after).tasks ∧ Stage.Resolved replied after := by
  cases hmove with
  | resolve | unresolved => cases hasked
  | read => exact ⟨_, rfl, .firstPhase _⟩
  | check | recheck =>
    refine ⟨_, rfl, ?_⟩
    split <;> exact h.going rfl rfl rfl
  | lock | start | load | loaded | unlock => exact ⟨_, rfl, h.going rfl rfl rfl⟩
  | _ => exact ⟨_, rfl, .of_none rfl rfl⟩

/-- **Every drawing keeps to what its language has resolved to** by a reply. -/
theorem resolved_run (hstart : start.tasks = []) (hrun : start.run model actions = some studio)
    {task : Task Load} (htask : studio.tasks[number]? = some task) :
    Stage.Resolved (replies model start actions) task.stage := by
  refine @run_induction _ _ _ model start (fun actions studio => ∀ number task,
    studio.tasks[number]? = some task → Stage.Resolved (replies model start actions) task.stage) ?_ ?_
    actions studio hrun number task htask
  · intro number task htask
    rw [hstart] at htask
    cases htask
  · intro done studio action next hrun hresolved hstep other task htask
    rw [replies_concat hrun hstep]
    rcases step_inv hstep with ⟨_, _, _, -, -, rfl⟩ | ⟨_, _, -, -, rfl⟩ |
      ⟨number, moved, haction, hmoved, hmove⟩
    · rcases getElem?_addTask_eq_some htask with ⟨-, rfl⟩ | ⟨-, hbefore⟩
      · exact .of_none rfl rfl
      · exact (hresolved other task hbefore).mono
    · rcases getElem?_addTask_eq_some htask with ⟨-, rfl⟩ | ⟨-, hbefore⟩
      · exact .of_none rfl rfl
      · exact (hresolved other task hbefore).mono
    · have hmine := hresolved number moved hmoved
      have hafter : ∃ after, next.tasks = (studio.setStage number after).tasks ∧
          Stage.Resolved (replies model start done ++ (studio.reply? action).toList) after := by
        rcases hasked : moved.stage.asked? with _ | language
        · obtain ⟨after, htasks, hafter⟩ := hmove.resolved hasked hmine
          exact ⟨after, htasks, hafter.mono⟩
        · obtain ⟨run, engine, hstage⟩ : ∃ run engine,
              moved.stage = .running run (.fetching engine language) := by
            unfold Stage.asked? at hasked
            split at hasked
            · rename_i hstage
              obtain rfl := Option.some.inj hasked
              exact ⟨_, _, hstage⟩
            · cases hasked
          obtain ⟨reply, hreply, rfl, rfl⟩ := reply_of_asked hstep haction hmoved hstage
          refine ⟨_, rfl, ?_⟩
          rcases hresolution : reply.resolution with fault | resolution
          · exact .of_none rfl rfl
          · refine ⟨nofun, fun hsame => ?_⟩
            obtain rfl := Option.some.inj hsame
            obtain ⟨same, hrun, hlanguage⟩ := hmine.asked hasked
            rw [hstage] at hrun
            obtain rfl := Option.some.inj hrun
            rw [hreply]
            exact ⟨run, rfl, reply, List.mem_append_right _ (List.mem_singleton_self _), hlanguage,
              hresolution⟩
      obtain ⟨after, htasks, hafter⟩ := hafter
      rw [htasks] at htask
      rcases getElem?_setStage_eq_some htask with ⟨-, before, -, rfl⟩ | ⟨-, hbefore⟩
      · exact hafter
      · exact (hresolved other task hbefore).mono

/-- **Every load is of what a language has resolved to** by a reply. -/
theorem resolved_of_loadEvents (hstart : start.tasks = []) (hrun : start.run model actions = some studio)
    {event : LoadEvent} (hevent : event ∈ loadEvents model start actions) :
    ∃ reply ∈ replies model start actions, reply.resolution = .ok event.resolution := by
  refine @run_induction _ _ _ model start (fun actions _ => ∀ event ∈ loadEvents model start actions,
    ∃ reply ∈ replies model start actions, reply.resolution = .ok event.resolution) ?_ ?_ actions studio
    hrun event hevent
  · exact nofun
  · intro done studio action next hrun hresolved hstep event hmem
    rw [replies_concat hrun hstep]
    rw [loadEvents_concat hrun hstep] at hmem
    rcases List.mem_append.mp hmem with hold | hnew
    · obtain ⟨reply, hreply, hresolution⟩ := hresolved event hold
      exact ⟨reply, List.mem_append_left _ hreply, hresolution⟩
    · rcases turn_of_step hstep with ⟨_, _, -, -, -, hnone⟩ | ⟨number, _, _, _, hturn, hsome⟩
      · rw [hnone] at hnew
        cases hnew
      · rw [hsome] at hnew
        have hbefore := resolved_run hstart hrun hturn.moved
        obtain ⟨-, -, -, run, ⟨-, rfl⟩ | ⟨-, load, rfl⟩⟩ :=
          hturn.load.event_inv (Option.mem_toList.mp hnew)
        all_goals
          obtain ⟨_, -, reply, hreply, -, hresolution⟩ := hbefore.resolved rfl
          exact ⟨reply, List.mem_append_left _ hreply, hresolution⟩

end Studio

end CodeMarkup
