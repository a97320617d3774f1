import CodeMarkup.Proofs.Studio.Rendering
import CodeMarkup.Proofs.Studio.ViewMove

/-!
# Publication

Any number of calls of a view may be in flight at once, each at its own stage, and engines are exchanged
while drawings go on. Two things are true of what the view shows all the same, in whatever order the
steps are taken.

A drawing is **published** only if its generation is the newest when that is checked, so generations are
published in rising order. And once no call is in flight, the drawing of the newest generation, if it did
not fail, is what is shown; it was drawn from the request that the view has now, with the engine that its
station has now.

The second needs an invariant (`Orderly`). A generation is stamped together with the request it is for, so
newer generations are for newer requests. An engine is exchanged before a generation is stamped for it,
so as long as the newest drawing may go by an old engine, some call is still about to stamp.
-/

namespace CodeMarkup

variable {World Engine Load : Type}

/-! ## Publications -/

/-- A drawing that a view came to show. -/
structure Publication where
  /-- the view, as the check found it -/
  found : View
  /-- the generation of the drawing -/
  generation : Nat
  /-- the markup that is shown from then on -/
  markup : String

/-- The drawing that is shown by a call that is over. -/
def Stage.applied? : Stage Load → Option (Run × String)
  | .ended (.applied run _ markup) => some (run, markup)
  | _ => none

namespace Studio

/-- What a view came to show by an action that led from one studio to the next. -/
def publication? (studio next : Studio Engine Load) (index : Nat) (action : Action World) :
    Option Publication := do
  let number ← action.task?
  let task ← next.tasks[number]?
  let (run, markup) ← task.stage.applied?
  let stamp ← run.stamp
  let view ← studio.views[stamp.view]?
  if stamp.view = index then return ⟨view, stamp.generation, markup⟩ else none

/-- What a view came to show in the course of a run, in order. -/
def publications (model : EngineModel World Engine Load) (index : Nat) (studio : Studio Engine Load) :
    List (Action World) → List Publication
  | [] => []
  | action :: rest =>
    match studio.step model action with
    | none => []
    | some next =>
      (studio.publication? next index action).toList ++ publications model index next rest

variable {model : EngineModel World Engine Load} {start studio next : Studio Engine Load}
  {number station index : Nat} {done actions : List (Action World)} {action : Action World}

theorem publications_concat (hrun : start.run model done = some studio)
    (hstep : studio.step model action = some next) :
    publications model index start (done ++ [action])
      = publications model index start done ++ (studio.publication? next index action).toList := by
  refine records_concat (publications model index) (fun studio next action =>
    (studio.publication? next index action).toList) (fun _ => rfl) ?_ hrun hstep
  intro studio next action rest hnext
  rw [publications, hnext]

/-! ## The invariant -/

/-- What is known of a drawing of a view: it is not newer than the view, and if it is the newest, it is a
drawing of the view's request, and what came of it is what is shown. -/
def Stage.Agrees (index : Nat) (view : View) (stage : Stage Load) : Prop :=
  ∀ run generation, stage.run? = some run → run.stamp = some ⟨index, generation⟩ →
    generation ≤ view.generation ∧
      (generation = view.generation → run.request = view.request ∧
        ∀ engine markup, stage.drawn? = some (run, engine, markup) → view.shown = markup)

/-- An engine is the one installed at a station, unless a view is about to stamp a drawing that will look
again. -/
def Settled (studio : Studio Engine Load) (index station : Nat) (engine : Option Nat) : Prop :=
  studio.installed? station = some engine ∨
    ∃ (number : Nat) (task : Task Load), studio.tasks[number]? = some task ∧
      task.stage = .stamping index

/-- **What every step preserves**, for a view whose home is a station. -/
structure Orderly (index station : Nat) (studio : Studio Engine Load) : Prop where
  /-- calls of the view are run where it is -/
  placed {number : Nat} {task : Task Load} : studio.tasks[number]? = some task →
    task.stage.inFlight? = some index → task.station = station
  /-- the engine there is exchanged through the view only -/
  alone {number other : Nat} {task : Task Load} : studio.tasks[number]? = some task →
    task.station = station → task.stage.swapper? = some other → other = index
  /-- a generation is stamped once -/
  unique {one other generation : Nat} {task twin : Task Load} : studio.tasks[one]? = some task →
    studio.tasks[other]? = some twin → task.stage.stamp? = some ⟨index, generation⟩ →
    twin.stage.stamp? = some ⟨index, generation⟩ → one = other
  /-- drawings agree with the view -/
  agrees {view : View} {number : Nat} {task : Task Load} : studio.views[index]? = some view →
    studio.tasks[number]? = some task → Stage.Agrees index view task.stage
  /-- the newest drawing goes by the installed engine, or another is about to be stamped -/
  engine {view : View} {number : Nat} {task : Task Load} {engine : Option Nat} :
    studio.views[index]? = some view → studio.tasks[number]? = some task →
    task.stage.stamp? = some ⟨index, view.generation⟩ → task.stage.engine? = some engine →
    studio.Settled index station engine

/-! ### Agreement -/

/-- What came of a drawing is known together with the drawing and its engine. -/
theorem Stage.run?_and_engine?_of_drawn? {stage : Stage Load} {run : Run} {engine : Option Nat}
    {markup : String} (h : stage.drawn? = some (run, engine, markup)) :
    stage.run? = some run ∧ stage.engine? = some engine := by
  rcases stage with _ | _ | _ | _ | ending
  case ended =>
    cases ending <;> cases h <;> exact ⟨rfl, rfl⟩
  all_goals cases h

theorem Stage.Agrees.of_run?_eq_none {view : View} {stage : Stage Load} (h : stage.run? = none) :
    Stage.Agrees index view stage := by
  intro run generation hrun
  rw [h] at hrun
  cases hrun

/-- A drawing for another view, or for none, agrees. -/
theorem Stage.Agrees.of_stamp {view : View} {stage : Stage Load}
    (h : ∀ generation, stage.stamp? ≠ some ⟨index, generation⟩) : Stage.Agrees index view stage := by
  intro run generation hrun hstamp
  refine absurd ?_ (h generation)
  rw [Stage.stamp?, hrun, Option.bind_some, hstamp]

/-- A drawing whose result is not known yet agrees if it did before. -/
theorem Stage.Agrees.going {view : View} {stage after : Stage Load} (h : Stage.Agrees index view stage)
    (hrun : after.run? = stage.run?) (hdrawn : after.drawn? = none) :
    Stage.Agrees index view after := by
  intro run generation hafter hstamp
  obtain ⟨hle, hnewest⟩ := h run generation (hrun ▸ hafter) hstamp
  refine ⟨hle, fun heq => ⟨(hnewest heq).1, fun engine markup hmarkup => ?_⟩⟩
  rw [hdrawn] at hmarkup
  cases hmarkup

/-- Drawings are overtaken by the next stamp. -/
theorem Stage.Agrees.overtaken {view : View} {stage : Stage Load} {request : Request}
    (h : Stage.Agrees index view stage) : Stage.Agrees index
      { view with request := request, generation := view.generation + 1 } stage := by
  intro run generation hrun hstamp
  have hle := (h run generation hrun hstamp).1
  exact ⟨Nat.le_succ_of_le hle, fun heq => absurd heq (by dsimp only; omega)⟩

/-- A drawing that is not the newest agrees whatever is shown. -/
theorem Stage.Agrees.shown {view : View} {stage : Stage Load} {markup : String} {count : Nat}
    (h : Stage.Agrees index view stage) (hother : stage.stamp? ≠ some ⟨index, view.generation⟩) :
    Stage.Agrees index { view with shown := markup, changes := count } stage := by
  intro run generation hrun hstamp
  refine ⟨(h run generation hrun hstamp).1, fun heq => absurd ?_ hother⟩
  rw [Stage.stamp?, hrun, Option.bind_some, hstamp, heq]

/-! ### One move -/

variable {moved : Task Load}

/-- What a move makes of its task: a call is in flight for its view as before, or no more, and a stamp is
the one it had or the next. -/
theorem ViewMove.after {stage : Stage Load} (hmove : ViewMove studio number station stage next) :
    ∃ after, next.tasks = (studio.setStage number after).tasks ∧
      (after.inFlight? = none ∨ after.inFlight? = stage.inFlight?) ∧
      (after.swapper? = none ∨ after.swapper? = stage.swapper?) ∧
      (after.stamp? = none ∨ after.stamp? = stage.stamp? ∨
        ∃ (other : Nat) (view : View), studio.views[other]? = some view ∧
          after.stamp? = some ⟨other, view.generation + 1⟩) := by
  cases hmove with
  | leave => exact ⟨_, rfl, .inl rfl, .inl rfl, .inl rfl⟩
  | choose => exact ⟨_, rfl, .inr rfl, .inr rfl, .inl rfl⟩
  | swap => exact ⟨_, rfl, .inr rfl, .inl rfl, .inl rfl⟩
  | stamp hstage hview =>
    exact ⟨_, rfl, .inr hstage.symm, .inl rfl, .inr (.inr ⟨_, _, hview, rfl⟩)⟩
  | read => exact ⟨_, rfl, .inr rfl, .inl rfl, .inr (.inl rfl)⟩
  | work _ _ _ _ htasks => exact ⟨_, htasks, .inr rfl, .inl rfl, .inr (.inl rfl)⟩
  | fail | deliver | drop | publish => exact ⟨_, rfl, .inl rfl, .inl rfl, .inr (.inl rfl)⟩

theorem Orderly.agrees_of_setStage {after : Stage Load} {view : View} {other : Nat} {task : Task Load}
    (h : studio.Orderly index station) (hview : studio.views[index]? = some view)
    (hafter : Stage.Agrees index view after)
    (htask : (studio.setStage number after).tasks[other]? = some task) :
    Stage.Agrees index view task.stage := by
  rcases getElem?_setStage_eq_some htask with ⟨-, before, -, rfl⟩ | ⟨-, hbefore⟩
  · exact hafter
  · exact h.agrees hview hbefore

/-- Drawings agree with the view after a move. -/
theorem Orderly.agrees_of_viewMove {view : View} {other : Nat} {task : Task Load}
    (h : studio.Orderly index station) (hmoved : studio.tasks[number]? = some moved)
    (hmove : ViewMove studio number moved.station moved.stage next)
    (hview : next.views[index]? = some view) (htask : next.tasks[other]? = some task) :
    Stage.Agrees index view task.stage := by
  rcases moved with ⟨place, stage⟩
  cases hmove with
  | leave | choose | swap => exact h.agrees_of_setStage hview (.of_run?_eq_none rfl) htask
  | read | fail =>
    refine h.agrees_of_setStage hview ?_ htask
    exact (h.agrees hview hmoved).going rfl rfl
  | work hbefore hafter hviews hstations htasks =>
    rw [hviews] at hview
    rw [htasks] at htask
    refine h.agrees_of_setStage hview ?_ htask
    exact (h.agrees hview hmoved).going rfl rfl
  | deliver hstamp =>
    refine h.agrees_of_setStage hview (.of_stamp fun generation hstamped => ?_) htask
    rw [Stage.stamp?, show Stage.run? _ = some _ from rfl, Option.bind_some, hstamp] at hstamped
    cases hstamped
  | @drop run engine markup stamp found hstamp hfound hlate =>
    refine h.agrees_of_setStage hview ?_ htask
    intro again generation hrun hagain
    obtain rfl := Option.some.inj hrun
    obtain rfl := Option.some.inj (hstamp.symm.trans hagain)
    obtain rfl := Option.some.inj (hview.symm.trans hfound)
    -- it is older than the view, so nothing is said of what is shown
    exact ⟨(h.agrees hview hmoved _ _ rfl hstamp).1, fun heq => absurd heq.symm hlate⟩
  | @stamp stage own found request hstage hfound =>
    rcases getElem?_modify_eq_some hview with ⟨rfl, before, hbefore, rfl⟩ | ⟨hown, hbefore⟩
    · obtain rfl := Option.some.inj (hbefore.symm.trans hfound)
      rcases getElem?_setStage_eq_some htask with ⟨-, -, -, rfl⟩ | ⟨-, hother⟩
      · intro run generation hrun hstamp
        obtain rfl := Option.some.inj hrun
        obtain ⟨-, rfl⟩ := Stamp.mk.inj (Option.some.inj hstamp)
        exact ⟨Nat.le_refl _, fun _ => ⟨rfl, by rintro engine markup ⟨⟩⟩⟩
      · exact (h.agrees hbefore hother).overtaken
    · refine h.agrees_of_setStage hbefore (.of_stamp fun generation hstamp => ?_) htask
      exact hown (Stamp.mk.inj (Option.some.inj hstamp)).1.symm
  | @publish run engine markup stamp found count hstamp hfound hnewest =>
    rcases getElem?_modify_eq_some hview with ⟨rfl, before, hbefore, rfl⟩ | ⟨hown, hbefore⟩
    · obtain rfl := Option.some.inj (hbefore.symm.trans hfound)
      have hmine : Stage.stamp? (.running run (.drawn engine (.ok markup)) : Stage Load)
          = some ⟨stamp.view, before.generation⟩ := by
        rw [hnewest]
        exact hstamp
      rcases getElem?_setStage_eq_some htask with ⟨-, -, -, rfl⟩ | ⟨hother, hsame⟩
      · intro again generation hrun hagain
        obtain rfl := Option.some.inj hrun
        obtain ⟨hle, hrequest⟩ := h.agrees hbefore hmoved _ _ rfl hagain
        refine ⟨hle, fun heq => ⟨(hrequest heq).1, ?_⟩⟩
        rintro engine markup ⟨⟩
        rfl
      · refine (h.agrees hbefore hsame).shown fun htwin => hother ?_
        exact h.unique hsame hmoved htwin hmine
    · refine h.agrees_of_setStage hbefore (.of_stamp fun generation hagain => ?_) htask
      have heq := Option.some.inj (hstamp.symm.trans hagain)
      exact hown (congrArg Stamp.view heq).symm

/-- The newest drawing goes by the installed engine after a move that exchanges none and stamps nothing
for the view, unless a stamp was pending before. -/
theorem Orderly.engine_of_setStage {after : Stage Load} {view : View} {other : Nat} {task : Task Load}
    {engine : Option Nat} (h : studio.Orderly index station)
    (hmoved : studio.tasks[number]? = some moved) (hstage : moved.stage ≠ .stamping index)
    (hview : studio.views[index]? = some view)
    (hinstalled : next.installed? station = studio.installed? station)
    (htasks : next.tasks = (studio.setStage number after).tasks)
    (hafter : after.stamp? = some ⟨index, view.generation⟩ → after.engine? = some engine →
      studio.Settled index station engine)
    (htask : next.tasks[other]? = some task)
    (hstamp : task.stage.stamp? = some ⟨index, view.generation⟩)
    (hengine : task.stage.engine? = some engine) : next.Settled index station engine := by
  have hsettled : studio.Settled index station engine := by
    rw [htasks] at htask
    rcases getElem?_setStage_eq_some htask with ⟨-, before, -, rfl⟩ | ⟨-, hbefore⟩
    · exact hafter hstamp hengine
    · exact h.engine hview hbefore hstamp hengine
  rcases hsettled with hplace | ⟨waiting, call, hcall, hwaits⟩
  · exact Or.inl (hinstalled.trans hplace)
  · -- the call that waits is not the one that moved
    have hne : number ≠ waiting := by
      rintro rfl
      obtain rfl := Option.some.inj (hcall.symm.trans hmoved)
      exact hstage hwaits
    refine Or.inr ⟨waiting, call, ?_, hwaits⟩
    rw [htasks, setStage, List.getElem?_modify_ne _ _ hne, hcall]

/-- The newest drawing goes by the installed engine after a move, unless a stamp is pending. -/
theorem Orderly.engine_of_viewMove {view : View} {other : Nat} {task : Task Load}
    {engine : Option Nat} (h : studio.Orderly index station)
    (hmoved : studio.tasks[number]? = some moved)
    (hmove : ViewMove studio number moved.station moved.stage next)
    (hview : next.views[index]? = some view) (htask : next.tasks[other]? = some task)
    (hstamp : task.stage.stamp? = some ⟨index, view.generation⟩)
    (hengine : task.stage.engine? = some engine) : next.Settled index station engine := by
  rcases moved with ⟨place, stage⟩
  cases hmove with
  | leave | choose =>
    refine h.engine_of_setStage hmoved ?_ hview rfl rfl ?_ htask hstamp hengine <;> rintro ⟨⟩
  | fail =>
    refine h.engine_of_setStage hmoved ?_ hview rfl rfl (fun _ => ?_) htask hstamp hengine <;>
      rintro ⟨⟩
  | @read run found hfound =>
    refine h.engine_of_setStage hmoved (by rintro ⟨⟩) hview rfl rfl (fun hafter hread => ?_) htask
      hstamp hengine
    rw [Stage.engine?, engine?_firstPhase] at hread
    obtain rfl := Option.some.inj hread
    have hflight : Stage.inFlight? (.running run .reading : Stage Load) = some index := by
      rw [Stage.inFlight?, show run.stamp = some ⟨index, view.generation⟩ from hafter]
      rfl
    obtain rfl : place = station := h.placed hmoved hflight
    exact Or.inl (by rw [installed?, hfound]; rfl)
  | work hbefore hafter hviews hstations htasks =>
    rw [hviews] at hview
    refine h.engine_of_setStage hmoved (by rintro ⟨⟩) hview (congrFun hstations station) htasks
      (fun hmine hwith => ?_) htask hstamp hengine
    refine h.engine hview hmoved hmine ?_
    exact hbefore.trans (hafter.symm.trans hwith)
  | deliver | drop =>
    exact h.engine_of_setStage hmoved (by rintro ⟨⟩) hview rfl rfl (h.engine hview hmoved) htask
      hstamp hengine
  | @swap through choice =>
    by_cases hplace : place = station
    · -- the exchange is through the view itself, which will stamp next
      obtain rfl : through = index := h.alone hmoved hplace rfl
      refine Or.inr ⟨number, ⟨place, .stamping through⟩, ?_, rfl⟩
      rw [setStage, List.getElem?_modify_eq]
      exact congrArg _ hmoved
    · have hinstalled : (studio.modifyStation place fun each => { each with engine := choice }).installed?
          station = studio.installed? station := by
        rw [installed?, modifyStation, List.getElem?_modify_ne _ _ hplace, installed?]
      refine h.engine_of_setStage hmoved ?_ hview hinstalled rfl ?_ htask hstamp hengine <;>
        rintro ⟨⟩
  | @stamp stage own found request hstage hfound =>
    rcases getElem?_modify_eq_some hview with ⟨rfl, before, hbefore, rfl⟩ | ⟨hown, hbefore⟩
    · rcases getElem?_setStage_eq_some htask with ⟨-, each, -, rfl⟩ | ⟨-, hother⟩
      · cases hengine
      · -- no drawing was as new as the one that is stamped
        obtain ⟨run, hrun, hnewest⟩ := Option.bind_eq_some_iff.mp hstamp
        have hle := (h.agrees hbefore hother run _ hrun hnewest).1
        obtain rfl := Option.some.inj (hbefore.symm.trans hfound)
        dsimp only at hle
        omega
    · have hstage' : stage ≠ .stamping index := by
        rintro rfl
        exact hown (Option.some.inj hstage)
      refine h.engine_of_setStage hmoved hstage' hbefore rfl rfl (fun hafter => ?_) htask hstamp hengine
      exact absurd (Stamp.mk.inj (Option.some.inj hafter)).1.symm hown
  | @publish run choice markup stamp found count hown hfound hnewest =>
    have hbefore : ∃ before, studio.views[index]? = some before ∧
        before.generation = view.generation := by
      rcases getElem?_modify_eq_some hview with ⟨rfl, before, hbefore, rfl⟩ | ⟨-, hbefore⟩
      · exact ⟨before, hbefore, rfl⟩
      · exact ⟨view, hbefore, rfl⟩
    obtain ⟨before, hbefore, hgeneration⟩ := hbefore
    rw [← hgeneration] at hstamp
    exact h.engine_of_setStage hmoved (by rintro ⟨⟩) hbefore rfl rfl (h.engine hbefore hmoved) htask
      hstamp hengine

/-- What a move makes of its task has the stamp of no other. -/
theorem Orderly.unique_after {after : Stage Load} {other generation : Nat} {twin : Task Load}
    (h : studio.Orderly index station) (hmoved : studio.tasks[number]? = some moved)
    (hstamped : after.stamp? = none ∨ after.stamp? = moved.stage.stamp? ∨
      ∃ (other : Nat) (view : View), studio.views[other]? = some view ∧
        after.stamp? = some ⟨other, view.generation + 1⟩)
    (htwin : studio.tasks[other]? = some twin) (hafter : after.stamp? = some ⟨index, generation⟩)
    (hstamp : twin.stage.stamp? = some ⟨index, generation⟩) : number = other := by
  rcases hstamped with hnone | hsame | ⟨own, view, hview, hnew⟩
  · cases hnone.symm.trans hafter
  · exact h.unique hmoved htwin (hsame.symm.trans hafter) hstamp
  · -- the stamp is newer than all there were
    obtain ⟨rfl, rfl⟩ := Stamp.mk.inj (Option.some.inj (hnew.symm.trans hafter))
    obtain ⟨run, hrun, hnewer⟩ := Option.bind_eq_some_iff.mp hstamp
    have hle := (h.agrees hview htwin run _ hrun hnewer).1
    omega

/-- **A move keeps order.** -/
theorem Orderly.viewMove (h : studio.Orderly index station)
    (hmoved : studio.tasks[number]? = some moved)
    (hmove : ViewMove studio number moved.station moved.stage next) :
    next.Orderly index station := by
  obtain ⟨after, htasks, hflight, hswapper, hstamped⟩ := hmove.after
  refine
    { placed := ?placed
      alone := ?alone
      unique := ?unique
      agrees := fun hview htask => h.agrees_of_viewMove hmoved hmove hview htask
      engine := fun hview htask hstamp hengine =>
        h.engine_of_viewMove hmoved hmove hview htask hstamp hengine }
  case placed =>
    intro other task htask hmine
    rw [htasks] at htask
    rcases getElem?_setStage_eq_some htask with ⟨-, before, hbefore, rfl⟩ | ⟨-, hbefore⟩
    · obtain rfl := Option.some.inj (hbefore.symm.trans hmoved)
      rcases hflight with hnone | hsame
      · cases hnone.symm.trans hmine
      · have hplace := h.placed hmoved (hsame.symm.trans hmine)
        exact hplace
    · exact h.placed hbefore hmine
  case alone =>
    intro other through task htask hplace hthrough
    rw [htasks] at htask
    rcases getElem?_setStage_eq_some htask with ⟨-, before, hbefore, rfl⟩ | ⟨-, hbefore⟩
    · obtain rfl := Option.some.inj (hbefore.symm.trans hmoved)
      rcases hswapper with hnone | hsame
      · cases hnone.symm.trans hthrough
      · exact h.alone hmoved hplace (hsame.symm.trans hthrough)
    · exact h.alone hbefore hplace hthrough
  case unique =>
    intro one other task twin generation htask htwin hone hother
    rw [htasks] at htask htwin
    rcases getElem?_setStage_eq_some htask with ⟨rfl, before, -, rfl⟩ | ⟨-, hbefore⟩ <;>
      rcases getElem?_setStage_eq_some htwin with ⟨rfl, twin, -, rfl⟩ | ⟨-, hbefore'⟩
    · rfl
    · exact h.unique_after hmoved hstamped hbefore' hone hother
    · exact (h.unique_after hmoved hstamped hbefore hother hone).symm
    · exact h.unique hbefore hbefore' hone hother

/-- A call that has no stamp keeps order, if it is made where its view is and exchanges no engine through
another view. -/
theorem Orderly.addTask {place : Nat} {stage : Stage Load} (h : studio.Orderly index station)
    (hplaced : stage.inFlight? = some index → place = station)
    (halone : ∀ other, place = station → stage.swapper? = some other → other = index)
    (hstamp : stage.stamp? = none) : (studio.addTask place stage).Orderly index station := by
  refine
    { placed := ?placed
      alone := ?alone
      unique := ?unique
      agrees := ?agrees
      engine := ?engine }
  case placed =>
    intro number task htask hmine
    rcases getElem?_addTask_eq_some htask with ⟨-, rfl⟩ | ⟨-, hbefore⟩
    · exact hplaced hmine
    · exact h.placed hbefore hmine
  case alone =>
    intro number other task htask hplace hthrough
    rcases getElem?_addTask_eq_some htask with ⟨-, rfl⟩ | ⟨-, hbefore⟩
    · exact halone other hplace hthrough
    · exact h.alone hbefore hplace hthrough
  case unique =>
    intro one other generation task twin htask htwin hone hother
    rcases getElem?_addTask_eq_some htask with ⟨-, rfl⟩ | ⟨-, hbefore⟩
    · cases hstamp.symm.trans hone
    · rcases getElem?_addTask_eq_some htwin with ⟨-, rfl⟩ | ⟨-, hbefore'⟩
      · cases hstamp.symm.trans hother
      · exact h.unique hbefore hbefore' hone hother
  case agrees =>
    intro view number task hview htask
    rcases getElem?_addTask_eq_some htask with ⟨-, rfl⟩ | ⟨-, hbefore⟩
    · exact .of_stamp fun generation hmine => by cases hstamp.symm.trans hmine
    · exact h.agrees hview hbefore
  case engine =>
    intro view number task engine hview htask hnewest hengine
    rcases getElem?_addTask_eq_some htask with ⟨-, rfl⟩ | ⟨-, hbefore⟩
    · cases hstamp.symm.trans hnewest
    · rcases h.engine hview hbefore hnewest hengine with hplace | ⟨other, waiting, hwaiting, hwaits⟩
      · exact Or.inl hplace
      · have hlt := (List.getElem?_eq_some_iff.mp hwaiting).1
        exact Or.inr ⟨other, waiting, (List.getElem?_append_left hlt).trans hwaiting, hwaits⟩

/-- Engines at the station of a view are exchanged through that view only. -/
def SwappedOnlyThrough (homes : List Nat) (index : Nat) (actions : List (Action World)) : Prop :=
  ∀ other engine, .call other (.setEngine engine) ∈ actions → homes[other]? = homes[index]? →
    other = index

/-- **A step keeps order**, if it exchanges no engine there through another view. -/
theorem Orderly.step {homes : List Nat} (h : studio.Orderly index station)
    (hhomes : studio.views.map (·.station) = homes) (hindex : homes[index]? = some station)
    (hswapped : SwappedOnlyThrough homes index [action])
    (hstep : studio.step model action = some next) : next.Orderly index station := by
  rcases step_inv hstep with ⟨own, call, view, rfl, hview, rfl⟩ | ⟨place, request, -, -, rfl⟩ |
    ⟨number, moved, -, hmoved, hmove⟩
  · have hhome : homes[own]? = some view.station := by
      rw [← hhomes, List.getElem?_map, hview]
      rfl
    refine h.addTask ?_ ?_ rfl
    · intro hown
      obtain rfl := Option.some.inj hown
      exact Option.some.inj (hhome.symm.trans hindex)
    · rintro other rfl hthrough
      cases call with
      | setEngine engine =>
        obtain rfl := Option.some.inj hthrough
        exact hswapped own engine (List.mem_singleton_self _) (hhome.trans hindex.symm)
      | change | refresh => cases hthrough
  · exact h.addTask nofun nofun rfl
  · exact h.viewMove hmoved hmove.viewMove

/-! ## Publications in order -/

theorem publication?_of_setStage {after : Stage Load} (haction : action.task? = some number)
    (hmoved : studio.tasks[number]? = some moved)
    (htasks : next.tasks = (studio.setStage number after).tasks) :
    studio.publication? next index action = after.applied?.bind fun (run, markup) => (do
      let stamp ← run.stamp
      let view ← studio.views[stamp.view]?
      if stamp.view = index then return ⟨view, stamp.generation, markup⟩ else none) := by
  have htask : next.tasks[number]? = some { moved with stage := after } := by
    rw [htasks, setStage, List.getElem?_modify_eq, hmoved]
    rfl
  simp only [publication?, haction, htask, Option.bind_eq_bind, Option.bind_some]

/-- What a move publishes: nothing, and what is shown stays; or a drawing of the newest generation. -/
theorem publication?_of_viewMove (haction : action.task? = some number)
    (hmoved : studio.tasks[number]? = some moved)
    (hmove : ViewMove studio number moved.station moved.stage next) :
    (studio.publication? next index action = none ∧
      ∀ view, next.views[index]? = some view →
        ∃ before, studio.views[index]? = some before ∧ before.shown = view.shown) ∨
    ∃ run engine markup before, moved.stage = .running run (.drawn engine (.ok markup)) ∧
      studio.views[index]? = some before ∧ run.stamp = some ⟨index, before.generation⟩ ∧
      studio.publication? next index action = some ⟨before, before.generation, markup⟩ ∧
      next.tasks = (studio.setStage number (.ended (.applied run engine markup))).tasks ∧
      ∀ view, next.views[index]? = some view → view.shown = markup := by
  rcases moved with ⟨place, stage⟩
  cases hmove with
  | leave | choose | swap | read | fail | deliver | drop =>
    exact Or.inl ⟨publication?_of_setStage haction hmoved rfl, fun view hview => ⟨view, hview, rfl⟩⟩
  | work hbefore hafter hviews hstations htasks =>
    rw [hviews]
    exact Or.inl ⟨publication?_of_setStage haction hmoved htasks, fun view hview => ⟨view, hview, rfl⟩⟩
  | @stamp stage own found request hstage hfound =>
    refine Or.inl ⟨publication?_of_setStage haction hmoved rfl, fun view hview => ?_⟩
    rcases getElem?_modify_eq_some hview with ⟨rfl, before, hbefore, rfl⟩ | ⟨-, hbefore⟩
    · exact ⟨before, hbefore, rfl⟩
    · exact ⟨view, hbefore, rfl⟩
  | @publish run engine markup stamp found count hstamp hfound hnewest =>
    have hpublished := @publication?_of_setStage World Engine Load studio
      ((studio.setStage number (.ended (.applied run engine markup))).modifyView stamp.view
        fun view => { view with shown := markup, changes := count view.changes })
      number index action _ _ haction hmoved rfl
    simp only [Stage.applied?, Option.bind_some, hstamp, hfound, Option.bind_eq_bind] at hpublished
    by_cases hown : stamp.view = index
    · subst hown
      rw [if_pos rfl, ← hnewest] at hpublished
      refine Or.inr ⟨run, engine, markup, found, rfl, hfound, ?_, hpublished, rfl, ?_⟩
      · rw [hstamp, hnewest]
      · intro view hview
        rcases getElem?_modify_eq_some hview with ⟨-, before, -, rfl⟩ | ⟨hne, -⟩
        · rfl
        · exact absurd rfl hne
    · rw [if_neg hown] at hpublished
      refine Or.inl ⟨hpublished, fun view hview => ?_⟩
      rcases getElem?_modify_eq_some hview with ⟨hsame, -⟩ | ⟨-, hbefore⟩
      · exact absurd hsame.symm hown
      · exact ⟨view, hbefore, rfl⟩

/-- **What every step preserves of what was published.** -/
structure Chronicled (index : Nat) (studio : Studio Engine Load) (published : List Publication) :
    Prop where
  /-- only the newest generation was published -/
  newest : ∀ publication ∈ published, publication.generation = publication.found.generation
  /-- each generation was published after the older ones -/
  rising : published.Pairwise (·.generation < ·.generation)
  /-- what was published is over -/
  finished : ∀ publication ∈ published, ∃ (number : Nat) (task : Task Load),
    studio.tasks[number]? = some task ∧ task.stage.isEnded = true ∧
      task.stage.stamp? = some ⟨index, publication.generation⟩
  /-- what was published last is shown -/
  shown : ∀ view, studio.views[index]? = some view →
    view.shown = (published.getLast?.map (·.markup)).getD ""

/-- What is over stays over. -/
theorem getElem?_of_isEnded {other : Nat} {task : Task Load}
    (hstep : studio.step model action = some next) (htask : studio.tasks[other]? = some task)
    (hended : task.stage.isEnded = true) : next.tasks[other]? = some task := by
  have hlt := (List.getElem?_eq_some_iff.mp htask).1
  rcases step_inv hstep with ⟨own, call, view, -, -, rfl⟩ | ⟨place, request, -, -, rfl⟩ |
    ⟨number, moved, -, hmoved, hmove⟩
  · exact (List.getElem?_append_left hlt).trans htask
  · exact (List.getElem?_append_left hlt).trans htask
  · have hne : number ≠ other := by
      rintro rfl
      obtain rfl := Option.some.inj (hmoved.symm.trans htask)
      rcases moved with ⟨place, stage⟩
      cases hmove <;> cases hended
    obtain ⟨after, htasks, -⟩ := hmove.viewMove.after
    rw [htasks, setStage, List.getElem?_modify_ne _ _ hne, htask]

/-- **A step keeps the chronicle.** -/
theorem Chronicled.step {published : List Publication} (h : Chronicled index studio published)
    (horder : studio.Orderly index station) (hstep : studio.step model action = some next) :
    Chronicled index next (published ++ (studio.publication? next index action).toList) := by
  have hover : ∀ publication ∈ published, ∃ (number : Nat) (task : Task Load),
      next.tasks[number]? = some task ∧ task.stage.isEnded = true ∧
        task.stage.stamp? = some ⟨index, publication.generation⟩ := by
    intro publication hmem
    obtain ⟨number, task, htask, hended, hstamp⟩ := h.finished publication hmem
    exact ⟨number, task, getElem?_of_isEnded hstep htask hended, hended, hstamp⟩
  have hquiet : studio.publication? next index action = none →
      (∀ view, next.views[index]? = some view →
        ∃ before, studio.views[index]? = some before ∧ before.shown = view.shown) →
      Chronicled index next (published ++ (studio.publication? next index action).toList) := by
    intro hnone hviews
    rw [hnone, Option.toList_none, List.append_nil]
    refine ⟨h.newest, h.rising, hover, fun view hview => ?_⟩
    obtain ⟨before, hbefore, hshown⟩ := hviews view hview
    rw [← hshown, h.shown before hbefore]
  rcases step_inv hstep with ⟨own, call, view, rfl, -, rfl⟩ | ⟨place, request, rfl, -, rfl⟩ |
    ⟨number, moved, haction, hmoved, hmove⟩
  · exact hquiet rfl fun view hview => ⟨view, hview, rfl⟩
  · exact hquiet rfl fun view hview => ⟨view, hview, rfl⟩
  · rcases publication?_of_viewMove haction hmoved hmove.viewMove with ⟨hnone, hviews⟩ |
      ⟨run, engine, markup, before, hstage, hbefore, hstamp, hpublished, htasks, hshown⟩
    · exact hquiet hnone hviews
    · rw [hpublished, Option.toList_some]
      have hmine : moved.stage.stamp? = some ⟨index, before.generation⟩ := by
        rw [hstage]
        exact hstamp
      -- the older publications are over, and this drawing was not
      have hlater : ∀ publication ∈ published, publication.generation < before.generation := by
        intro publication hmem
        obtain ⟨other, task, htask, hended, hother⟩ := h.finished publication hmem
        obtain ⟨again, hagain, hgeneration⟩ := Option.bind_eq_some_iff.mp hother
        have hle := (horder.agrees hbefore htask again _ hagain hgeneration).1
        refine Nat.lt_of_le_of_ne hle fun heq => ?_
        obtain rfl := horder.unique htask hmoved (heq ▸ hother) hmine
        obtain rfl := Option.some.inj (htask.symm.trans hmoved)
        rw [hstage] at hended
        cases hended
      refine
        { newest := ?newest
          rising := ?rising
          finished := ?finished
          shown := ?shown }
      case newest =>
        intro publication hmem
        rcases List.mem_append.mp hmem with hold | hnew
        · exact h.newest publication hold
        · obtain rfl := List.mem_singleton.mp hnew
          rfl
      case rising =>
        refine List.pairwise_append.mpr ⟨h.rising, List.pairwise_singleton .., ?_⟩
        intro publication hmem last hlast
        obtain rfl := List.mem_singleton.mp hlast
        exact hlater publication hmem
      case finished =>
        intro publication hmem
        rcases List.mem_append.mp hmem with hold | hnew
        · exact hover publication hold
        · obtain rfl := List.mem_singleton.mp hnew
          refine ⟨number, { moved with stage := .ended (.applied run engine markup) }, ?_, rfl, hstamp⟩
          rw [htasks, setStage, List.getElem?_modify_eq, hmoved]
          rfl
      case shown =>
        intro view hview
        rw [hshown view hview, List.getLast?_append, List.getLast?_singleton]
        rfl

/-! ## Runs -/

theorem map_station_initial (engines : List Engine) (stations : List (Option Nat)) (views : List Nat) :
    (initial engines stations views : Studio Engine Load).views.map (·.station) = views := by
  simp [initial, Function.comp_def, View.ofStation]

/-- **A run keeps order and its chronicle.** -/
theorem orderly_run {engines : List Engine} {stations : List (Option Nat)} {views : List Nat}
    (hindex : views[index]? = some station) (hswapped : SwappedOnlyThrough views index actions)
    (hrun : (initial engines stations views).run model actions = some studio) :
    studio.Orderly index station ∧ Chronicled index studio
      (publications model index (initial engines stations views) actions) := by
  refine @run_induction _ _ _ model (initial engines stations views) (fun actions studio =>
    SwappedOnlyThrough views index actions → studio.Orderly index station ∧ Chronicled index
      studio (publications model index (initial engines stations views) actions)) ?_ ?_ actions studio
    hrun hswapped
  · intro _
    have hview : ∀ view, (views.map View.ofStation)[index]? = some view → view.shown = "" := by
      intro view hview
      rw [List.getElem?_map, hindex] at hview
      obtain rfl := Option.some.inj hview
      rfl
    exact ⟨⟨nofun, nofun, nofun, nofun, nofun⟩, ⟨nofun, .nil, nofun, hview⟩⟩
  · intro done studio action next hrun hbefore hstep hswapped
    obtain ⟨horder, hchronicle⟩ := hbefore fun other engine hmem =>
      hswapped other engine (List.mem_append_left _ hmem)
    have hlast : SwappedOnlyThrough views index [action] := fun other engine hmem =>
      hswapped other engine (List.mem_append_right _ hmem)
    have hhomes := (map_station_run hrun).trans (map_station_initial engines stations views)
    rw [publications_concat hrun hstep]
    exact ⟨horder.step hhomes hindex hlast hstep, hchronicle.step horder hstep⟩

/-- **What a view shows is in step with its request and its engine**, in whatever order calls, drawings and
exchanges of the engine take their steps, if the engine is exchanged through that view only.

Only the newest generation is ever published, so generations are published in rising order, and what was
published last is shown. Once no call of the view is in flight, the drawing of the newest generation, if
it did not fail, is what is shown: it is a rendering of the request that the view has, by the engine that
is installed. -/
theorem display_in_step {engines : List Engine} {stations : List (Option Nat)} {views : List Nat}
    {view : View} (hswapped : SwappedOnlyThrough views index actions)
    (hrun : (initial engines stations views).run model actions = some studio)
    (hview : studio.views[index]? = some view) :
    (∀ publication ∈ publications model index (initial engines stations views) actions,
      publication.generation = publication.found.generation) ∧
    (publications model index (initial engines stations views) actions).Pairwise
      (·.generation < ·.generation) ∧
    view.shown = ((publications model index (initial engines stations views) actions).getLast?.map
      (·.markup)).getD "" ∧
    ((∀ task ∈ studio.tasks, task.stage.inFlight? ≠ some index) →
      ∀ task ∈ studio.tasks, ∀ run engine markup, task.stage.drawn? = some (run, engine, markup) →
        run.stamp = some ⟨index, view.generation⟩ →
        view.shown = markup ∧ run.request = view.request ∧
          studio.installed? view.station = some engine ∧
          Rendering model (initial engines stations views) actions view.request engine markup) := by
  have hhomes := (map_station_run hrun).trans (map_station_initial engines stations views)
  have hindex : views[index]? = some view.station := by
    rw [← hhomes, List.getElem?_map, hview]
    rfl
  obtain ⟨horder, hchronicle⟩ := orderly_run hindex hswapped hrun
  refine ⟨hchronicle.newest, hchronicle.rising, hchronicle.shown view hview, ?_⟩
  intro hnone task hmem run engine markup hdrawn hstamp
  obtain ⟨number, htask⟩ := List.mem_iff_getElem?.mp hmem
  have hrunning : task.stage.run? = some run ∧ task.stage.engine? = some engine :=
    Stage.run?_and_engine?_of_drawn? hdrawn
  obtain ⟨hrequest, hshown⟩ := (horder.agrees hview htask run _ hrunning.1 hstamp).2 rfl
  refine ⟨hshown engine markup hdrawn, hrequest, ?_, ?_⟩
  · have hnewest : task.stage.stamp? = some ⟨index, view.generation⟩ := by
      rw [Stage.stamp?, hrunning.1, Option.bind_some, hstamp]
    rcases horder.engine hview htask hnewest hrunning.2 with hplace | ⟨other, waiting, hwaiting, hwaits⟩
    · exact hplace
    · refine absurd ?_ (hnone waiting (List.mem_of_getElem? hwaiting))
      rw [hwaits]
      rfl
  · rw [← hrequest]
    exact (stage_sound rfl hrun htask).rendering hdrawn

/-- A highlighter that cannot parse, a station without an engine, and a view there. -/
def bareStudio : Studio Highlighter TableLoad :=
  initial [.ofParser fun _ _ => none] [none] [0]

/-- Code is set and an engine is installed at once, and the exchange overtakes the first drawing. -/
def overtaking : List (Action Surroundings) :=
  [.call 0 (.change (.code "<")), .call 0 (.setEngine (some 0)), .advance 0 ⟨.blank, []⟩,
    .advance 1 ⟨.blank, []⟩, .advance 0 ⟨.blank, []⟩, .advance 1 ⟨.blank, []⟩,
    .advance 1 ⟨.blank, []⟩, .advance 0 ⟨.blank, []⟩, .advance 1 ⟨.blank, []⟩,
    .advance 1 ⟨.blank, []⟩]

/-- The drawing without an engine comes too late, and the one with the engine is shown. -/
theorem display_in_step_overtaking : ∃ studio view,
    bareStudio.run Highlighter.model overtaking = some studio ∧ studio.views[0]? = some view ∧
      (∀ task ∈ studio.tasks, task.stage.inFlight? ≠ some 0) ∧
      (publications Highlighter.model 0 bareStudio overtaking).map (·.generation) = [2] ∧
      view.shown = "&#60;" ∧ view.request.code = "<" ∧
      studio.installed? view.station = some (some 0) ∧
      Rendering Highlighter.model bareStudio overtaking view.request (some 0) view.shown := by
  have hswapped : SwappedOnlyThrough [0] 0 overtaking := by
    intro other engine hmem _
    simp only [overtaking, List.mem_cons, List.not_mem_nil, Action.call.injEq, or_false,
      reduceCtorEq, and_false, false_or] at hmem
    exact hmem.1
  have hidle : ∀ studio, bareStudio.run Highlighter.model overtaking = some studio →
      ∀ task ∈ studio.tasks, task.stage.inFlight? ≠ some 0 := by
    intro studio hrun task hmem
    obtain rfl := Option.some.inj hrun
    rcases List.mem_cons.mp hmem with rfl | hmem
    · nofun
    · obtain rfl := List.mem_singleton.mp hmem
      nofun
  have hstep := @display_in_step _ _ _ Highlighter.model _ 0 overtaking _ _ _ _ hswapped
    (rfl : bareStudio.run Highlighter.model overtaking = _) rfl
  obtain ⟨hshown, -, hengine, hrendering⟩ := hstep.2.2.2 (hidle _ rfl) _
    (List.mem_cons_of_mem _ (List.mem_singleton_self _)) _ _ _ rfl rfl
  exact ⟨_, _, rfl, rfl, hidle _ rfl, rfl, hshown, rfl, hengine, hshown ▸ hrendering⟩

end Studio

end CodeMarkup
