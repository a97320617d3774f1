import CodeMarkup.Proofs.Studio.Move

/-!
# Moves, as views see them

Views see little of what tasks do: that a call ends or goes on, that an engine is exchanged, that a
generation is stamped, that a drawing looks up its engine, works, and ends. Grammars, locks and loads are
all one to them. `ViewMove` lists these moves, and `Move.viewMove` says that every move is one.
-/

namespace CodeMarkup

variable {World Engine Load : Type}

/-! ## What stages say to views -/

/-- The view for which a call is in flight. -/
def Stage.inFlight? : Stage Load → Option Nat
  | .called index _ | .swapping index _ | .stamping index => some index
  | .running run _ => run.stamp.map (·.view)
  | .ended _ => none

/-- The view through which an engine is being exchanged, or may be. -/
def Stage.swapper? : Stage Load → Option Nat
  | .called index (.setEngine _) | .swapping index _ => some index
  | _ => none

/-- The stamp of a drawing that goes on or has ended. -/
def Stage.stamp? (stage : Stage Load) : Option Stamp :=
  stage.run?.bind (·.stamp)

/-- The engine that a drawing goes by, or went by. -/
def Stage.engine? : Stage Load → Option (Option Nat)
  | .running _ phase => phase.engine?
  | .ended (.delivered _ engine _) | .ended (.applied _ engine _) | .ended (.stale _ engine _) =>
    some engine
  | _ => none

namespace Studio

/-- The engine that is installed at a station, or that none is. -/
def installed? (studio : Studio Engine Load) (station : Nat) : Option (Option Nat) :=
  studio.stations[station]?.map (·.engine)

/-! ## The moves -/

/-- The moves of a task with a number at a station, as views see them. -/
inductive ViewMove (studio : Studio Engine Load) (number station : Nat) :
    Stage Load → Studio Engine Load → Prop where
  /-- a call makes no difference -/
  | leave {index : Nat} {call : ViewCall} :
    ViewMove studio number station (.called index call) (studio.setStage number (.ended .unchanged))
  /-- an engine is to be exchanged -/
  | choose {index : Nat} {engine : Option Nat} :
    ViewMove studio number station (.called index (.setEngine engine))
      (studio.setStage number (.swapping index engine))
  /-- an engine is exchanged -/
  | swap {index : Nat} {engine : Option Nat} :
    ViewMove studio number station (.swapping index engine)
      ((studio.modifyStation station fun place => { place with engine := engine }).setStage number
        (.stamping index))
  /-- a generation is stamped -/
  | stamp {stage : Stage Load} {index : Nat} {view : View} {request : Request}
      (hstage : stage.inFlight? = some index) (hview : studio.views[index]? = some view) :
    ViewMove studio number station stage (studio.stamp number index view request)
  /-- a drawing looks up its engine -/
  | read {run : Run} {place : Station} (hstation : studio.stations[station]? = some place) :
    ViewMove studio number station (.running run .reading)
      (studio.setStage number (.running run (firstPhase run.request place.engine)))
  /-- a drawing works -/
  | work {run : Run} {before after : Phase Load} {engine : Option Nat} {next : Studio Engine Load}
      (hbefore : before.engine? = some engine) (hafter : after.engine? = some engine)
      (hviews : next.views = studio.views) (hstations : next.installed? = studio.installed?)
      (htasks : next.tasks = (studio.setStage number (.running run after)).tasks) :
    ViewMove studio number station (.running run before) next
  /-- a drawing fails -/
  | fail {run : Run} {engine : Option Nat} {fault : RenderFault} :
    ViewMove studio number station (.running run (.drawn engine (.error fault)))
      (studio.setStage number (.ended (.failed run fault)))
  /-- a drawing is handed over -/
  | deliver {run : Run} {engine : Option Nat} {markup : String} (hstamp : run.stamp = none) :
    ViewMove studio number station (.running run (.drawn engine (.ok markup)))
      (studio.setStage number (.ended (.delivered run engine markup)))
  /-- a drawing comes too late -/
  | drop {run : Run} {engine : Option Nat} {markup : String} {stamp : Stamp} {view : View}
      (hstamp : run.stamp = some stamp) (hview : studio.views[stamp.view]? = some view)
      (hlate : view.generation ≠ stamp.generation) :
    ViewMove studio number station (.running run (.drawn engine (.ok markup)))
      (studio.setStage number (.ended (.stale run engine markup)))
  /-- a drawing is shown -/
  | publish {run : Run} {engine : Option Nat} {markup : String} {stamp : Stamp} {view : View}
      {count : Nat → Nat} (hstamp : run.stamp = some stamp) (hview : studio.views[stamp.view]? = some view)
      (hnewest : view.generation = stamp.generation) :
    ViewMove studio number station (.running run (.drawn engine (.ok markup)))
      ((studio.setStage number (.ended (.applied run engine markup))).modifyView stamp.view
        fun view => { view with shown := markup, changes := count view.changes })

variable {model : EngineModel World Engine Load} {studio next : Studio Engine Load}
  {number station index : Nat}

/-- A change of a station that leaves its engine in place is nothing to views. -/
theorem installed?_modifyStation {f : Station → Station} (hf : ∀ place, (f place).engine = place.engine) :
    (studio.modifyStation station f).installed? = studio.installed? := by
  funext other
  rw [installed?, modifyStation, List.getElem?_modify, installed?]
  rcases studio.stations[other]? with _ | place
  · rfl
  · by_cases h : station = other <;> simp [h, hf]

/-- Showing what is shown already is no change. -/
theorem modifyView_shown {view : View} (hview : studio.views[index]? = some view) :
    (studio.modifyView index fun each => { each with shown := view.shown }) = studio := by
  have hviews : (studio.views.modify index fun each => { each with shown := view.shown })
      = studio.views := by
    refine List.ext_getElem? fun other => ?_
    by_cases hother : index = other
    · subst hother
      rw [List.getElem?_modify_eq, hview]
      rfl
    · rw [List.getElem?_modify_ne _ _ hother]
  rw [modifyView, hviews]

/-- A drawing works with the engine that it found installed. -/
theorem engine?_firstPhase (request : Request) (engine : Option Nat) :
    (firstPhase request engine : Phase Load).engine? = some engine := by
  rcases engine with _ | number
  · rfl
  · rw [firstPhase]
    split
    · rfl
    · split <;> rfl

/-- **Every move is one that views see.** -/
theorem Move.viewMove {stage : Stage Load} (hmove : Move model studio number station stage next) :
    ViewMove studio number station stage next := by
  cases hmove with
  | same | sameEngine => exact .leave
  | otherEngine => exact .choose
  | change hview | refresh hview | restamp hview => exact .stamp rfl hview
  | swap => exact .swap
  | read hstation => exact .read hstation
  | resolve | unresolved | draw => exact .work rfl rfl rfl rfl rfl
  | check | recheck =>
    refine .work rfl ?_ rfl rfl rfl
    split <;> rfl
  | load => exact .work rfl rfl rfl rfl rfl
  -- the lock and the loading flag belong to the station, but its engine is not theirs
  | lock | start | loaded | unlock | abandon =>
    exact .work rfl rfl rfl (installed?_modifyStation fun _ => rfl) rfl
  | fail => exact .fail
  | deliver hstamp => exact .deliver hstamp
  | drop hstamp hview hlate => exact .drop hstamp hview hlate
  | @keep run engine markup stamp view hstamp hview hnewest hshown =>
    subst hshown
    have hpublish := @ViewMove.publish Engine Load studio number station run engine view.shown stamp
      view id hstamp hview hnewest
    have hsame := @modifyView_shown Engine Load (studio.setStage number
      (.ended (.applied run engine view.shown))) stamp.view view hview
    exact hsame ▸ hpublish
  | display hstamp hview hnewest => exact .publish hstamp hview hnewest

/-- Views stay where they are. -/
theorem ViewMove.map_station {stage : Stage Load} (hmove : ViewMove studio number station stage next) :
    next.views.map (·.station) = studio.views.map (·.station) := by
  have hmodify : ∀ (index : Nat) (f : View → View), (∀ view, (f view).station = view.station) →
      (studio.views.modify index f).map (·.station) = studio.views.map (·.station) := by
    intro index f hf
    refine List.ext_getElem? fun other => ?_
    rw [List.getElem?_map, List.getElem?_map, List.getElem?_modify]
    rcases studio.views[other]? with _ | view
    · rfl
    · by_cases h : index = other <;> simp [h, hf]
  cases hmove with
  | stamp | publish => exact hmodify _ _ fun _ => rfl
  | work _ _ hviews => rw [hviews]
  | _ => rfl

/-- **Views stay at their stations** in the course of a run. -/
theorem map_station_run {start : Studio Engine Load} {actions : List (Action World)}
    (hrun : start.run model actions = some studio) :
    studio.views.map (·.station) = start.views.map (·.station) := by
  refine @run_induction _ _ _ model start (fun _ studio =>
    studio.views.map (·.station) = start.views.map (·.station)) rfl ?_ actions studio hrun
  intro done studio action next _ hsame hstep
  rcases step_inv hstep with ⟨_, _, _, _, _, rfl⟩ | ⟨_, _, _, _, rfl⟩ | ⟨_, _, _, _, hmove⟩
  · exact hsame
  · exact hsame
  · exact hmove.viewMove.map_station.trans hsame

end Studio

end CodeMarkup
