import CodeMarkup.Proofs.Studio.Move

/-!
# What a drawing is a drawing of

Between the look-up of its engine and its end, a drawing passes other tasks that exchange the engine,
change the request and load grammars. What comes out is nevertheless a rendering of the request that went
in, by the engine that was looked up (`Rendering`): without an engine or a language it is the code,
escaped, and otherwise it is what that engine answered, at some time during the run, to the query that the
request asks.
-/

namespace CodeMarkup

variable {World Engine Load : Type}

/-- What came of a drawing that did not fail. -/
def Ending.drawn? : Ending → Option (Run × Option Nat × String)
  | .unchanged | .failed .. => none
  | .delivered run engine markup | .applied run engine markup | .stale run engine markup =>
    some (run, engine, markup)

/-- What came of the drawing of a call that is over. -/
def Stage.drawn? : Stage Load → Option (Run × Option Nat × String)
  | .ended ending => ending.drawn?
  | _ => none

namespace Studio

/-- **The renderings of a request** by an engine, or by none, in the course of a run. -/
inductive Rendering (model : EngineModel World Engine Load) (start : Studio Engine Load)
    (actions : List (Action World)) (request : Request) : Option Nat → String → Prop where
  /-- without an engine, the code is escaped -/
  | bare : Rendering model start actions request none (Text.escapePlain request.code)
  /-- without a language to highlight, the code is escaped -/
  | plain {number : Nat} (hplain : request.highlighted? = none) :
    Rendering model start actions request (some number) (Text.escapePlain request.code)
  /-- otherwise the engine draws, in the state it had by then -/
  | coloured {number : Nat} {language : Language} {answer : Except FetchFault Bundle}
      {resolution : Resolution} {before after : List (Action World)} {middle : Studio Engine Load}
      {world : World} {engine : Engine} {markup : String}
      (hlanguage : request.highlighted? = some language)
      (hanswer : language.resolution answer = .ok resolution) (hactions : actions = before ++ after)
      (hrun : start.run model before = some middle) (hengine : middle.engines[number]? = some engine)
      (hdraw : model.draw world engine (request.query resolution.primary) = .ok markup) :
    Rendering model start actions request (some number) markup

/-- A name that the language of a request resolves to. -/
def ResolvesTo (request : Request) (resolution : Resolution) : Prop :=
  ∃ language answer, request.highlighted? = some language ∧
    language.resolution answer = .ok resolution

/-- What is known of a drawing at each of its phases. -/
def Phase.Sound (model : EngineModel World Engine Load) (start : Studio Engine Load)
    (actions : List (Action World)) (request : Request) : Phase Load → Prop
  | .reading => True
  | .fetching _ language => request.highlighted? = some language
  | .checking _ resolution | .queued _ resolution | .holding _ resolution | .starting _ resolution
  | .loading _ resolution _ | .unlocking _ resolution _ | .drawing _ resolution =>
    ResolvesTo request resolution
  | .drawn engine result =>
    ∀ markup, result = .ok markup → Rendering model start actions request engine markup

/-- What is known of a call at each of its stages. -/
def Stage.Sound (model : EngineModel World Engine Load) (start : Studio Engine Load)
    (actions : List (Action World)) : Stage Load → Prop
  | .running run phase => Phase.Sound model start actions run.request phase
  | .ended ending =>
    ∀ run engine markup, ending.drawn? = some (run, engine, markup) →
      Rendering model start actions run.request engine markup
  | _ => True

variable {model : EngineModel World Engine Load} {start studio next : Studio Engine Load}
  {number station : Nat} {done actions : List (Action World)} {action : Action World}

/-- A rendering stays one while the run goes on. -/
theorem Rendering.concat {request : Request} {engine : Option Nat} {markup : String}
    (h : Rendering model start done request engine markup) :
    Rendering model start (done ++ [action]) request engine markup := by
  cases h with
  | bare => exact .bare
  | plain hplain => exact .plain hplain
  | coloured hlanguage hanswer hactions hrun hengine hdraw =>
    have hlonger := congrArg (· ++ [action]) hactions
    exact .coloured hlanguage hanswer (hlonger.trans (List.append_assoc ..)) hrun hengine hdraw

theorem Phase.Sound.concat {request : Request} {phase : Phase Load}
    (h : Phase.Sound model start done request phase) :
    Phase.Sound model start (done ++ [action]) request phase := by
  cases phase with
  | drawn engine result => exact fun markup hmarkup => (h markup hmarkup).concat
  | _ => exact h

theorem Stage.Sound.rendering {stage : Stage Load} {run : Run} {engine : Option Nat} {markup : String}
    (h : Stage.Sound model start actions stage) (hdrawn : stage.drawn? = some (run, engine, markup)) :
    Rendering model start actions run.request engine markup := by
  cases stage with
  | ended ending => exact h run engine markup hdrawn
  | _ => cases hdrawn

theorem Stage.Sound.concat {stage : Stage Load} (h : Stage.Sound model start done stage) :
    Stage.Sound model start (done ++ [action]) stage := by
  cases stage with
  | running run phase => exact Phase.Sound.concat h
  | ended ending => exact fun run engine markup hdrawn => (h run engine markup hdrawn).concat
  | _ => exact h

theorem firstPhase_sound (request : Request) (engine : Option Nat) :
    Phase.Sound model start actions request (firstPhase request engine : Phase Load) := by
  rcases engine with _ | number
  · rintro markup ⟨⟩
    exact .bare
  · rw [firstPhase]
    rcases hlanguage : request.highlighted? with _ | language
    · rintro markup ⟨⟩
      exact .plain hlanguage
    · dsimp only
      split
      · rintro markup ⟨⟩
      · exact hlanguage

/-- **A move keeps its task sound.** -/
theorem Move.sound {stage : Stage Load} (hrun : start.run model done = some studio)
    (hmove : Move model studio number station stage next)
    (hsound : Stage.Sound model start done stage) :
    ∃ after, next.tasks = (studio.setStage number after).tasks ∧
      Stage.Sound model start done after := by
  cases hmove with
  | same | sameEngine => exact ⟨_, rfl, by rintro run engine markup ⟨⟩⟩
  | change | otherEngine | refresh | swap | restamp => exact ⟨_, rfl, trivial⟩
  | read => exact ⟨_, rfl, firstPhase_sound _ _⟩
  | resolve hanswer => exact ⟨_, rfl, _, _, hsound, hanswer⟩
  | unresolved => exact ⟨_, rfl, by rintro markup ⟨⟩⟩
  | check | recheck =>
    refine ⟨_, rfl, ?_⟩
    split <;> exact hsound
  | lock | start | load | loaded | unlock => exact ⟨_, rfl, hsound⟩
  | abandon => exact ⟨_, rfl, by rintro markup ⟨⟩⟩
  | draw hengine =>
    obtain ⟨language, answer, hlanguage, hanswer⟩ := hsound
    refine ⟨_, rfl, fun markup hdraw => ?_⟩
    exact .coloured hlanguage hanswer (List.append_nil done).symm hrun hengine hdraw
  | fail => exact ⟨_, rfl, by rintro run engine markup ⟨⟩⟩
  | deliver | drop | keep | display =>
    refine ⟨_, rfl, ?_⟩
    rintro run engine markup ⟨⟩
    exact hsound _ rfl

/-- **What comes out of a drawing is a rendering of its request** by the engine it is said to be by. -/
theorem stage_sound (hstart : start.tasks = []) (hrun : start.run model actions = some studio)
    {task : Task Load} (htask : studio.tasks[number]? = some task) :
    Stage.Sound model start actions task.stage := by
  refine @run_induction _ _ _ model start (fun actions studio => ∀ number task,
    studio.tasks[number]? = some task → Stage.Sound model start actions task.stage) ?_ ?_ actions
    studio hrun number task htask
  · intro number task htask
    rw [hstart] at htask
    cases htask
  · intro done studio action next hrun hsound hstep other task htask
    rcases step_inv hstep with ⟨index, call, view, -, -, rfl⟩ | ⟨station, request, -, -, rfl⟩ |
      ⟨number, moved, -, hmoved, hmove⟩
    · rcases getElem?_addTask_eq_some htask with ⟨-, rfl⟩ | ⟨-, hbefore⟩
      · trivial
      · exact (hsound other task hbefore).concat
    · rcases getElem?_addTask_eq_some htask with ⟨-, rfl⟩ | ⟨-, hbefore⟩
      · trivial
      · exact (hsound other task hbefore).concat
    · obtain ⟨after, htasks, hafter⟩ := hmove.sound hrun (hsound number moved hmoved)
      rw [htasks] at htask
      rcases getElem?_setStage_eq_some htask with ⟨-, before, -, rfl⟩ | ⟨-, hbefore⟩
      · exact hafter.concat
      · exact (hsound other task hbefore).concat

end Studio

end CodeMarkup
