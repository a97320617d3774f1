import CodeMarkup.Proofs.Studio.Publication

/-!
# What a call changes

A call of a view takes its steps among those of others, which may change the same view. What the call itself
has changed is what changed in its own steps. They are recorded as its **turns**, each with the studio before
and after it.

What a call comes to accounts for all its turns (`effects_of_call`). A call that ends unchanged has changed
nothing. Any other raises the generation of its view by one, once; and what is shown it does not touch, except
in its last turn if its drawing is applied.

`Account` says what the turns so far have done, by the stage that the call is at. A move of the call extends the
account by one turn (`Account.move`), and the moves of other calls leave it as it is (`account_run`).
-/

namespace CodeMarkup

/-! ## Calls that make no difference -/

/-- Two requests differ in nothing, or only in languages of one key. -/
def Request.Matches (one other : Request) : Prop :=
  one.code = other.code ∧ one.language.map (·.key) = other.language.map (·.key) ∧
    one.lines = other.lines ∧ one.theme = other.theme

theorem Request.sameLanguage_iff (one other : Option Language) :
    sameLanguage one other = true ↔ one.map (·.key) = other.map (·.key) := by
  rcases one with _ | one <;> rcases other with _ | other <;> simp [sameLanguage, Language.same]

theorem Request.same_iff (one other : Request) : one.same other = true ↔ one.Matches other := by
  simp [same, Matches, sameLanguage_iff, and_assoc]

variable {World Engine Load : Type}

/-- A call of a view makes no difference in a studio: what it asks for is there. -/
def ViewCall.Idles (studio : Studio Engine Load) (index : Nat) : ViewCall → Prop
  | .change asked => ∃ view, studio.views[index]? = some view ∧
    (asked.apply view.request).Matches view.request
  | .setEngine engine => ∃ view, studio.views[index]? = some view ∧
    studio.installed? view.station = some engine
  | .refresh => False

namespace Studio

/-! ## Turns -/

/-- A step of a call: the studio before it, and the studio after. -/
structure CallTurn (Engine Load : Type) where
  /-- the studio before the step -/
  before : Studio Engine Load
  /-- the studio after the step -/
  after : Studio Engine Load

/-- The turn of a task, if an action is one. -/
def turn? (studio next : Studio Engine Load) (number : Nat) (action : Action World) :
    Option (CallTurn Engine Load) :=
  if action.task? = some number then some ⟨studio, next⟩ else none

/-- The turns of a task in the course of a run, in order. -/
def turns (model : EngineModel World Engine Load) (number : Nat) (studio : Studio Engine Load) :
    List (Action World) → List (CallTurn Engine Load)
  | [] => []
  | action :: rest =>
    match studio.step model action with
    | none => []
    | some next => (studio.turn? next number action).toList ++ turns model number next rest

namespace CallTurn

/-- Nothing has changed but the stage of the call. -/
structure IsStill (turn : CallTurn Engine Load) : Prop where
  /-- the requests, the generations and what is shown are as before -/
  views : turn.after.views = turn.before.views
  /-- the installed engines are as before -/
  stations : turn.after.stations = turn.before.stations
  /-- what the engines have loaded is as before -/
  engines : turn.after.engines = turn.before.engines

/-- No generation has changed. -/
def KeepsGenerations (turn : CallTurn Engine Load) : Prop :=
  turn.after.views.map (·.generation) = turn.before.views.map (·.generation)

/-- The generation of one view has grown by one, and no other has changed. -/
def Raises (index : Nat) (turn : CallTurn Engine Load) : Prop :=
  index < turn.before.views.length ∧ turn.after.views.map (·.generation)
    = (turn.before.views.map (·.generation)).modify index (· + 1)

/-- What is shown has not changed, and nobody who watches it has been told. -/
def KeepsShown (turn : CallTurn Engine Load) : Prop :=
  turn.after.views.map (fun view => (view.shown, view.changes))
    = turn.before.views.map fun view => (view.shown, view.changes)

/-- A view shows some markup, which those who watch it are told exactly if it showed another before. -/
def Shows (index : Nat) (markup : String) (turn : CallTurn Engine Load) : Prop :=
  index < turn.before.views.length ∧ turn.after.views = turn.before.views.modify index fun view =>
    { view with
      shown := markup
      changes := if view.shown = markup then view.changes else view.changes + 1 }

variable {turn : CallTurn Engine Load} {index : Nat} {markup : String}

/-- A change of one view, seen through a function of views. -/
theorem map_modify_views {Seen : Type} {views : List View} {view : View} {f : View → View}
    {see : View → Seen} {change : Seen → Seen} (hview : views[index]? = some view)
    (hchange : see (f view) = change (see view)) :
    (views.modify index f).map see = (views.map see).modify index change := by
  refine List.ext_getElem? fun other => ?_
  rw [List.getElem?_map, List.getElem?_modify, List.getElem?_modify, List.getElem?_map]
  by_cases hother : index = other
  · subst hother
    simp [hview, hchange]
  · simp [hother]

/-- Two changes of one view that change it into the same. -/
theorem modify_views_congr {views : List View} {view : View} {f g : View → View}
    (hview : views[index]? = some view) (hsame : f view = g view) :
    views.modify index f = views.modify index g := by
  have hmap := @map_modify_views _ _ _ _ f id g hview hsame
  rwa [List.map_id, List.map_id] at hmap

/-- A change of one view that does not show in a function of views. -/
theorem map_modify_views_eq {Seen : Type} {views : List View} {view : View} {f : View → View}
    {see : View → Seen} (hview : views[index]? = some view) (hsame : see (f view) = see view) :
    (views.modify index f).map see = views.map see := by
  rw [@map_modify_views _ _ _ _ f see id hview hsame, List.modify_id]

theorem keepsGenerations_of_views (h : turn.after.views = turn.before.views) : turn.KeepsGenerations := by
  rw [KeepsGenerations, h]

theorem keepsShown_of_views (h : turn.after.views = turn.before.views) : turn.KeepsShown := by
  rw [KeepsShown, h]

theorem Shows.keepsGenerations (h : turn.Shows index markup) : turn.KeepsGenerations := by
  obtain ⟨hlt, hviews⟩ := h
  rw [KeepsGenerations, hviews]
  exact map_modify_views_eq (List.getElem?_eq_getElem hlt) rfl

end CallTurn

variable {model : EngineModel World Engine Load} {start called studio next final : Studio Engine Load}
  {number station index : Nat} {call : ViewCall} {done actions : List (Action World)}
  {action : Action World} {stage : Stage Load} {ending : Ending} {turn : CallTurn Engine Load}
  {record : List (CallTurn Engine Load)}

theorem turns_concat (hrun : start.run model done = some studio)
    (hstep : studio.step model action = some next) :
    turns model number start (done ++ [action])
      = turns model number start done ++ (studio.turn? next number action).toList := by
  refine records_concat (turns model number) (fun studio next action =>
    (studio.turn? next number action).toList) (fun _ => rfl) ?_ hrun hstep
  intro studio next action rest hnext
  rw [turns, hnext]

/-- A turn that stamps raises a generation, and shows nothing. -/
theorem turn_stamp {view : View} {request : Request} (hview : studio.views[index]? = some view) :
    (⟨studio, studio.stamp number index view request⟩ : CallTurn Engine Load).Raises index ∧
      (⟨studio, studio.stamp number index view request⟩ : CallTurn Engine Load).KeepsShown :=
  ⟨⟨(List.getElem?_eq_some_iff.mp hview).1, CallTurn.map_modify_views hview rfl⟩,
    CallTurn.map_modify_views_eq hview rfl⟩

/-- A turn in which a view comes to show what it showed before. -/
theorem turn_keep {view : View} (hview : studio.views[index]? = some view)
    (hviews : next.views = studio.views) :
    (⟨studio, next⟩ : CallTurn Engine Load).Shows index view.shown := by
  refine ⟨(List.getElem?_eq_some_iff.mp hview).1, hviews.trans ?_⟩
  refine (List.modify_id index studio.views).symm.trans ?_
  exact CallTurn.modify_views_congr hview (by simp)

/-- A turn in which a view comes to show something else. -/
theorem turn_display {view : View} {markup : String} (hview : studio.views[index]? = some view)
    (hshown : view.shown ≠ markup) (hviews : next.views = studio.views.modify index fun view =>
      { view with shown := markup, changes := view.changes + 1 }) :
    (⟨studio, next⟩ : CallTurn Engine Load).Shows index markup := by
  refine ⟨(List.getElem?_eq_some_iff.mp hview).1, hviews.trans ?_⟩
  exact CallTurn.modify_views_congr hview (by simp [hshown])

/-! ## Accounts -/

/-- The first turn has found the call to make a difference. -/
def Begun (call : ViewCall) (index : Nat) (record : List (CallTurn Engine Load)) : Prop :=
  ∃ first rest, record = first :: rest ∧ ¬ call.Idles first.before index

/-- One turn raises the generation of a view by one, and no other turn changes a generation. -/
def RaisedOnce (index : Nat) (record : List (CallTurn Engine Load)) : Prop :=
  ∃ front turn back, record = front ++ turn :: back ∧ turn.Raises index ∧
    (∀ other ∈ front, other.KeepsGenerations) ∧ ∀ other ∈ back, other.KeepsGenerations

/-- The turns of a call that makes a difference, as long as it has not stamped a generation. -/
structure Pending (call : ViewCall) (index : Nat) (record : List (CallTurn Engine Load)) : Prop where
  /-- it makes a difference -/
  begun : Begun call index record
  /-- the generations are as before -/
  keeps : ∀ turn ∈ record, turn.KeepsGenerations
  /-- what is shown is as before -/
  shown : ∀ turn ∈ record, turn.KeepsShown

/-- The turns of a call that makes a difference, after it has stamped a generation. -/
structure Stamped (call : ViewCall) (index : Nat) (record : List (CallTurn Engine Load)) : Prop where
  /-- it makes a difference -/
  begun : Begun call index record
  /-- it has stamped one generation -/
  raised : RaisedOnce index record
  /-- what is shown is as before -/
  shown : ∀ turn ∈ record, turn.KeepsShown

/-- **What the turns of a call have done**, by the stage that the call is at. -/
def Account (call : ViewCall) (index : Nat) (record : List (CallTurn Engine Load)) : Stage Load → Prop
  | .called other asked => other = index ∧ asked = call ∧ record = []
  | .swapping other _ | .stamping other => other = index ∧ Pending call index record
  | .running run _ => run.stamp.map (·.view) = some index ∧ Stamped call index record
  | .ended .unchanged => ∃ turn, record = [turn] ∧ call.Idles turn.before index ∧ turn.IsStill
  | .ended (.failed ..) | .ended (.stale ..) => Stamped call index record
  | .ended (.applied _ _ markup) => ∃ front last, record = front ++ [last] ∧ Stamped call index front ∧
    last.Shows index markup
  | .ended (.delivered ..) => False

theorem Begun.append {more : List (CallTurn Engine Load)} (h : Begun call index record) :
    Begun call index (record ++ more) := by
  obtain ⟨first, rest, rfl, hdiffers⟩ := h
  exact ⟨first, rest ++ more, rfl, hdiffers⟩

theorem forall_mem_concat {Holds : CallTurn Engine Load → Prop} (hrecord : ∀ turn ∈ record, Holds turn)
    (hturn : Holds turn) : ∀ each ∈ record ++ [turn], Holds each :=
  List.forall_mem_append.mpr ⟨hrecord, List.forall_mem_singleton.mpr hturn⟩

theorem RaisedOnce.concat (h : RaisedOnce index record) (hturn : turn.KeepsGenerations) :
    RaisedOnce index (record ++ [turn]) := by
  obtain ⟨front, raising, back, rfl, hraises, hfront, hback⟩ := h
  exact ⟨front, raising, back ++ [turn], List.append_assoc .., hraises, hfront,
    forall_mem_concat hback hturn⟩

theorem Pending.concat (h : Pending call index record) (hturn : turn.after.views = turn.before.views) :
    Pending call index (record ++ [turn]) :=
  ⟨h.begun.append, forall_mem_concat h.keeps (CallTurn.keepsGenerations_of_views hturn),
    forall_mem_concat h.shown (CallTurn.keepsShown_of_views hturn)⟩

theorem Pending.stamped (h : Pending call index record) (hraises : turn.Raises index)
    (hshown : turn.KeepsShown) : Stamped call index (record ++ [turn]) :=
  ⟨h.begun.append, ⟨record, turn, [], rfl, hraises, h.keeps, nofun⟩, forall_mem_concat h.shown hshown⟩

theorem Stamped.concat (h : Stamped call index record) (hturn : turn.after.views = turn.before.views) :
    Stamped call index (record ++ [turn]) :=
  ⟨h.begun.append, h.raised.concat (CallTurn.keepsGenerations_of_views hturn),
    forall_mem_concat h.shown (CallTurn.keepsShown_of_views hturn)⟩

theorem stamped_first (hdiffers : ¬ call.Idles turn.before index) (hraises : turn.Raises index)
    (hshown : turn.KeepsShown) : Stamped call index [turn] :=
  ⟨⟨turn, [], rfl, hdiffers⟩, ⟨[], turn, [], rfl, hraises, nofun, nofun⟩,
    List.forall_mem_singleton.mpr hshown⟩

theorem idles_setEngine_iff {place : Station} {engine : Option Nat}
    (hhome : studio.views[index]?.map (·.station) = some station)
    (hstation : studio.stations[station]? = some place) :
    (ViewCall.setEngine engine).Idles studio index ↔ engine = place.engine := by
  obtain ⟨view, hview, rfl⟩ := Option.map_eq_some_iff.mp hhome
  simp [ViewCall.Idles, installed?, hview, hstation, eq_comm]

/-- **A move of a call adds a turn to its account.** -/
theorem Account.move (h : Account call index record stage)
    (hhome : studio.views[index]?.map (·.station) = some station)
    (hmove : Move model studio number station stage next) :
    ∃ after, next.tasks = (studio.setStage number after).tasks ∧
      Account call index (record ++ [⟨studio, next⟩]) after := by
  cases hmove with
  | same hview hsame =>
    obtain ⟨rfl, rfl, rfl⟩ := h
    exact ⟨_, rfl, _, rfl, ⟨_, hview, (Request.same_iff _ _).mp hsame⟩, rfl, rfl, rfl⟩
  | @change _ _ view hview hdiffers =>
    obtain ⟨rfl, rfl, rfl⟩ := h
    refine ⟨_, rfl, rfl, stamped_first ?_ (turn_stamp hview).1 (turn_stamp hview).2⟩
    rintro ⟨found, hfound, hmatches⟩
    obtain rfl := Option.some.inj (hview.symm.trans hfound)
    cases hdiffers.symm.trans ((Request.same_iff _ _).mpr hmatches)
  | sameEngine hstation hsame =>
    obtain ⟨rfl, rfl, rfl⟩ := h
    exact ⟨_, rfl, _, rfl, (idles_setEngine_iff hhome hstation).mpr hsame, rfl, rfl, rfl⟩
  | otherEngine hstation hdiffers =>
    obtain ⟨rfl, rfl, rfl⟩ := h
    have hbusy := fun hidles => hdiffers ((idles_setEngine_iff hhome hstation).mp hidles)
    exact ⟨_, rfl, rfl, ⟨_, [], rfl, hbusy⟩,
      List.forall_mem_singleton.mpr (CallTurn.keepsGenerations_of_views rfl),
      List.forall_mem_singleton.mpr (CallTurn.keepsShown_of_views rfl)⟩
  | refresh hview =>
    obtain ⟨rfl, rfl, rfl⟩ := h
    exact ⟨_, rfl, rfl, stamped_first id (turn_stamp hview).1 (turn_stamp hview).2⟩
  | swap =>
    obtain ⟨rfl, hpending⟩ := h
    exact ⟨_, rfl, rfl, hpending.concat rfl⟩
  | restamp hview =>
    obtain ⟨rfl, hpending⟩ := h
    exact ⟨_, rfl, rfl, hpending.stamped (turn_stamp hview).1 (turn_stamp hview).2⟩
  | read | resolve | unresolved | check | lock | recheck | start | load | loaded | unlock | abandon | draw =>
    obtain ⟨hstamp, hstamped⟩ := h
    exact ⟨_, rfl, hstamp, hstamped.concat rfl⟩
  | fail | drop =>
    obtain ⟨-, hstamped⟩ := h
    exact ⟨_, rfl, hstamped.concat rfl⟩
  | deliver hnone =>
    obtain ⟨hstamp, -⟩ := h
    rw [hnone] at hstamp
    cases hstamp
  | keep hown hview _ hshown =>
    obtain ⟨hstamp, hstamped⟩ := h
    rw [hown] at hstamp
    obtain rfl := Option.some.inj hstamp
    exact ⟨_, rfl, _, _, rfl, hstamped, hshown ▸ turn_keep hview rfl⟩
  | display hown hview _ hshown =>
    obtain ⟨hstamp, hstamped⟩ := h
    rw [hown] at hstamp
    obtain rfl := Option.some.inj hstamp
    exact ⟨_, rfl, _, _, rfl, hstamped, turn_display hview hshown rfl⟩

/-- **The turns of a call are accounted for** in the course of a run, whatever other calls do in between. -/
theorem account_run (hhome : called.views[index]?.map (·.station) = some station)
    (hmade : called.tasks[number]? = some ⟨station, .called index call⟩)
    (hrun : called.run model actions = some final) :
    ∃ stage, final.tasks[number]? = some ⟨station, stage⟩ ∧
      Account call index (turns model number called actions) stage := by
  refine @run_induction _ _ _ model called (fun done studio => ∃ stage,
    studio.tasks[number]? = some ⟨station, stage⟩ ∧
      Account call index (turns model number called done) stage) ⟨_, hmade, rfl, rfl, rfl⟩ ?_ actions final hrun
  rintro done studio action next hdone ⟨stage, htask, haccount⟩ hstep
  have hstays : studio.views[index]?.map (·.station) = some station := by
    rw [← List.getElem?_map, map_station_run hdone, List.getElem?_map, hhome]
  rw [turns_concat hdone hstep]
  rcases step_inv hstep with ⟨_, _, _, rfl, -, rfl⟩ | ⟨_, _, rfl, -, rfl⟩ |
    ⟨other, moved, hmoves, hmoved, hmove⟩
  · exact ⟨stage, getElem?_addTask_of_some htask, by simpa [turn?, Action.task?] using haccount⟩
  · exact ⟨stage, getElem?_addTask_of_some htask, by simpa [turn?, Action.task?] using haccount⟩
  · by_cases hother : other = number
    · subst hother
      obtain rfl := Option.some.inj (htask.symm.trans hmoved)
      obtain ⟨after, htasks, hafter⟩ := haccount.move hstays hmove
      refine ⟨after, getElem?_setStage_self htasks hmoved, ?_⟩
      rwa [turn?, if_pos hmoves]
    · obtain ⟨after, htasks, -⟩ := hmove.viewMove.after
      refine ⟨stage, (getElem?_setStage_ne htasks hother).trans htask, ?_⟩
      have hnone : studio.turn? next number action = none :=
        if_neg fun hmine => hother (Option.some.inj (hmoves.symm.trans hmine))
      simpa [hnone] using haccount

theorem Begun.not_idles {first : CallTurn Engine Load} {rest : List (CallTurn Engine Load)}
    (h : Begun call index (first :: rest)) : ¬ call.Idles first.before index := by
  obtain ⟨_, _, ⟨⟩, hdiffers⟩ := h
  exact hdiffers

/-- The first turn tells whether the call ends unchanged. -/
theorem Account.unchanged_iff {first : CallTurn Engine Load} {rest : List (CallTurn Engine Load)}
    (h : Account call index (first :: rest) stage) :
    stage = .ended .unchanged ↔ call.Idles first.before index := by
  rcases stage with _ | _ | _ | _ | ending
  case called => cases h.2.2
  case swapping | stamping | running => exact iff_of_false nofun h.2.begun.not_idles
  case ended =>
    cases ending with
    | unchanged =>
      obtain ⟨_, ⟨⟩, hidles, -⟩ := h
      exact iff_of_true rfl hidles
    | failed | stale => exact iff_of_false nofun (Stamped.begun h).not_idles
    | delivered => exact h.elim
    | applied =>
      obtain ⟨front, last, hrecord, hstamped, -⟩ := h
      have hbegun : Begun call index (first :: rest) := hrecord ▸ hstamped.begun.append
      exact iff_of_false nofun hbegun.not_idles

/-- A call that ends otherwise has raised one generation, once. -/
theorem Account.raisedOnce (h : Account call index record (.ended ending : Stage Load))
    (hchanged : ending ≠ .unchanged) : RaisedOnce index record := by
  cases ending with
  | unchanged => exact absurd rfl hchanged
  | failed | stale => exact Stamped.raised h
  | delivered => exact h.elim
  | applied =>
    obtain ⟨front, last, rfl, hstamped, hlast⟩ := h
    exact hstamped.raised.concat hlast.keepsGenerations

/-- A call whose drawing is not applied has left what is shown as it was. -/
theorem Account.keepsShown (h : Account call index record stage)
    (hunapplied : ∀ run engine markup, stage ≠ .ended (.applied run engine markup)) :
    ∀ turn ∈ record, turn.KeepsShown := by
  rcases stage with _ | _ | _ | _ | ending
  case called =>
    obtain ⟨-, -, rfl⟩ := h
    nofun
  case swapping | stamping | running => exact h.2.shown
  case ended =>
    cases ending with
    | unchanged =>
      obtain ⟨turn, rfl, -, hstill⟩ := h
      exact List.forall_mem_singleton.mpr (CallTurn.keepsShown_of_views hstill.views)
    | failed | stale => exact Stamped.shown h
    | delivered => exact h.elim
    | applied run engine markup => exact absurd rfl (hunapplied run engine markup)

/-- **What a call has changed**, in any state, and whatever other calls do in between.

To make the call changes nothing. Its first turn finds out whether it makes a difference: a setter makes none
if the request that it leads to matches the one that is there, an exchange of engines makes none if the engine
that is asked for is installed, and to draw again always makes one. If the call makes none it is over with that
turn, unchanged, and has left everything as it was. If it makes one, then by the time it is over it has raised
the generation of its view by one, in exactly one of its turns. Until its drawing is applied, the call changes
nothing that is shown and tells nobody. To apply it is the last turn, in which those who watch are told exactly
if something else was shown. -/
theorem effects_of_call (hcall : start.step model (.call index call) = some called)
    (hrun : called.run model actions = some final)
    (htask : final.tasks[start.tasks.length]? = some ⟨station, stage⟩)
    (hrecord : turns model start.tasks.length called actions = record) :
    (⟨start, called⟩ : CallTurn Engine Load).IsStill ∧
    (∀ first rest, record = first :: rest →
      (stage = .ended .unchanged ↔ call.Idles first.before index)) ∧
    (∀ ending, stage = .ended ending → record ≠ [] ∧
      (ending = .unchanged → ∀ turn ∈ record, turn.IsStill) ∧
      (ending ≠ .unchanged → RaisedOnce index record) ∧
      ∀ run engine markup, ending ≠ .delivered run engine markup) ∧
    ((∀ run engine markup, stage ≠ .ended (.applied run engine markup)) →
      ∀ turn ∈ record, turn.KeepsShown) ∧
    (∀ run engine markup, stage = .ended (.applied run engine markup) →
      ∃ front last, record = front ++ [last] ∧ (∀ turn ∈ front, turn.KeepsShown) ∧
        last.Shows index markup) := by
  obtain ⟨own, asked, view, ⟨⟩, hview, rfl⟩ | ⟨_, _, ⟨⟩, -⟩ | ⟨_, _, ⟨⟩, -⟩ := step_inv hcall
  have hmade : (start.addTask view.station (.called index call)).tasks[start.tasks.length]?
      = some ⟨view.station, .called index call⟩ := List.getElem?_concat_length
  have hhome : (start.addTask view.station (.called index call)).views[index]?.map (·.station)
      = some view.station := congrArg (Option.map (·.station)) hview
  obtain ⟨reached, hreached, haccount⟩ := account_run hhome hmade hrun
  obtain ⟨rfl, rfl⟩ := Task.mk.inj (Option.some.inj (hreached.symm.trans htask))
  rw [hrecord] at haccount
  refine ⟨⟨rfl, rfl, rfl⟩, ?first, ?ended, haccount.keepsShown, ?applied⟩
  case first =>
    rintro first rest rfl
    exact haccount.unchanged_iff
  case ended =>
    rintro ending rfl
    refine ⟨?_, ?_, haccount.raisedOnce, ?_⟩
    · by_cases hending : ending = .unchanged
      · obtain rfl := hending
        obtain ⟨turn, rfl, -⟩ := haccount
        exact List.cons_ne_nil _ _
      · obtain ⟨front, turn, back, rfl, -⟩ := haccount.raisedOnce hending
        exact List.append_ne_nil_of_right_ne_nil _ (List.cons_ne_nil _ _)
    · rintro rfl
      obtain ⟨turn, rfl, -, hstill⟩ := haccount
      exact List.forall_mem_singleton.mpr hstill
    · rintro _ _ _ rfl
      exact haccount
  case applied =>
    rintro run engine markup rfl
    obtain ⟨front, last, rfl, hstamped, hlast⟩ := haccount
    exact ⟨front, last, rfl, hstamped.shown, hlast⟩

/-- The drawing of the setter comes too late. What is shown has changed once, and that was not its doing. -/
theorem effects_of_call_overtaking : ∃ called final run engine markup,
    bareStudio.step Highlighter.model (.call 0 (.change (.code "<"))) = some called ∧
      called.run Highlighter.model overtaking.tail = some final ∧
      final.tasks[0]? = some ⟨0, .ended (.stale run engine markup)⟩ ∧
      final.views[0]?.map (·.changes) = some 1 ∧
      RaisedOnce 0 (turns Highlighter.model 0 called overtaking.tail) ∧
      ∀ turn ∈ turns Highlighter.model 0 called overtaking.tail, turn.KeepsShown := by
  obtain ⟨-, -, hover, hkeeps, -⟩ := @effects_of_call _ _ _ Highlighter.model bareStudio _ _ 0 0
    (.change (.code "<")) overtaking.tail (.ended (.stale _ _ _)) _ rfl
    (rfl : (bareStudio.addTask 0 (.called 0 (.change (.code "<")))).run Highlighter.model overtaking.tail = _)
    rfl rfl
  have hshown := hkeeps fun _ _ _ happlied => Ending.noConfusion (Stage.ended.inj happlied)
  have hraised := (hover _ rfl).2.2.1 (fun h => Ending.noConfusion h)
  exact ⟨_, _, _, _, _, rfl, rfl, rfl, rfl, hraised, hshown⟩

end Studio

end CodeMarkup
