import CodeMarkup.Proofs.Studio.Move
import CodeMarkup.Rehearsal.Session

/-!
# Rehearsals are runs

A rehearsal chooses which task goes on, keeps tasks waiting at gates and for locks, and keeps an account. To the studio
it does nothing but take actions that are possible there (`Leads`): every operation of the rehearsal comes to a run of
the studio, from a single tick (`leads_tick`) to any number of orders (`run_of_orders`). The calls in such a run are
those that were ordered, in that order. So what holds of every run of a studio holds of everything that is rehearsed.
-/

namespace CodeMarkup

/-- Whether an action is a call, which is made from outside. The others are steps of tasks and answers to them. -/
def Action.isCall {World : Type} : Action World → Bool
  | .call .. | .render .. => true
  | .answer .. | .advance .. => false

namespace Rehearsal

/-- The call that an order is to make, if it is to make one. -/
def Order.call? : Order → Option (Action Bool)
  | .call view asked => some (.call view asked)
  | .render station request => some (.render station request)
  | .release .. | .refuse .. | .rest => none

/-- **One rehearsal leads to another**: by a run of the studio in which these calls are made. -/
def Leads (before : Rehearsal) (calls : List (Action Bool)) (after : Rehearsal) : Prop :=
  ∃ actions, before.studio.run RehearsalEngine.model actions = some after.studio ∧
    actions.filter Action.isCall = calls

variable {before between after rehearsal : Rehearsal} {calls later : List (Action Bool)}

theorem leads_of_eq (h : after.studio = before.studio) : before.Leads [] after :=
  ⟨[], congrArg some h.symm, rfl⟩

theorem Leads.trans (h₁ : before.Leads calls between) (h₂ : between.Leads later after) :
    before.Leads (calls ++ later) after := by
  obtain ⟨first, hfirst, rfl⟩ := h₁
  obtain ⟨second, hsecond, rfl⟩ := h₂
  refine ⟨first ++ second, ?_, List.filter_append _ _⟩
  rw [Studio.run_append, hfirst, Option.bind_some, hsecond]

theorem Leads.quietly (h₁ : before.Leads calls between) (h₂ : between.Leads [] after) : before.Leads calls after :=
  List.append_nil calls ▸ h₁.trans h₂

theorem leads_of_step {action : Action Bool}
    (h : before.studio.step RehearsalEngine.model action = some after.studio) :
    before.Leads ([action].filter Action.isCall) after := by
  refine ⟨[action], ?_, rfl⟩
  rw [Studio.run, h]
  rfl

/-! ## Tasks -/

/-- A task goes on by itself, or is answered. -/
theorem isCall_action (rehearsal : Rehearsal) (task : Nat) : (rehearsal.action task).isCall = false := by
  unfold action
  split <;> rfl

/-- Accounts are no concern of the studio. -/
theorem studio_note (rehearsal : Rehearsal) (before after : Stage (List String)) :
    (rehearsal.note before after).studio = rehearsal.studio := by
  unfold note
  split <;> rfl

/-- **A task that goes on** takes one action, or none. -/
theorem leads_perform (rehearsal : Rehearsal) (task : Nat) : rehearsal.Leads [] (rehearsal.perform task) := by
  unfold perform
  split
  · exact leads_of_eq rfl
  · rename_i studio hstep
    have hleads : rehearsal.Leads [] { rehearsal with studio := studio } := by
      have hleads := @leads_of_step rehearsal { rehearsal with studio := studio } _ hstep
      rwa [List.filter_cons_of_neg (by simp [isCall_action])] at hleads
    dsimp only
    split
    · exact hleads.quietly (leads_of_eq (studio_note _ _ _))
    · exact hleads

/-- A lock that is handed over is taken by one action, or by none. -/
theorem leads_handOver (rehearsal : Rehearsal) (lock : Nat × String) :
    rehearsal.Leads [] (rehearsal.handOver lock) := by
  unfold handOver
  split
  · exact leads_of_eq rfl
  · rename_i task waiting _
    exact leads_perform { rehearsal with atLock := waiting } task

/-- **A tick** has the first ready task go on, and perhaps the next in line take its lock; or it changes nothing in the
studio. -/
theorem leads_tick (rehearsal : Rehearsal) : rehearsal.Leads [] rehearsal.tick := by
  unfold tick
  split
  · exact leads_of_eq rfl
  rename_i task admitted rest _
  -- the task goes on from something that differs from the rehearsal outside the studio only
  have hgoOn : ∀ next : Rehearsal, next.studio = rehearsal.studio → rehearsal.Leads [] (next.perform task) :=
    fun next hnext => (leads_of_eq hnext).trans (leads_perform next task)
  dsimp only
  split
  · split
    · exact hgoOn _ rfl
    · split
      · exact leads_of_eq rfl
      · exact hgoOn _ rfl
  · split
    · exact leads_of_eq rfl
    · split
      · exact hgoOn _ rfl
      · split
        · refine Leads.trans (hgoOn _ ?_) (leads_handOver _ _)
          rfl
        · split
          · exact leads_of_eq rfl
          · exact hgoOn _ rfl

/-- So does any number of ticks. -/
theorem leads_ticks (count : Nat) (rehearsal : Rehearsal) : rehearsal.Leads [] (ticks count rehearsal) := by
  induction count generalizing rehearsal with
  | zero => exact leads_of_eq rfl
  | succ count ih => exact (leads_tick rehearsal).trans (ih rehearsal.tick)

theorem leads_settle (rehearsal : Rehearsal) : rehearsal.Leads [] rehearsal.settle :=
  leads_ticks _ rehearsal

/-! ## Orders -/

/-- Permits are no concern of the studio. -/
theorem studio_release (gate : Gate) (permits : Nat) (rehearsal : Rehearsal) :
    (release gate permits rehearsal).studio = rehearsal.studio := by
  induction permits generalizing rehearsal with
  | zero => rfl
  | succ permits ih =>
    unfold release
    split
    · exact ih _
    · rfl

/-- A call is made, if it can be. -/
theorem exists_leads_makeCall (rehearsal : Rehearsal) {action : Action Bool} (hcall : action.isCall = true) :
    ∃ calls, calls.Sublist [action] ∧ rehearsal.Leads calls (rehearsal.makeCall action) := by
  unfold makeCall
  split
  · exact ⟨[], List.nil_sublist _, leads_of_eq rfl⟩
  · rename_i studio hstep
    refine ⟨[action], List.Sublist.refl _, ?_⟩
    have hleads := @leads_of_step rehearsal { rehearsal with studio := studio } action hstep
    rw [List.filter_cons_of_pos hcall] at hleads
    exact hleads.quietly (leads_of_eq rfl)

/-- **An order** makes its call, if it can be made, and then has tasks go on. -/
theorem exists_leads_follow (rehearsal : Rehearsal) (order : Order) :
    ∃ calls, calls.Sublist order.call?.toList ∧ rehearsal.Leads calls (rehearsal.follow order) := by
  -- the account starts anew
  let fresh : Rehearsal := { rehearsal with events := [] }
  have hfresh : rehearsal.Leads [] fresh := leads_of_eq rfl
  have hquiet : ∀ ordered : Rehearsal, ordered.studio = rehearsal.studio → rehearsal.Leads [] ordered.settle :=
    fun ordered hordered => (leads_of_eq hordered : rehearsal.Leads [] ordered).trans (leads_settle ordered)
  cases order with
  | call view call =>
    obtain ⟨calls, hcalls, hleads⟩ := @exists_leads_makeCall fresh (.call view call) rfl
    exact ⟨calls, hcalls, (hfresh.trans hleads).quietly (leads_settle _)⟩
  | render station request =>
    obtain ⟨calls, hcalls, hleads⟩ := @exists_leads_makeCall fresh (.render station request) rfl
    exact ⟨calls, hcalls, (hfresh.trans hleads).quietly (leads_settle _)⟩
  | release gate permits =>
    exact ⟨[], List.nil_sublist _, hquiet _ (studio_release gate permits fresh)⟩
  | refuse engine on => exact ⟨[], List.nil_sublist _, hquiet _ rfl⟩
  | rest => exact ⟨[], List.nil_sublist _, hquiet _ rfl⟩

/-- **A rehearsal is a run of its studio**: whatever orders it follows, there are actions that lead the studio, one
after another, to where the rehearsal leaves it, and the calls among them were ordered, in that order. -/
theorem run_of_orders (rehearsal : Rehearsal) (orders : List Order) :
    ∃ actions, rehearsal.studio.run RehearsalEngine.model actions = some (orders.foldl follow rehearsal).studio ∧
      (actions.filter Action.isCall).Sublist (orders.filterMap Order.call?) := by
  have hleads : ∃ calls, calls.Sublist (orders.filterMap Order.call?) ∧
      rehearsal.Leads calls (orders.foldl follow rehearsal) := by
    induction orders generalizing rehearsal with
    | nil => exact ⟨[], List.Sublist.refl _, leads_of_eq rfl⟩
    | cons order rest ih =>
      obtain ⟨first, hfirst, hfollow⟩ := exists_leads_follow rehearsal order
      obtain ⟨later, hlater, hrest⟩ := ih (rehearsal.follow order)
      refine ⟨first ++ later, ?_, hfollow.trans hrest⟩
      have hcalls : (order :: rest).filterMap Order.call? = order.call?.toList ++ rest.filterMap Order.call? := by
        rw [List.filterMap_cons]
        rcases order.call? <;> rfl
      rw [hcalls]
      exact hfirst.append hlater
  obtain ⟨calls, hcalls, actions, hrun, rfl⟩ := hleads
  exact ⟨actions, hrun, hcalls⟩

end Rehearsal

end CodeMarkup
