import CodeMarkup.Proofs.Grammar.Growth

/-!
# Overlapping loads

Any number of loads of one table may be under way at once, each at its own step, and between any two steps
the table may be read. A reader never finds a load half done (`overlapping_loads_atomic`): the names that a
load adds appear in one step, a load that fails adds none, and once a load has succeeded all the names of its
list are there. What a reader has once found under a name stays there.

Names are checked before they are bound, so two loads may find the same name unbound and both prepare a
grammar for it. Then the first to bind it adds it, and the other one does not.
-/

namespace CodeMarkup

/-- A load that was asked for, and how far it has come. -/
structure LoadCall where
  /-- the list to load -/
  definitions : List GrammarDefinition
  /-- how far the load has come -/
  progress : Progress TableLoad

/-- A table and the loads of it that were asked for. -/
structure SharedTable where
  /-- the table -/
  table : GrammarTable
  /-- the loads, in the order in which they were asked for -/
  calls : List LoadCall

/-- What can happen to a shared table. -/
inductive TableAction where
  /-- a load is asked for -/
  | call (definitions : List GrammarDefinition)
  /-- a load takes its next step -/
  | advance (index : Nat) (around : Surroundings)

/-- The load that an action advances, if it advances one. -/
def TableAction.index? : TableAction → Option Nat
  | .call _ => none
  | .advance index _ => some index

namespace SharedTable

/-! ## Runs -/

/-- What an action leads to, if it can happen. -/
def step (shared : SharedTable) : TableAction → Option SharedTable
  | .call definitions =>
    some { shared with calls := shared.calls ++ [⟨definitions, .going (.ofList definitions)⟩] }
  | .advance index around => do
    let call ← shared.calls[index]?
    match call.progress with
    | .ended _ => none
    | .going load =>
      let (table, progress) := shared.table.advance around load
      return ⟨table, shared.calls.set index { call with progress := progress }⟩

/-- What actions lead to, one after another. -/
def run (shared : SharedTable) : List TableAction → Option SharedTable
  | [] => some shared
  | action :: rest => do
    let next ← shared.step action
    next.run rest

/-- The names that a step binds. -/
def added (shared next : SharedTable) : List String :=
  next.table.names.filter fun name => !shared.table.isLoaded name

/-- The names that the steps of one load bind in the course of a run. -/
def additions (index : Nat) (shared : SharedTable) : List TableAction → List String
  | [] => []
  | action :: rest =>
    match shared.step action with
    | none => []
    | some next =>
      (if action.index? = some index then shared.added next else []) ++ additions index next rest

variable {shared next start middle final : SharedTable} {action : TableAction}
  {actions before after : List TableAction} {index : Nat} {name : String}

/-- An action asks for a load, or a load takes a step. -/
theorem step_inv (h : shared.step action = some next) :
    (∃ definitions, action = .call definitions ∧
      next = { shared with calls := shared.calls ++ [⟨definitions, .going (.ofList definitions)⟩] }) ∨
    ∃ index around call load table progress, action = .advance index around ∧
      shared.calls[index]? = some call ∧ call.progress = .going load ∧
      GrammarTable.LoadStep around shared.table load table progress ∧
      next = ⟨table, shared.calls.set index { call with progress := progress }⟩ := by
  cases action with
  | call definitions => exact Or.inl ⟨definitions, rfl, (Option.some.inj h).symm⟩
  | advance index around =>
    simp only [step, Option.bind_eq_bind, Option.bind_eq_some_iff] at h
    obtain ⟨call, hcall, h⟩ := h
    rcases hprogress : call.progress with load | result
    · rcases hadvance : shared.table.advance around load with ⟨table, progress⟩
      simp only [hprogress, hadvance] at h
      exact Or.inr ⟨index, around, call, load, table, progress, rfl, hcall, hprogress,
        GrammarTable.advance_inv hadvance, (Option.some.inj h).symm⟩
    · simp only [hprogress] at h
      cases h

theorem run_cons_eq_some (h : shared.run (action :: actions) = some final) :
    ∃ next, shared.step action = some next ∧ next.run actions = some final := by
  rwa [run, Option.bind_eq_bind, Option.bind_eq_some_iff] at h

theorem run_append (hbefore : start.run before = some middle) (hafter : middle.run after = some final) :
    start.run (before ++ after) = some final := by
  induction before generalizing start with
  | nil =>
    obtain rfl := Option.some.inj hbefore
    exact hafter
  | cons action rest ih =>
    obtain ⟨next, hstep, hrest⟩ := run_cons_eq_some hbefore
    rw [List.cons_append, run, hstep]
    exact ih hrest

/-! ## Growth -/

/-- **Only the last step of a load that succeeds changes the table.** -/
theorem table_eq_or_ok (h : shared.step action = some next) :
    next.table = shared.table ∨ ∃ index call, action.index? = some index ∧
      next.calls[index]? = some call ∧ call.progress = .ended (.ok ()) := by
  rcases step_inv h with ⟨definitions, -, rfl⟩ |
    ⟨index, around, call, load, table, progress, rfl, hcall, -, hload, rfl⟩
  · exact Or.inl rfl
  · by_cases hok : progress = .ended (.ok ())
    · have hlt := (List.getElem?_eq_some_iff.mp hcall).1
      exact Or.inr ⟨index, _, rfl, List.getElem?_set_self hlt, hok⟩
    · exact Or.inl (hload.eq_of_ne_ok hok)

theorem le_of_step (h : shared.step action = some next) : shared.table ≤ next.table := by
  rcases step_inv h with ⟨definitions, -, rfl⟩ | ⟨_, _, _, _, _, _, -, -, -, hload, rfl⟩
  · exact le_refl shared.table
  · exact hload.le

/-- **What is bound stays bound**, to the same grammar. -/
theorem le_of_run (h : shared.run actions = some final) : shared.table ≤ final.table := by
  induction actions generalizing shared with
  | nil =>
    obtain rfl := Option.some.inj h
    exact le_refl shared.table
  | cons action rest ih =>
    obtain ⟨next, hstep, hrest⟩ := run_cons_eq_some h
    exact le_trans (le_of_step hstep) (ih hrest)

/-! ## Additions -/

theorem mem_added :
    name ∈ shared.added next ↔ next.table.isLoaded name = true ∧ shared.table.isLoaded name = false := by
  rw [added, List.mem_filter, GrammarTable.mem_names, Bool.not_eq_true']

theorem additions_cons (h : shared.step action = some next) :
    additions index shared (action :: actions)
      = (if action.index? = some index then shared.added next else []) ++
        additions index next actions := by
  rw [additions, h]

theorem additions_append (hbefore : start.run before = some middle) :
    additions index start (before ++ after)
      = additions index start before ++ additions index middle after := by
  induction before generalizing start with
  | nil =>
    obtain rfl := Option.some.inj hbefore
    rfl
  | cons action rest ih =>
    obtain ⟨next, hstep, hrest⟩ := run_cons_eq_some hbefore
    rw [List.cons_append, additions_cons hstep, additions_cons hstep, ih hrest, List.append_assoc]

/-- What is added is new. -/
theorem isLoaded_eq_false_of_mem_additions (hrun : shared.run actions = some final)
    (hmem : name ∈ additions index shared actions) : shared.table.isLoaded name = false := by
  induction actions generalizing shared with
  | nil => cases hmem
  | cons action rest ih =>
    obtain ⟨next, hstep, hrest⟩ := run_cons_eq_some hrun
    rw [additions_cons hstep, List.mem_append] at hmem
    rcases hmem with hnow | hlater
    · exact (mem_added.mp (List.mem_ite_nil_right.mp hnow).2).2
    · refine Bool.eq_false_iff.mpr fun hloaded => ?_
      have hstays := GrammarTable.isLoaded_of_le (le_of_step hstep) hloaded
      rw [ih hrest hlater] at hstays
      cases hstays

/-- **What is loaded at the end was there before, or some load added it.** -/
theorem isLoaded_run_iff (hrun : shared.run actions = some final) :
    final.table.isLoaded name = true ↔
      shared.table.isLoaded name = true ∨ ∃ index, name ∈ additions index shared actions := by
  induction actions generalizing shared with
  | nil =>
    obtain rfl := Option.some.inj hrun
    simp [additions]
  | cons action rest ih =>
    obtain ⟨next, hstep, hrest⟩ := run_cons_eq_some hrun
    rw [ih hrest]
    simp only [additions_cons hstep, List.mem_append]
    constructor
    · rintro (hloaded | ⟨index, hlater⟩)
      · rcases hbefore : shared.table.isLoaded name with _ | _
        · rcases table_eq_or_ok hstep with hsame | ⟨index, -, hindex, -, -⟩
          · rw [hsame, hbefore] at hloaded
            cases hloaded
          · refine Or.inr ⟨index, Or.inl ?_⟩
            rw [if_pos hindex]
            exact mem_added.mpr ⟨hloaded, hbefore⟩
        · exact Or.inl rfl
      · exact Or.inr ⟨index, Or.inr hlater⟩
    · rintro (hloaded | ⟨index, hnow | hlater⟩)
      · exact Or.inl (GrammarTable.isLoaded_of_le (le_of_step hstep) hloaded)
      · exact Or.inl (mem_added.mp (List.mem_ite_nil_right.mp hnow).2).1
      · exact Or.inr ⟨index, hlater⟩

/-! ## Loads that are over -/

/-- What is over stays over. -/
theorem getElem?_of_ended {call : LoadCall} {result : Except LoadFailure Unit}
    (hstep : shared.step action = some next) (hcall : shared.calls[index]? = some call)
    (hended : call.progress = .ended result) :
    next.calls[index]? = some call ∧ action.index? ≠ some index := by
  rcases step_inv hstep with ⟨definitions, rfl, rfl⟩ |
    ⟨own, around, mine, load, table, progress, rfl, hmine, hgoing, -, rfl⟩
  · have hlt := (List.getElem?_eq_some_iff.mp hcall).1
    exact ⟨(List.getElem?_append_left hlt).trans hcall, nofun⟩
  · have hne : own ≠ index := by
      rintro rfl
      obtain rfl := Option.some.inj (hmine.symm.trans hcall)
      rw [hgoing] at hended
      cases hended
    exact ⟨(List.getElem?_set_ne hne).trans hcall, fun hsame => hne (Option.some.inj hsame)⟩

theorem getElem?_run_of_ended {call : LoadCall} {result : Except LoadFailure Unit}
    (hrun : shared.run actions = some final) (hcall : shared.calls[index]? = some call)
    (hended : call.progress = .ended result) : final.calls[index]? = some call := by
  induction actions generalizing shared with
  | nil =>
    obtain rfl := Option.some.inj hrun
    exact hcall
  | cons action rest ih =>
    obtain ⟨next, hstep, hrest⟩ := run_cons_eq_some hrun
    exact ih hrest (getElem?_of_ended hstep hcall hended).1

/-- A load that is over adds nothing more. -/
theorem additions_of_ended {call : LoadCall} {result : Except LoadFailure Unit}
    (hrun : shared.run actions = some final) (hcall : shared.calls[index]? = some call)
    (hended : call.progress = .ended result) : additions index shared actions = [] := by
  induction actions generalizing shared with
  | nil => rfl
  | cons action rest ih =>
    obtain ⟨next, hstep, hrest⟩ := run_cons_eq_some hrun
    obtain ⟨hnext, hother⟩ := getElem?_of_ended hstep hcall hended
    rw [additions_cons hstep, if_neg hother, ih hrest hnext]
    rfl

/-- **Only a load that has succeeded has added names.** -/
theorem ok_of_additions_ne_nil (hrun : shared.run actions = some final)
    (hadds : additions index shared actions ≠ []) :
    ∃ call, final.calls[index]? = some call ∧ call.progress = .ended (.ok ()) := by
  induction actions generalizing shared with
  | nil => exact absurd rfl hadds
  | cons action rest ih =>
    obtain ⟨next, hstep, hrest⟩ := run_cons_eq_some hrun
    rw [additions_cons hstep] at hadds
    by_cases hlater : additions index next rest = []
    · -- the names were added by this step, so it was the last one of its load
      rw [hlater, List.append_nil] at hadds
      obtain ⟨name, hname⟩ := List.exists_mem_of_ne_nil _ hadds
      obtain ⟨hindex, hadded⟩ := List.mem_ite_nil_right.mp hname
      obtain ⟨hafter, hbefore⟩ := mem_added.mp hadded
      rcases table_eq_or_ok hstep with hsame | ⟨own, call, hown, hcall, hok⟩
      · rw [hsame, hbefore] at hafter
        cases hafter
      · obtain rfl := Option.some.inj (hown.symm.trans hindex)
        exact ⟨call, getElem?_run_of_ended hrest hcall hok, hok⟩
    · exact ih hrest hlater

/-! ## What loads owe -/

/-- What is known of a load at every time: while it is going its ledger is kept, and once it has succeeded
its names are bound. -/
def Kept (table : GrammarTable) (call : LoadCall) : Prop :=
  match call.progress with
  | .going load => table.Keeps call.definitions load
  | .ended (.ok ()) => ∀ definition ∈ call.definitions,
    ∃ name, definition.name = some name ∧ table.isLoaded name = true
  | .ended (.error _) => True

theorem Kept.of_le {table later : GrammarTable} {call : LoadCall} (hle : table ≤ later)
    (hkept : Kept table call) : Kept later call := by
  obtain ⟨definitions, load | done | failure⟩ := call
  · exact GrammarTable.Keeps.of_le hle hkept
  · trivial
  · intro definition hmem
    obtain ⟨name, hname, hbound⟩ := hkept definition hmem
    exact ⟨name, hname, GrammarTable.isLoaded_of_le hle hbound⟩

/-- A step of a load keeps what is known of it. -/
theorem kept_of_loadStep {around : Surroundings} {table next : GrammarTable} {load : TableLoad}
    {progress : Progress TableLoad} {call : LoadCall}
    (hload : GrammarTable.LoadStep around table load next progress)
    (hkeeps : table.Keeps call.definitions load) : Kept next { call with progress := progress } := by
  rcases progress with going | failure | done
  · exact hload.keeps hkeeps
  · trivial
  · exact fun definition hmem => hload.isLoaded_of_ok hkeeps hmem

/-- **A step keeps what is known of every load.** -/
theorem kept_of_step (hstep : shared.step action = some next)
    (hkept : ∀ call ∈ shared.calls, Kept shared.table call) :
    ∀ call ∈ next.calls, Kept next.table call := by
  intro call hmem
  rcases step_inv hstep with ⟨definitions, rfl, rfl⟩ |
    ⟨index, around, mine, load, table, progress, rfl, hmine, hgoing, hload, rfl⟩
  · rcases List.mem_append.mp hmem with hold | hnew
    · exact hkept call hold
    · obtain rfl := List.mem_singleton.mp hnew
      exact GrammarTable.keeps_ofList shared.table definitions
  · rcases List.mem_or_eq_of_mem_set hmem with hold | rfl
    · exact (hkept call hold).of_le hload.le
    · have hkeeps := hkept mine (List.mem_of_getElem? hmine)
      rw [Kept, hgoing] at hkeeps
      exact kept_of_loadStep hload hkeeps

theorem kept_of_run (hrun : shared.run actions = some final)
    (hkept : ∀ call ∈ shared.calls, Kept shared.table call) :
    ∀ call ∈ final.calls, Kept final.table call := by
  induction actions generalizing shared with
  | nil =>
    obtain rfl := Option.some.inj hrun
    exact hkept
  | cons action rest ih =>
    obtain ⟨next, hstep, hrest⟩ := run_cons_eq_some hrun
    exact ih hrest (kept_of_step hstep hkept)

/-! ## Overlapping loads -/

/-- At every point of a run, all that a load adds is visible, or none of it. -/
theorem all_or_none (hbefore : start.run before = some middle) (hafter : middle.run after = some final) :
    (∀ name ∈ additions index start (before ++ after), middle.table.isLoaded name = true) ∨
      ∀ name ∈ additions index start (before ++ after), middle.table.isLoaded name = false := by
  rw [additions_append hbefore]
  by_cases hadds : additions index start before = []
  · rw [hadds, List.nil_append]
    exact Or.inr fun name hname => isLoaded_eq_false_of_mem_additions hafter hname
  · -- the load is over by then, so it adds nothing later
    obtain ⟨call, hcall, hok⟩ := ok_of_additions_ne_nil hbefore hadds
    rw [additions_of_ended hafter hcall hok, List.append_nil]
    exact Or.inl fun name hname => (isLoaded_run_iff hbefore).mpr (Or.inr ⟨index, hname⟩)

/-- **Loads of one table are atomic**, in whatever order they take their steps. Between what happened before
some point of a run and what happens after it:

What is bound at that point stays bound, to the same grammar. What is bound at the end was bound at the start,
or some load added it. A load that failed has added nothing. Of what a load adds in the whole run, all is
bound at that point, or none. And when a load has succeeded, every definition of its list has a name that is
bound. -/
theorem overlapping_loads_atomic (hstart : start.calls = []) (hbefore : start.run before = some middle)
    (hafter : middle.run after = some final) :
    (∀ name grammar, middle.table.find? name = some grammar →
      final.table.find? name = some grammar) ∧
    (∀ name, final.table.isLoaded name = true ↔
      start.table.isLoaded name = true ∨ ∃ index, name ∈ additions index start (before ++ after)) ∧
    (∀ (index : Nat) call failure, final.calls[index]? = some call →
      call.progress = .ended (.error failure) → additions index start (before ++ after) = []) ∧
    (∀ index,
      (∀ name ∈ additions index start (before ++ after), middle.table.isLoaded name = true) ∨
      ∀ name ∈ additions index start (before ++ after), middle.table.isLoaded name = false) ∧
    (∀ (index : Nat) call, final.calls[index]? = some call → call.progress = .ended (.ok ()) →
      ∀ definition ∈ call.definitions,
        ∃ name, definition.name = some name ∧ final.table.isLoaded name = true) := by
  have hrun : start.run (before ++ after) = some final := run_append hbefore hafter
  refine ⟨le_of_run hafter, fun name => isLoaded_run_iff hrun, ?_, fun index =>
    all_or_none hbefore hafter, ?_⟩
  · intro index call failure hcall hfailed
    refine Decidable.byContradiction fun hadds => ?_
    obtain ⟨same, hsame, hok⟩ := ok_of_additions_ne_nil hrun hadds
    obtain rfl := Option.some.inj (hsame.symm.trans hcall)
    rw [hok] at hfailed
    cases hfailed
  · intro index call hcall hok
    have hkept := kept_of_run hrun (by rw [hstart]; nofun) call (List.mem_of_getElem? hcall)
    rw [Kept, hok] at hkept
    exact hkept

/-- Three loads that share names: the first two are each going to bind `b`, to a grammar of its own, and the
last comes to a grammar that cannot be driven. -/
def sharing : List TableAction :=
  [.call [⟨some "a", .linked ⟨"one", 14⟩⟩, ⟨some "b", .linked ⟨"one", 14⟩⟩],
    .call [⟨some "b", .linked ⟨"two", 13⟩⟩, ⟨some "c", .linked ⟨"two", 14⟩⟩],
    .call [⟨some "d", .linked ⟨"three", 14⟩⟩, ⟨some "c", .linked ⟨"three", 15⟩⟩]]

/-- All three check and prepare what they list, taking turns, and then the first is committed. -/
def racing : List TableAction :=
  sharing ++ (List.replicate 4 [0, 1, 2]).flatten.map (.advance · ⟨.blank, []⟩)
    ++ [.advance 0 ⟨.blank, []⟩]

/-- When the second is committed too, it adds `c` alone, and `b` stays as the first bound it; the last adds
nothing. -/
theorem overlapping_loads_atomic_racing : ∃ middle final : SharedTable,
    run ⟨.empty, []⟩ racing = some middle ∧ middle.run [.advance 1 ⟨.blank, []⟩] = some final ∧
      final.table.find? "b" = some ⟨"one", 14⟩ ∧ final.table.isLoaded "c" = true ∧
      additions 0 ⟨.empty, []⟩ (racing ++ [.advance 1 ⟨.blank, []⟩]) = ["a", "b"] ∧
      additions 1 ⟨.empty, []⟩ (racing ++ [.advance 1 ⟨.blank, []⟩]) = ["c"] ∧
      additions 2 ⟨.empty, []⟩ (racing ++ [.advance 1 ⟨.blank, []⟩]) = [] ∧
      (∀ name ∈ additions 0 ⟨.empty, []⟩ (racing ++ [.advance 1 ⟨.blank, []⟩]),
        middle.table.isLoaded name = true) ∧
      ∀ name ∈ additions 1 ⟨.empty, []⟩ (racing ++ [.advance 1 ⟨.blank, []⟩]),
        middle.table.isLoaded name = false := by
  obtain ⟨hstays, -, hfailed, hvisible, hloaded⟩ := @overlapping_loads_atomic ⟨.empty, []⟩ _ _ racing
    [.advance 1 ⟨.blank, []⟩] rfl rfl rfl
  obtain ⟨name, hname, hbound⟩ := hloaded 1 _ rfl rfl _ (List.mem_cons_of_mem _ List.mem_cons_self)
  obtain rfl := Option.some.inj hname
  have hfirst := (hvisible 0).resolve_right fun hnone =>
    Bool.noConfusion (show true = false from hnone "a" (by decide))
  have hsecond := (hvisible 1).resolve_left fun hall =>
    Bool.noConfusion (show false = true from hall "c" (by decide))
  exact ⟨_, _, rfl, rfl, hstays "b" _ rfl, hbound, rfl, rfl, hfailed 2 _ _ rfl rfl, hfirst, hsecond⟩

end SharedTable

end CodeMarkup
