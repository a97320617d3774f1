import CodeMarkup.Grammar.Load

/-!
# Grammar tables

A table binds names to grammars that are ready for use. It only grows: a name that is bound stays bound
to the same grammar.

A **load** brings an ordered list of definitions into the table as one unit. It goes through the list
and checks each name; names that are bound already are passed over, and the sources of the others are
prepared and set aside. Only when the whole list has been gone through is what was set aside bound, all
of it in one step, and a fault before that leaves the table as it was. Loads of the same table may
overlap, so a name may have been bound by another load in the meantime, and then the first binding wins.

To let loads overlap, a load is a state of its own (`TableLoad`) that `GrammarTable.advance` takes one
step further: the check of a name, the preparation of a source, or the binding of the whole.
`GrammarTable.load` is a load that nothing interrupts.
-/

namespace CodeMarkup

/-- Grammars by name. -/
structure GrammarTable where
  /-- the bound names, the oldest first -/
  bindings : List (String × Grammar)
  deriving DecidableEq, Repr

/-- How far a load has come. -/
structure TableLoad where
  /-- definitions whose names are still to be checked -/
  pending : List GrammarDefinition
  /-- a name found unbound, whose source is to be prepared next -/
  preparing : Option (String × GrammarSource)
  /-- what was prepared so far -/
  staged : List (String × Grammar)
  deriving DecidableEq, Repr

/-- What a step of a load leads to. -/
inductive Progress (Load : Type) where
  /-- there is more to do -/
  | going (load : Load)
  /-- the load is over -/
  | ended (result : Except LoadFailure Unit)

namespace TableLoad

/-- A load that has not begun. -/
def ofList (definitions : List GrammarDefinition) : TableLoad :=
  ⟨definitions, none, []⟩

/-- How many steps a load may still take before its end. -/
def remaining (load : TableLoad) : Nat :=
  2 * load.pending.length + if load.preparing.isSome then 1 else 0

end TableLoad

namespace GrammarTable

/-- The table without a binding. -/
def empty : GrammarTable := ⟨[]⟩

/-- The grammar bound to a name. -/
def find? (table : GrammarTable) (name : String) : Option Grammar :=
  table.bindings.lookup name

/-- Whether a name is bound. -/
def isLoaded (table : GrammarTable) (name : String) : Bool :=
  (table.find? name).isSome

/-- The bound names. -/
def names (table : GrammarTable) : List String :=
  table.bindings.map Prod.fst

/-- The table with a name bound, unless it is bound already. -/
def bind (table : GrammarTable) (name : String) (grammar : Grammar) : GrammarTable :=
  if table.isLoaded name then table else ⟨table.bindings ++ [(name, grammar)]⟩

/-- The table with several names bound, in order. -/
def bindAll (table : GrammarTable) (staged : List (String × Grammar)) : GrammarTable :=
  staged.foldl (fun table (name, grammar) => table.bind name grammar) table

/-! ## Loads -/

/-- One step of a load. -/
def advance (around : Surroundings) (table : GrammarTable) (load : TableLoad) :
    GrammarTable × Progress TableLoad :=
  match load.preparing with
  | some (name, source) =>
    match source.prepare around with
    | .ok grammar => (table, .going ⟨load.pending, none, load.staged ++ [(name, grammar)]⟩)
    | .error fault => (table, .ended (.error ⟨name, fault⟩))
  | none =>
    match load.pending with
    | [] => (table.bindAll load.staged, .ended (.ok ()))
    | definition :: rest =>
      match definition.name with
      | none => (table, .ended (.error ⟨definition.shownName, .unnamed⟩))
      | some name =>
        if table.isLoaded name then (table, .going ⟨rest, none, load.staged⟩)
        else (table, .going ⟨rest, some (name, definition.source), load.staged⟩)

/-- A step that does not end a load leaves fewer to take. -/
theorem remaining_lt_of_advance {around : Surroundings} {table next : GrammarTable}
    {load later : TableLoad} (h : advance around table load = (next, .going later)) :
    later.remaining < load.remaining := by
  obtain ⟨pending, preparing, staged⟩ := load
  unfold advance at h
  split at h
  -- a source is prepared: the pending definitions stay, and the preparation is done
  · rename_i hp
    dsimp only at hp
    subst hp
    split at h
    · cases h
      simp [TableLoad.remaining]
    · cases h
  -- a name is checked: one pending definition fewer, for at most one preparation more
  · rename_i hp
    dsimp only at hp
    subst hp
    split at h
    · cases h
    · rename_i definition rest hd
      dsimp only at hd
      subst hd
      split at h
      · cases h
      · split at h <;> cases h <;> simp only [TableLoad.remaining, List.length_cons] <;> grind

/-- Takes a load to its end without interruption. -/
def finish (around : Surroundings) (table : GrammarTable) (load : TableLoad) :
    GrammarTable × Except LoadFailure Unit :=
  match _step : advance around table load with
  | (table, .going later) => finish around table later
  | (table, .ended result) => (table, result)
termination_by load.remaining
decreasing_by exact remaining_lt_of_advance _step

/-- Loads an ordered list of definitions as one unit. -/
def load (around : Surroundings) (table : GrammarTable) (definitions : List GrammarDefinition) :
    GrammarTable × Except LoadFailure Unit :=
  finish around table (.ofList definitions)

/-! ## Bindings -/

/-- Binding a name binds that name, if it was not bound, and no other. -/
theorem find?_bind (table : GrammarTable) (name other : String) (grammar : Grammar) :
    (table.bind name grammar).find? other
      = if other = name then (table.find? name).or (some grammar) else table.find? other := by
  unfold bind isLoaded
  cases h : table.find? name with
  | some old =>
    by_cases ho : other = name
    · subst ho
      simp [h]
    · simp [ho]
  | none =>
    have append : ∀ pairs : List (String × Grammar),
        (pairs ++ [(name, grammar)]).lookup other
          = (pairs.lookup other).or ([(name, grammar)].lookup other) := by
      intro pairs
      induction pairs with
      | nil => rfl
      | cons pair rest ih =>
        obtain ⟨key, value⟩ := pair
        rw [List.cons_append, List.lookup_cons, List.lookup_cons]
        cases other == key
        · exact ih
        · rfl
    by_cases ho : other = name
    · subst ho
      simp only [find?] at h
      simp [find?, append, h]
    · have hb : (other == name) = false := by simpa using ho
      simp [find?, append, ho, List.lookup_cons, hb]

end GrammarTable

end CodeMarkup
