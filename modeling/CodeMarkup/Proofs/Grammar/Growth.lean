import Mathlib.Order.Defs.PartialOrder
import CodeMarkup.Grammar.Table

/-!
# Tables grow

A table is at most another if what it binds is bound there too, to the same grammar. A step of a load leads
to a table that is no less, and only the last step of a load that succeeds leads to another one at all.
The steps are listed once (`LoadStep`), and `advance_inv` says that there are no others.

What a load still owes is kept in a ledger (`TableLoad.Keeps`): each definition that it has passed has a
name, which is bound already or among those that the load is about to bind. So when a load succeeds, every
name of its list is bound.
-/

namespace CodeMarkup

/-- The names that definitions declare. -/
def declaredNames (definitions : List GrammarDefinition) : List String :=
  definitions.filterMap GrammarDefinition.name

theorem mem_declaredNames {definitions : List GrammarDefinition} {name : String} :
    name ∈ declaredNames definitions ↔ ∃ definition ∈ definitions, definition.name = some name :=
  List.mem_filterMap

/-- The names that a load has found unbound so far. -/
def TableLoad.names (load : TableLoad) : List String :=
  load.staged.map Prod.fst ++ (load.preparing.map Prod.fst).toList

namespace GrammarTable

variable {around : Surroundings} {table next later : GrammarTable} {load : TableLoad}
  {progress : Progress TableLoad} {definitions : List GrammarDefinition} {name : String}

/-! ## The order of tables -/

/-- A table is at most another if the other binds all that it binds, to the same grammars. -/
instance : Preorder GrammarTable where
  le table later := ∀ name grammar, table.find? name = some grammar → later.find? name = some grammar
  le_refl _ := fun _ _ hfind => hfind
  le_trans _ _ _ hfirst hsecond := fun name grammar hfind =>
    hsecond name grammar (hfirst name grammar hfind)

theorem isLoaded_iff : table.isLoaded name = true ↔ ∃ grammar, table.find? name = some grammar :=
  Option.isSome_iff_exists

/-- A bound name stays bound. -/
theorem isLoaded_of_le (hle : table ≤ later) (hloaded : table.isLoaded name = true) :
    later.isLoaded name = true := by
  obtain ⟨grammar, hfind⟩ := isLoaded_iff.mp hloaded
  exact isLoaded_iff.mpr ⟨grammar, hle name grammar hfind⟩

/-- The names listed are the names bound. -/
theorem mem_names : name ∈ table.names ↔ table.isLoaded name = true := by
  obtain ⟨bindings⟩ := table
  simp only [names, isLoaded, find?]
  induction bindings with
  | nil => simp
  | cons pair rest ih =>
    rw [List.map_cons, List.mem_cons, List.lookup_cons, ih]
    by_cases hsame : name = pair.1
    · simp [hsame]
    · have hother : (name == pair.1) = false := by simpa using hsame
      simp [hsame, hother]

theorem le_bind (table : GrammarTable) (name : String) (grammar : Grammar) :
    table ≤ table.bind name grammar := by
  intro other old hfind
  rw [find?_bind]
  split
  · rename_i hsame
    rw [← hsame, hfind, Option.some_or]
  · exact hfind

theorem le_bindAll (table : GrammarTable) (staged : List (String × Grammar)) :
    table ≤ table.bindAll staged := by
  induction staged generalizing table with
  | nil => exact le_refl table
  | cons pair rest ih => exact le_trans (table.le_bind pair.1 pair.2) (ih (table.bind pair.1 pair.2))

theorem isLoaded_bind (table : GrammarTable) (name other : String) (grammar : Grammar) :
    (table.bind name grammar).isLoaded other = true ↔ other = name ∨ table.isLoaded other = true := by
  rw [isLoaded, find?_bind]
  by_cases hsame : other = name
  · simp [hsame]
  · simp [hsame, isLoaded]

/-- Binding several names binds those names and no others. -/
theorem isLoaded_bindAll (table : GrammarTable) (staged : List (String × Grammar)) (name : String) :
    (table.bindAll staged).isLoaded name = true ↔
      name ∈ staged.map Prod.fst ∨ table.isLoaded name = true := by
  induction staged generalizing table with
  | nil => simp [bindAll]
  | cons pair rest ih =>
    have hrest : ((table.bind pair.1 pair.2).bindAll rest).isLoaded name = true ↔
        name ∈ rest.map Prod.fst ∨ name = pair.1 ∨ table.isLoaded name = true := by
      rw [ih, isLoaded_bind]
    rw [List.map_cons, List.mem_cons, or_assoc, or_left_comm]
    exact hrest

/-! ## The steps of a load -/

/-- The steps of a load of a table, from each state of the load to what follows. -/
inductive LoadStep (around : Surroundings) (table : GrammarTable) :
    TableLoad → GrammarTable → Progress TableLoad → Prop where
  /-- a source is prepared -/
  | prepared {pending : List GrammarDefinition} {staged : List (String × Grammar)} {name : String}
      {source : GrammarSource} {grammar : Grammar} (hprepare : source.prepare around = .ok grammar) :
    LoadStep around table ⟨pending, some (name, source), staged⟩ table
      (.going ⟨pending, none, staged ++ [(name, grammar)]⟩)
  /-- a source cannot be prepared -/
  | unprepared {pending : List GrammarDefinition} {staged : List (String × Grammar)} {name : String}
      {source : GrammarSource} {fault : LoadFault} (hprepare : source.prepare around = .error fault) :
    LoadStep around table ⟨pending, some (name, source), staged⟩ table (.ended (.error ⟨name, fault⟩))
  /-- a definition has no name -/
  | unnamed {definition : GrammarDefinition} {rest : List GrammarDefinition}
      {staged : List (String × Grammar)} (hname : definition.name = none) :
    LoadStep around table ⟨definition :: rest, none, staged⟩ table
      (.ended (.error ⟨definition.shownName, .unnamed⟩))
  /-- a name is bound already -/
  | passed {definition : GrammarDefinition} {rest : List GrammarDefinition}
      {staged : List (String × Grammar)} {name : String} (hname : definition.name = some name)
      (hbound : table.isLoaded name = true) :
    LoadStep around table ⟨definition :: rest, none, staged⟩ table (.going ⟨rest, none, staged⟩)
  /-- a name is not bound -/
  | found {definition : GrammarDefinition} {rest : List GrammarDefinition}
      {staged : List (String × Grammar)} {name : String} (hname : definition.name = some name)
      (hunbound : table.isLoaded name = false) :
    LoadStep around table ⟨definition :: rest, none, staged⟩ table
      (.going ⟨rest, some (name, definition.source), staged⟩)
  /-- all is bound at once -/
  | committed {staged : List (String × Grammar)} :
    LoadStep around table ⟨[], none, staged⟩ (table.bindAll staged) (.ended (.ok ()))

/-- **A load takes no other steps.** -/
theorem advance_inv (h : advance around table load = (next, progress)) :
    LoadStep around table load next progress := by
  obtain ⟨pending, preparing, staged⟩ := load
  rcases preparing with _ | ⟨name, source⟩
  · rcases pending with _ | ⟨definition, rest⟩
    · obtain ⟨rfl, rfl⟩ := Prod.mk.inj h
      exact .committed
    · rcases hname : definition.name with _ | name
      · simp only [advance, hname] at h
        obtain ⟨rfl, rfl⟩ := Prod.mk.inj h
        exact .unnamed hname
      · simp only [advance, hname] at h
        split at h
        · rename_i hbound
          obtain ⟨rfl, rfl⟩ := Prod.mk.inj h
          exact .passed hname hbound
        · rename_i hunbound
          obtain ⟨rfl, rfl⟩ := Prod.mk.inj h
          exact .found hname (Bool.not_eq_true _ ▸ hunbound)
  · rcases hprepare : source.prepare around with fault | grammar
    · simp only [advance, hprepare] at h
      obtain ⟨rfl, rfl⟩ := Prod.mk.inj h
      exact .unprepared hprepare
    · simp only [advance, hprepare] at h
      obtain ⟨rfl, rfl⟩ := Prod.mk.inj h
      exact .prepared hprepare

/-- **A step of a load only adds to the table.** -/
theorem LoadStep.le (hstep : LoadStep around table load next progress) : table ≤ next := by
  cases hstep with
  | committed => exact table.le_bindAll _
  | _ => exact le_refl table

/-- **A step that does not end a load in success leaves the table alone.** -/
theorem LoadStep.eq_of_ne_ok (hstep : LoadStep around table load next progress)
    (hprogress : progress ≠ .ended (.ok ())) : next = table := by
  cases hstep with
  | committed => exact absurd rfl hprogress
  | _ => rfl

/-! ## What a load owes -/

/-- **The ledger of a load** of a list of definitions. -/
structure Keeps (table : GrammarTable) (definitions : List GrammarDefinition) (load : TableLoad) :
    Prop where
  /-- what has been passed has a name that is bound, or will be -/
  passed : ∃ done, definitions = done ++ load.pending ∧ ∀ definition ∈ done,
    ∃ name, definition.name = some name ∧ (table.isLoaded name = true ∨ name ∈ load.names)
  /-- no name will be bound that is not in the list -/
  listed : ∀ name ∈ load.names, name ∈ declaredNames definitions

theorem keeps_ofList (table : GrammarTable) (definitions : List GrammarDefinition) :
    table.Keeps definitions (.ofList definitions) :=
  ⟨⟨[], rfl, nofun⟩, nofun⟩

/-- A ledger is kept while the table grows. -/
theorem Keeps.of_le (hle : table ≤ later) (hkeeps : table.Keeps definitions load) :
    later.Keeps definitions load := by
  obtain ⟨done, hdone, hpassed⟩ := hkeeps.passed
  refine ⟨⟨done, hdone, fun definition hmem => ?_⟩, hkeeps.listed⟩
  obtain ⟨name, hname, hbound⟩ := hpassed definition hmem
  exact ⟨name, hname, hbound.imp_left (isLoaded_of_le hle)⟩

/-- A definition that is passed is put on the ledger. -/
theorem Keeps.pass {definition : GrammarDefinition} {rest : List GrammarDefinition}
    {staged : List (String × Grammar)} {going : TableLoad}
    (hkeeps : table.Keeps definitions ⟨definition :: rest, none, staged⟩)
    (hname : definition.name = some name) (hpending : going.pending = rest)
    (hnames : ∀ other, other ∈ going.names ↔
      other ∈ staged.map Prod.fst ∨ (other = name ∧ table.isLoaded name = false)) :
    table.Keeps definitions going := by
  obtain ⟨⟨done, hdone, hpassed⟩, hlisted⟩ := hkeeps
  have hstaged : TableLoad.names ⟨definition :: rest, none, staged⟩ = staged.map Prod.fst :=
    List.append_nil _
  rw [hstaged] at hlisted
  constructor
  case passed =>
    refine ⟨done ++ [definition], ?_, fun other hmem => ?_⟩
    · rw [hpending, hdone, List.append_assoc, List.singleton_append]
    · rcases List.mem_append.mp hmem with hold | hnew
      · obtain ⟨old, hold, hbound⟩ := hpassed other hold
        rw [hstaged] at hbound
        exact ⟨old, hold, hbound.imp_right fun hin => (hnames old).mpr (Or.inl hin)⟩
      · obtain rfl := List.mem_singleton.mp hnew
        refine ⟨name, hname, ?_⟩
        rcases hbound : table.isLoaded name with _ | _
        · exact Or.inr ((hnames name).mpr (Or.inr ⟨rfl, hbound⟩))
        · exact Or.inl rfl
  case listed =>
    intro other hother
    rcases (hnames other).mp hother with hold | ⟨rfl, -⟩
    · exact hlisted other hold
    · refine mem_declaredNames.mpr ⟨definition, ?_, hname⟩
      rw [hdone]
      exact List.mem_append_right _ List.mem_cons_self

/-- **A step keeps the ledger.** -/
theorem LoadStep.keeps {going : TableLoad} (hstep : LoadStep around table load next (.going going))
    (hkeeps : table.Keeps definitions load) : next.Keeps definitions going := by
  cases hstep with
  | @prepared pending staged name source grammar hprepare =>
    have hnames : TableLoad.names ⟨pending, none, staged ++ [(name, grammar)]⟩
        = TableLoad.names ⟨pending, some (name, source), staged⟩ := by
      simp [TableLoad.names]
    obtain ⟨⟨done, hdone, hpassed⟩, hlisted⟩ := hkeeps
    exact ⟨⟨done, hdone, hnames ▸ hpassed⟩, hnames ▸ hlisted⟩
  | passed hname hbound => exact hkeeps.pass hname rfl fun other => by simp [TableLoad.names, hbound]
  | found hname hunbound =>
    exact hkeeps.pass hname rfl fun other => by simp [TableLoad.names, hunbound]

/-- **When a load succeeds, every definition of its list has a name that is bound.** -/
theorem LoadStep.isLoaded_of_ok (hstep : LoadStep around table load next (.ended (.ok ())))
    (hkeeps : table.Keeps definitions load) {definition : GrammarDefinition}
    (hmem : definition ∈ definitions) :
    ∃ name, definition.name = some name ∧ next.isLoaded name = true := by
  cases hstep with
  | @committed staged =>
    obtain ⟨done, hdone, hpassed⟩ := hkeeps.passed
    rw [List.append_nil] at hdone
    obtain ⟨name, hname, hbound⟩ := hpassed definition (hdone ▸ hmem)
    refine ⟨name, hname, (table.isLoaded_bindAll staged name).mpr ?_⟩
    rcases hbound with hbound | hstaged
    · exact Or.inr hbound
    · rw [TableLoad.names, List.mem_append] at hstaged
      exact Or.inl (hstaged.resolve_right List.not_mem_nil)

/-- **A name that a step binds is in the list**, and the step is the last one, of a load that succeeds. -/
theorem LoadStep.mem_of_isLoaded (hstep : LoadStep around table load next progress)
    (hkeeps : table.Keeps definitions load) (hloaded : next.isLoaded name = true) :
    table.isLoaded name = true ∨ (progress = .ended (.ok ()) ∧ name ∈ declaredNames definitions) := by
  cases hstep with
  | @committed staged =>
    rcases (table.isLoaded_bindAll staged name).mp hloaded with hstaged | hbound
    · refine Or.inr ⟨rfl, hkeeps.listed name ?_⟩
      exact List.mem_append_left _ hstaged
    · exact Or.inl hbound
  | _ => exact Or.inl hloaded

end GrammarTable

end CodeMarkup
