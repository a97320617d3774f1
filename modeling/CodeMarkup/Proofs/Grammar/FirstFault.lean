import CodeMarkup.Proofs.Grammar.Whole

/-!
# What a load comes to

A load that nothing interrupts is decided by its list and the table that it finds. A definition is **pending** if its
name is not bound in that table. It is **faulty** if it has no name, or if it is pending and what its source opens to,
if it opens at all, cannot be driven. With a faulty definition on the list the load fails with the first one of them
and the table stays as it was. Without one it succeeds, and each pending name is bound to what the first definition of
that name opens to (`load_of_faults`).

The definitions before the first faulty one are gone through one by one (`finish_append`), and what they leave to be
bound is `stagings`. A name may be there more than once, and then the first of its bindings counts (`find?_bindAll_eq`).
-/

namespace CodeMarkup

/-! ## Sources -/

/-- The tables that a source opens to: those that are linked, or those that a library exports under the symbol. -/
inductive GrammarSource.Opens (around : Surroundings) : GrammarSource → Grammar → Prop where
  /-- the tables are linked into the program -/
  | linked {grammar : Grammar} : Opens around (.linked grammar) grammar
  /-- the library is there, opens, and exports the symbol -/
  | library {path symbol : String} {exported : List (String × Grammar)} {grammar : Grammar}
      (hopen : around.disk.openLibrary around.current path = some (.ok exported))
      (hsymbol : exported.lookup symbol = some grammar) :
    Opens around (.library path symbol) grammar

theorem Surroundings.readLibrary_eq_ok_iff {around : Surroundings} {path symbol : String} {grammar : Grammar} :
    around.readLibrary path symbol = .ok grammar ↔
      (GrammarSource.library path symbol).Opens around grammar := by
  unfold readLibrary
  constructor
  · intro h
    split at h
    · cases h
    · cases h
    · rename_i exported hopen
      split at h
      · cases h
      · rename_i found hsymbol
        obtain rfl := Except.ok.inj h
        exact .library hopen hsymbol
  · rintro (_ | ⟨hopen, hsymbol⟩)
    simp only [hopen, hsymbol]

theorem Grammar.check_eq_ok_iff {grammar checked : Grammar} :
    grammar.check = .ok checked ↔ checked = grammar ∧ oldestAbi ≤ grammar.abi ∧ grammar.abi ≤ currentAbi := by
  unfold check isCompatible
  by_cases hfit : oldestAbi ≤ grammar.abi ∧ grammar.abi ≤ currentAbi
  · simp [hfit, eq_comm]
  · simp [hfit]

/-- **A source is prepared with success iff it opens to tables that can be driven.** -/
theorem GrammarSource.prepare_eq_ok_iff {around : Surroundings} {source : GrammarSource} {grammar : Grammar} :
    source.prepare around = .ok grammar ↔
      source.Opens around grammar ∧ Grammar.oldestAbi ≤ grammar.abi ∧ grammar.abi ≤ Grammar.currentAbi := by
  cases source with
  | linked tables =>
    rw [prepare, Grammar.check_eq_ok_iff]
    constructor
    · rintro ⟨rfl, hfit⟩
      exact ⟨.linked, hfit⟩
    · rintro ⟨⟨⟩, hfit⟩
      exact ⟨rfl, hfit⟩
  | library path symbol =>
    constructor
    · intro h
      obtain ⟨tables, hread, hcheck⟩ := ok_of_bind h
      obtain ⟨rfl, hfit⟩ := Grammar.check_eq_ok_iff.mp hcheck
      exact ⟨Surroundings.readLibrary_eq_ok_iff.mp hread, hfit⟩
    · rintro ⟨hopens, hfit⟩
      rw [prepare, Surroundings.readLibrary_eq_ok_iff.mpr hopens]
      exact Grammar.check_eq_ok_iff.mpr ⟨rfl, hfit⟩

namespace GrammarTable

variable {around : Surroundings} {table next after : GrammarTable} {load going : TableLoad}
  {front back definitions : List GrammarDefinition} {definition faulty : GrammarDefinition}
  {staged : List (String × Grammar)} {name : String} {grammar : Grammar}

/-! ## Faults -/

/-- A definition whose name is not bound is pending; so is one without a name. -/
def Pending (table : GrammarTable) (definition : GrammarDefinition) : Prop :=
  ∀ name, definition.name = some name → table.isLoaded name = false

/-- A definition is faulty if it has no name, or is pending and its source does not open to tables that can be
driven. -/
def Faulty (around : Surroundings) (table : GrammarTable) (definition : GrammarDefinition) : Prop :=
  definition.name = none ∨ table.Pending definition ∧ ∀ grammar, definition.source.Opens around grammar →
    ¬ (Grammar.oldestAbi ≤ grammar.abi ∧ grammar.abi ≤ Grammar.currentAbi)

/-- A definition is faulty iff it has no name, or its name is not bound and its source cannot be prepared. -/
theorem faulty_iff : table.Faulty around definition ↔ definition.name = none ∨
    ∃ name fault, definition.name = some name ∧ table.isLoaded name = false ∧
      definition.source.prepare around = .error fault := by
  rcases hname : definition.name with _ | name
  · exact iff_of_true (Or.inl hname) (Or.inl rfl)
  · have hpending : table.Pending definition ↔ table.isLoaded name = false := by
      constructor
      · exact fun hall => hall name hname
      · intro hunbound other hother
        obtain rfl := Option.some.inj (hname.symm.trans hother)
        exact hunbound
    have hunfit : (∀ grammar, definition.source.Opens around grammar →
        ¬ (Grammar.oldestAbi ≤ grammar.abi ∧ grammar.abi ≤ Grammar.currentAbi)) ↔
        ∃ fault, definition.source.prepare around = .error fault := by
      rcases hprepare : definition.source.prepare around with fault | grammar
      · refine iff_of_true (fun grammar hopens hfit => ?_) ⟨fault, rfl⟩
        cases hprepare.symm.trans (GrammarSource.prepare_eq_ok_iff.mpr ⟨hopens, hfit⟩)
      · obtain ⟨hopens, hfit⟩ := GrammarSource.prepare_eq_ok_iff.mp hprepare
        exact iff_of_false (fun hnone => hnone grammar hopens hfit) nofun
    rw [Faulty, hname, hpending, hunfit]
    simp

/-! ## Going through a list -/

theorem finish_of_going (hstep : advance around table load = (next, .going going)) :
    finish around table load = finish around next going := by
  rw [finish, hstep]

theorem finish_of_ended {result : Except LoadFailure Unit}
    (hstep : advance around table load = (next, .ended result)) :
    finish around table load = (next, result) := by
  rw [finish, hstep]

/-- What a definition leaves to be bound: nothing if its name is bound already. -/
def staging? (around : Surroundings) (table : GrammarTable) (definition : GrammarDefinition) :
    Option (String × Grammar) := do
  let name ← definition.name
  if table.isLoaded name then none
  else
    let grammar ← (definition.source.prepare around).toOption
    return (name, grammar)

/-- What definitions leave to be bound. -/
def stagings (around : Surroundings) (table : GrammarTable) (definitions : List GrammarDefinition) :
    List (String × Grammar) :=
  definitions.filterMap (table.staging? around)

/-- **A definition that is not faulty is passed**, and what it leaves to be bound is set aside. -/
theorem finish_cons (h : ¬ table.Faulty around definition) :
    finish around table ⟨definition :: back, none, staged⟩
      = finish around table ⟨back, none, staged ++ (table.staging? around definition).toList⟩ := by
  rw [faulty_iff, not_or] at h
  obtain ⟨hnamed, hfine⟩ := h
  obtain ⟨name, hname⟩ := Option.ne_none_iff_exists'.mp hnamed
  rcases hbound : table.isLoaded name with _ | _
  · rcases hprepare : definition.source.prepare around with fault | grammar
    · exact absurd ⟨name, fault, hname, hbound, hprepare⟩ hfine
    · have hchecked : advance around table ⟨definition :: back, none, staged⟩
          = (table, .going ⟨back, some (name, definition.source), staged⟩) := by
        simp [advance, hname, hbound]
      have hprepared : advance around table ⟨back, some (name, definition.source), staged⟩
          = (table, .going ⟨back, none, staged ++ [(name, grammar)]⟩) := by
        simp [advance, hprepare]
      have hstaging : table.staging? around definition = some (name, grammar) := by
        simp [staging?, hname, hbound, hprepare, Except.toOption]
      rw [finish_of_going hchecked, finish_of_going hprepared, hstaging, Option.toList_some]
  · have hpassed : advance around table ⟨definition :: back, none, staged⟩
        = (table, .going ⟨back, none, staged⟩) := by
      simp [advance, hname, hbound]
    have hstaging : table.staging? around definition = none := by
      simp [staging?, hname, hbound]
    rw [finish_of_going hpassed, hstaging, Option.toList_none, List.append_nil]

/-- **Definitions that are not faulty are passed one after another.** -/
theorem finish_append (h : ∀ definition ∈ front, ¬ table.Faulty around definition) :
    finish around table ⟨front ++ back, none, staged⟩
      = finish around table ⟨back, none, staged ++ table.stagings around front⟩ := by
  induction front generalizing staged with
  | nil => rw [stagings, List.filterMap_nil, List.append_nil, List.nil_append]
  | cons definition front ih =>
    have hrest := fun other hmem => h other (List.mem_cons_of_mem _ hmem)
    rw [List.cons_append, finish_cons (h definition List.mem_cons_self), ih hrest, stagings, stagings,
      List.append_assoc, List.filterMap_cons]
    cases table.staging? around definition <;> rfl

/-- **A faulty definition ends the load**, which leaves the table as it was. -/
theorem finish_of_faulty (h : table.Faulty around faulty) :
    ∃ fault, finish around table ⟨faulty :: back, none, staged⟩
        = (table, .error ⟨faulty.shownName, fault⟩) ∧
      (faulty.name = none ∧ fault = .unnamed ∨
        faulty.name ≠ none ∧ faulty.source.prepare around = .error fault) := by
  rcases faulty_iff.mp h with hnone | ⟨name, fault, hname, hunbound, hprepare⟩
  · have hended : advance around table ⟨faulty :: back, none, staged⟩
        = (table, .ended (.error ⟨faulty.shownName, .unnamed⟩)) := by
      simp [advance, hnone]
    exact ⟨_, finish_of_ended hended, Or.inl ⟨hnone, rfl⟩⟩
  · have hchecked : advance around table ⟨faulty :: back, none, staged⟩
        = (table, .going ⟨back, some (name, faulty.source), staged⟩) := by
      simp [advance, hname, hunbound]
    have hended : advance around table ⟨back, some (name, faulty.source), staged⟩
        = (table, .ended (.error ⟨faulty.shownName, fault⟩)) := by
      simp [advance, hprepare, GrammarDefinition.shownName, hname]
    refine ⟨fault, (finish_of_going hchecked).trans (finish_of_ended hended), Or.inr ⟨?_, hprepare⟩⟩
    simp [hname]

/-! ## What is bound -/

/-- Of several bindings of a name the first counts, unless the name was bound before. -/
theorem find?_bindAll_eq (table : GrammarTable) (staged : List (String × Grammar)) (name : String) :
    (table.bindAll staged).find? name = (table.find? name).or (staged.lookup name) := by
  induction staged generalizing table with
  | nil => exact (Option.or_none).symm
  | cons pair rest ih =>
    have hrest := ih (table.bind pair.1 pair.2)
    rw [find?_bind] at hrest
    rw [List.lookup_cons]
    refine hrest.trans ?_
    by_cases hsame : name = pair.1
    · simp [hsame]
    · have hother : (name == pair.1) = false := by simpa using hsame
      simp [hsame, hother]

/-- What a definition leaves to be bound has the name that it declares. -/
theorem name_of_staging? (h : table.staging? around definition = some (name, grammar)) :
    definition.name = some name := by
  simp only [staging?, Option.bind_eq_bind, Option.bind_eq_some_iff] at h
  obtain ⟨declared, hname, h⟩ := h
  split at h
  · cases h
  · obtain ⟨found, -, hpair⟩ := Option.bind_eq_some_iff.mp h
    obtain ⟨rfl, -⟩ := Prod.mk.inj (Option.some.inj hpair)
    exact hname

theorem lookup_stagings_of_not_mem (h : name ∉ declaredNames definitions) :
    (table.stagings around definitions).lookup name = none := by
  rw [List.lookup_eq_none_iff]
  rintro ⟨other, grammar⟩ hmem
  obtain ⟨definition, hlisted, hstaging⟩ := List.mem_filterMap.mp hmem
  rw [bne_iff_ne]
  rintro rfl
  exact h (mem_declaredNames.mpr ⟨definition, hlisted, name_of_staging? hstaging⟩)

/-- The first definition of a name that is not bound says what is left to be bound to it. -/
theorem lookup_stagings {first : GrammarDefinition} (hunbound : table.isLoaded name = false)
    (hfront : name ∉ declaredNames front) (hname : first.name = some name)
    (hprepare : first.source.prepare around = .ok grammar) :
    (table.stagings around (front ++ first :: back)).lookup name = some grammar := by
  have hfirst : table.staging? around first = some (name, grammar) := by
    simp [staging?, hname, hunbound, hprepare, Except.toOption]
  rw [stagings, List.filterMap_append, List.lookup_append, List.filterMap_cons, hfirst]
  dsimp only
  rw [List.lookup_cons_self]
  exact (congrArg (Option.or · _) (lookup_stagings_of_not_mem hfront)).trans Option.none_or

/-- **A table with a list added**: what was bound is bound as before, and each name of the list that was not is bound
to what the first definition of that name opens to. -/
structure Adds (around : Surroundings) (table : GrammarTable) (definitions : List GrammarDefinition)
    (after : GrammarTable) : Prop where
  /-- what was bound is bound to the same grammar -/
  kept (name : String) (grammar : Grammar) : table.find? name = some grammar →
    after.find? name = some grammar
  /-- the first definition of a name that was not bound gives the grammar -/
  added (name : String) (front : List GrammarDefinition) (first : GrammarDefinition)
    (back : List GrammarDefinition) : table.isLoaded name = false →
    definitions = front ++ first :: back → first.name = some name → name ∉ declaredNames front →
    ∃ grammar, first.source.Opens around grammar ∧ after.find? name = some grammar
  /-- nothing else is bound -/
  others (name : String) : table.isLoaded name = false → name ∉ declaredNames definitions →
    after.find? name = none

/-- Binding what a list without faults leaves to be bound adds the list. -/
theorem adds_bindAll (h : ∀ definition ∈ definitions, ¬ table.Faulty around definition) :
    table.Adds around definitions (table.bindAll (table.stagings around definitions)) := by
  have hfind : ∀ {name}, table.isLoaded name = false →
      (table.bindAll (table.stagings around definitions)).find? name
        = (table.stagings around definitions).lookup name := by
    intro name hunbound
    rw [find?_bindAll_eq, Option.not_isSome_iff_eq_none.mp (Bool.eq_false_iff.mp hunbound), Option.none_or]
  refine ⟨fun name grammar hbound => ?_, fun name front first back hunbound hlist hname hfront => ?_,
    fun name hunbound hmissing => ?_⟩
  · rw [find?_bindAll_eq, hbound, Option.some_or]
  · subst hlist
    rcases hprepare : first.source.prepare around with fault | grammar
    · refine absurd (faulty_iff.mpr (Or.inr ⟨name, fault, hname, hunbound, hprepare⟩)) (h first ?_)
      exact List.mem_append_right _ List.mem_cons_self
    · refine ⟨grammar, (GrammarSource.prepare_eq_ok_iff.mp hprepare).1, ?_⟩
      rw [hfind hunbound, lookup_stagings hunbound hfront hname hprepare]
  · rw [hfind hunbound, lookup_stagings_of_not_mem hmissing]

/-- **What a load comes to that nothing interrupts**, for every table and every list.

If a definition on the list is faulty, the load fails with the first one that is, under its name or as unnamed, and
the table is as it was. If none is, the load succeeds, and what it leaves is the table with the list added. -/
theorem load_of_faults (around : Surroundings) (table : GrammarTable) (definitions : List GrammarDefinition) :
    (∀ front faulty back, definitions = front ++ faulty :: back →
      (∀ definition ∈ front, ¬ table.Faulty around definition) → table.Faulty around faulty →
      ∃ fault, table.load around definitions = (table, .error ⟨faulty.name.getD "<unnamed>", fault⟩) ∧
        (faulty.name = none ∧ fault = .unnamed ∨
          faulty.name ≠ none ∧ faulty.source.prepare around = .error fault)) ∧
    ((∀ definition ∈ definitions, ¬ table.Faulty around definition) →
      ∃ after, table.load around definitions = (after, .ok ()) ∧ table.Adds around definitions after) := by
  constructor
  · intro front faulty back hlist hfront hfaulty
    obtain ⟨fault, hfinish, hfault⟩ := @finish_of_faulty around table back faulty
      (table.stagings around front) hfaulty
    refine ⟨fault, ?_, hfault⟩
    rw [load, TableLoad.ofList, hlist, finish_append hfront, List.nil_append]
    exact hfinish
  · intro hfine
    refine ⟨_, ?_, adds_bindAll hfine⟩
    have hwhole := @finish_append around table definitions [] [] hfine
    rw [List.append_nil, List.nil_append] at hwhole
    exact hwhole.trans (finish_of_ended rfl)

/-- A table in which `a` is bound. -/
def boundOnce : GrammarTable := ⟨[("a", ⟨"old", 14⟩)]⟩

/-- A list that names `a` again, with tables that cannot be driven, and `b` twice. -/
def repeating : List GrammarDefinition :=
  [⟨some "a", .linked ⟨"new", 15⟩⟩, ⟨some "b", .linked ⟨"one", 13⟩⟩, ⟨some "b", .linked ⟨"two", 14⟩⟩]

/-- The list is added, with the first of its two grammars for `b`. With an unnamed definition and a library that is
not there behind it, the unnamed one is the first fault, and nothing is added. -/
theorem load_of_faults_repeating : ∃ after : GrammarTable,
    boundOnce.load ⟨.blank, []⟩ repeating = (after, .ok ()) ∧ after.find? "a" = some ⟨"old", 14⟩ ∧
      after.find? "b" = some ⟨"one", 13⟩ ∧
      boundOnce.load ⟨.blank, []⟩
          (repeating ++ [⟨none, .linked ⟨"c", 14⟩⟩, ⟨some "c", .library "/c" "c"⟩])
        = (boundOnce, .error ⟨"<unnamed>", .unnamed⟩) := by
  have hfine : ∀ definition ∈ repeating, ¬ boundOnce.Faulty ⟨.blank, []⟩ definition := by
    simp only [repeating, List.mem_cons, List.not_mem_nil, or_false, faulty_iff]
    rintro definition (rfl | rfl | rfl) <;> rintro (⟨⟨⟩⟩ | ⟨name, fault, ⟨⟩, hunbound, hprepare⟩)
    · cases hunbound
    · cases hprepare
    · cases hprepare
  obtain ⟨hfails, -⟩ := load_of_faults ⟨.blank, []⟩ boundOnce
    (repeating ++ [⟨none, .linked ⟨"c", 14⟩⟩, ⟨some "c", .library "/c" "c"⟩])
  obtain ⟨-, hsucceeds⟩ := load_of_faults ⟨.blank, []⟩ boundOnce repeating
  obtain ⟨after, hload, hadds⟩ := hsucceeds hfine
  obtain ⟨grammar, hopens, hfound⟩ := hadds.added "b" (repeating.take 1) _ _ rfl rfl rfl (by decide)
  obtain ⟨fault, hfailed, ⟨-, rfl⟩ | ⟨hnamed, -⟩⟩ := hfails repeating _ _ rfl hfine (Or.inl rfl)
  · cases hopens
    exact ⟨after, hload, hadds.kept "a" _ rfl, hfound, hfailed⟩
  · exact absurd rfl hnamed

end GrammarTable

end CodeMarkup
