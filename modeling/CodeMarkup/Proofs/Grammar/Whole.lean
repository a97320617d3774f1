import CodeMarkup.Proofs.Grammar.Meaning
import CodeMarkup.Proofs.Work

/-!
# Loads that nothing interrupts

A load that is taken to its end at once goes through the same steps as any other, so what each step keeps it keeps
(`ended_of_finish`). When it succeeds every name of its list is bound (`isLoaded_of_load`), and to tables that can be
driven, if the table had no others before (`fit_of_load`).
-/

namespace CodeMarkup

/-! ## Tables that can be driven -/

/-- Every name may be bound to tables that can be driven, and to those only. -/
def Meaning.fit : Meaning := fun _ grammar => grammar.isCompatible = true

theorem Grammar.isCompatible_of_check {grammar checked : Grammar} (h : grammar.check = .ok checked) :
    checked.isCompatible = true := by
  unfold check at h
  split at h
  · rename_i hfit
    exact Except.ok.inj h ▸ hfit
  · cases h

/-- Whatever comes of preparing a source can be driven. -/
theorem GrammarDefinition.trueTo_fit (around : Surroundings) (definition : GrammarDefinition) :
    definition.TrueTo .fit around := by
  intro name grammar _ hprepare
  rcases hsource : definition.source with tables | ⟨path, symbol⟩
  · rw [hsource] at hprepare
    exact Grammar.isCompatible_of_check hprepare
  · rw [hsource] at hprepare
    obtain ⟨tables, -, hcheck⟩ := ok_of_bind hprepare
    exact Grammar.isCompatible_of_check hcheck

namespace GrammarTable

variable {around : Surroundings} {table after : GrammarTable} {load : TableLoad}
  {definitions : List GrammarDefinition} {result : Except LoadFailure Unit} {name : String}

/-! ## Whole loads -/

/-- **A load that is taken to its end keeps what each step keeps**, up to its last step. -/
theorem ended_of_finish {motive : GrammarTable → TableLoad → Prop}
    (hkeeps : ∀ {table next load going}, LoadStep around table load next (.going going) → motive table load →
      motive next going)
    (h : finish around table load = (after, result)) (hstart : motive table load) :
    ∃ before last, motive before last ∧ LoadStep around before last after (.ended result) := by
  induction table, load using finish.induct around with
  | case1 table load next going hstep ih =>
    rw [finish, hstep] at h
    exact ih h (hkeeps (advance_inv hstep) hstart)
  | case2 table load next ended hstep =>
    rw [finish, hstep] at h
    obtain ⟨rfl, rfl⟩ := Prod.mk.inj h
    exact ⟨table, load, hstart, advance_inv hstep⟩

/-- **When a load succeeds, every name of its list is bound.** -/
theorem isLoaded_of_load (h : table.load around definitions = (after, .ok ()))
    (hname : name ∈ declaredNames definitions) : after.isLoaded name = true := by
  obtain ⟨before, last, hledger, hstep⟩ := ended_of_finish LoadStep.keeps h (keeps_ofList table definitions)
  obtain ⟨definition, hmem, hdeclared⟩ := mem_declaredNames.mp hname
  obtain ⟨other, hother, hbound⟩ := hstep.isLoaded_of_ok hledger hmem
  obtain rfl := Option.some.inj (hother.symm.trans hdeclared)
  exact hbound

/-- **A load binds nothing but tables that can be driven.** -/
theorem fit_of_load (h : table.load around definitions = (after, result)) (htable : table.TrueTo .fit) :
    after.TrueTo .fit := by
  have htrue : ∀ definition ∈ definitions, definition.TrueTo .fit around :=
    fun definition _ => definition.trueTo_fit around
  obtain ⟨before, last, ⟨hlast, hbefore⟩, hstep⟩ := ended_of_finish
    (motive := fun table load => load.From .fit definitions ∧ table.TrueTo .fit)
    (fun hstep ⟨hfrom, hfit⟩ => ⟨hstep.from htrue hfrom, hstep.trueTo hfrom hfit⟩) h
    ⟨TableLoad.from_ofList .fit definitions, htable⟩
  exact hstep.trueTo hlast hbefore

end GrammarTable

end CodeMarkup
