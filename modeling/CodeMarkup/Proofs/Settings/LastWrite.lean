import CodeMarkup.Proofs.Settings.Changes
import CodeMarkup.Proofs.Script.Cost
import CodeMarkup.Proofs.Script.Hosts
import CodeMarkup.Proofs.Script.Nested
import CodeMarkup.Settings.Config

/-!
# The last write wins

A configuration script that is a sequence of setter calls is a sequence of changes. Which change a call makes depends on its
arguments, and what these come to may depend on the settings that the calls before it left; but it depends on nothing else, so
the changes are known in advance, up to the first call that goes wrong (`changes`).

A run makes these changes, in order, from the first on. It makes all of them and ends well, or it stops at a call, of which
nothing is seen in the settings; then that call goes wrong by itself, or too few operations were left for it. How many
operations the calls need is known in advance as well (`effort`). So a field holds what the last of the changes that were made
gave it, and what is said on the command line comes on top.

That a script may run too long is no matter of what its calls look like. A call with a literal argument is three operations,
so a script of such calls is stopped after a third as many calls as there are operations, whatever they say.
-/

namespace CodeMarkup

namespace Settings

open Script

/-! ## Sequences of calls -/

/-- A call of a function that is no reader, in a statement of its own. -/
structure SetterCall where
  /-- the function -/
  name : String
  /-- its arguments -/
  arguments : List Expr

/-- What the arguments of such a call may call: anything but setters. -/
def mayCall (space : List String) (name : String) : Bool :=
  space ≠ [host.namespaceName] || name ∉ setters

/-- The call that a statement is, if it is one in the namespace of settings, and the only one that may change any. -/
def SetterCall.ofStatement? : Statement → Option SetterCall
  | .compute (.call [space] _ name _ arguments) =>
    if space = host.namespaceName ∧ name ∉ readers ∧ allCallOnly mayCall arguments then some ⟨name, arguments⟩ else none
  | _ => none

/-- The change that a call makes in some settings, unless it goes wrong. -/
def SetterCall.change? (call : SetterCall) (settings : Settings) : Option Change :=
  (valuesOf? host settings call.arguments).bind (Settings.change? call.name)

/-- How many operations a call does in some settings. -/
def SetterCall.operations (call : SetterCall) (settings : Settings) : Nat :=
  callOperations host settings call.arguments

/-- The changes that calls make one after the other, up to the first that goes wrong. -/
def changes (settings : Settings) : List SetterCall → List Change
  | [] => []
  | call :: rest =>
    match call.change? settings with
    | none => []
    | some change => change :: changes (settings.put change) rest

/-- How many operations calls do one after the other, up to the first that goes wrong. -/
def effort (settings : Settings) : List SetterCall → Nat
  | [] => 0
  | call :: rest =>
    call.operations settings +
      match call.change? settings with
      | none => 0
      | some change => effort (settings.put change) rest

theorem effort_cons_of_some {settings : Settings} {call : SetterCall} {change : Change}
    (h : call.change? settings = some change) (rest : List SetterCall) :
    effort settings (call :: rest) = call.operations settings + effort (settings.put change) rest := by
  rw [effort, h]

theorem length_changes_le (settings : Settings) (calls : List SetterCall) :
    (changes settings calls).length ≤ calls.length := by
  induction calls generalizing settings with
  | nil => exact Nat.le_refl _
  | cons call rest ih =>
    rw [changes]
    split
    · exact Nat.zero_le _
    · exact Nat.succ_le_succ (ih _)

theorem SetterCall.exists_of_ofStatement? {statement : Statement} {call : SetterCall}
    (h : ofStatement? statement = some call) :
    ∃ start position, statement = .compute (.call [host.namespaceName] start call.name position call.arguments) ∧
      call.name ∉ readers ∧ allCallOnly mayCall call.arguments := by
  unfold ofStatement? at h
  split at h
  · rename_i space start name position arguments
    obtain ⟨⟨rfl, hname, harguments⟩, heq⟩ := Option.ite_none_right_eq_some.mp h
    cases heq
    exact ⟨start, position, rfl, hname, harguments⟩
  · cases h

theorem deaf_host : host.Deaf :=
  fun _ _ => rfl

theorem isReader_of_mayCall (space : List String) (name : String) (h : mayCall space name)
    (hspace : space = [host.namespaceName]) : host.IsReader name := by
  rw [mayCall, Bool.or_eq_true, decide_eq_true_eq, decide_eq_true_eq] at h
  exact isReader_host (h.resolve_left fun hne => hne hspace)

/-- A call that is made first thing comes to its change. -/
theorem SetterCall.callResult?_eq {call : SetterCall} (h : call.name ∉ readers) (settings : Settings) :
    callResult? host settings call.name call.arguments =
      (call.change? settings).map fun change => (settings.put change, .unit) := by
  rw [callResult?, SetterCall.change?]
  rcases valuesOf? host settings call.arguments with _ | values
  · rfl
  · rw [Option.bind_some, Option.bind_some]
    rcases hchange : Settings.change? call.name values with _ | change
    · split
      · rename_i result hresult
        exact absurd hresult (call_ne_ok h hchange settings result)
      · rfl
    · simp only [host, call_of_change? hchange]
      rfl

/-! ## Runs -/

/-- **One call.** It makes its change, or it goes wrong and changes nothing. -/
theorem run_of_ofStatement? {statement : Statement} {call : SetterCall}
    (h : SetterCall.ofStatement? statement = some call) (hnested : statement.isNested) (settings : Settings) (done : Nat) :
    (∃ change value, call.change? settings = some change ∧ done + call.operations settings ≤ mostOperations ∧
      statement.run host ⟨settings, [], done⟩ = .ok value ⟨settings.put change, [], done + call.operations settings⟩) ∨
    ∃ fault after, statement.run host ⟨settings, [], done⟩ = .error fault after ∧ after.state = settings ∧
      (call.change? settings = none ∨ fault.cause = .tooLong ∧ mostOperations < done + call.operations settings) := by
  obtain ⟨start, position, rfl, hname, hmay⟩ := SetterCall.exists_of_ofStatement? h
  rw [Statement.isNested, Statement.obeys, Expr.obeys, Bool.true_and] at hnested
  have harguments := allObey_of_areNested call.arguments hnested hmay
  have hresult := SetterCall.callResult?_eq hname settings
  obtain ⟨next, value, hcall, hmost, hrun⟩ | ⟨fault, after, hrun, hstate, hfault⟩ :=
    run_call deaf_host isReader_of_mayCall harguments start call.name position
  · obtain ⟨change, hchange, heq⟩ := Option.map_eq_some_iff.mp (hresult.symm.trans hcall)
    cases heq
    exact Or.inl ⟨change, _, hchange, hmost, hrun⟩
  · refine Or.inr ⟨fault, after, hrun, hstate, hfault.imp_left fun hnone => ?_⟩
    exact Option.map_eq_none_iff.mp (hresult.symm.trans hnone)

/-- **Calls one after the other.** The changes that a run makes are the first ones; it makes all of them, or it stops at a
call, because that call goes wrong by itself or because too few operations were left. -/
theorem ending_runAll {body : List Statement} {calls : List SetterCall}
    (h : body.mapM SetterCall.ofStatement? = some calls) (hnested : bodyIsNested body) (settings : Settings) {done : Nat}
    (hdone : done ≤ mostOperations) :
    ∃ made, made <+: changes settings calls ∧
      ((made.length = calls.length ∧ done + effort settings calls ≤ mostOperations ∧
          ending (runAll host body ⟨settings, [], done⟩) =
            (⟨settings.putAll made, [], done + effort settings calls⟩, .ok ())) ∨
        ∃ fault after, ending (runAll host body ⟨settings, [], done⟩) = (after, .error fault) ∧
          after.state = settings.putAll made ∧ made.length < calls.length ∧
          (made = changes settings calls ∨
            fault.cause = .tooLong ∧ mostOperations < done + effort settings calls)) := by
  induction body generalizing calls settings done with
  | nil =>
    cases h
    refine ⟨[], List.prefix_rfl, Or.inl ⟨rfl, hdone, ?_⟩⟩
    rw [runAll]
    rfl
  | cons statement rest ih =>
    obtain ⟨call, hcall, others, hothers, rfl⟩ : ∃ call, SetterCall.ofStatement? statement = some call ∧
        ∃ others, rest.mapM SetterCall.ofStatement? = some others ∧ call :: others = calls := by
      simpa [List.mapM_cons, Option.bind_eq_some_iff] using h
    rw [bodyIsNested, bodyObeys, Bool.and_eq_true] at hnested
    rcases run_of_ofStatement? hcall hnested.1 settings done with
      ⟨change, value, hchange, hmost, hrun⟩ | ⟨fault, after, hrun, hstate, hfault⟩
    · rw [ending_runAll_cons_of_ok hrun]
      have hchanges : changes settings (call :: others) = change :: changes (settings.put change) others := by
        rw [changes, hchange]
      have heffort : done + effort settings (call :: others) =
          done + call.operations settings + effort (settings.put change) others := by
        rw [effort_cons_of_some hchange, Nat.add_assoc]
      rw [hchanges, heffort]
      obtain ⟨made, hmade, hend⟩ := ih hothers hnested.2 (settings.put change) hmost
      refine ⟨change :: made, (List.prefix_cons_inj change).mpr hmade, hend.imp ?_ ?_⟩
      · exact fun ⟨hlength, hrest⟩ => ⟨congrArg (· + 1) hlength, hrest⟩
      · rintro ⟨fault, after, hend, hstate, hlength, hfault⟩
        exact ⟨fault, after, hend, hstate, Nat.succ_lt_succ hlength, hfault.imp_left (congrArg (change :: ·))⟩
    · rw [ending_runAll_cons_of_error hrun]
      refine ⟨[], List.nil_prefix, Or.inr ⟨fault, after, rfl, hstate, Nat.succ_pos _, hfault.imp ?_ ?_⟩⟩
      · intro hnone
        rw [changes, hnone]
      · rintro ⟨hcause, hmost⟩
        refine ⟨hcause, ?_⟩
        rw [effort]
        omega

/-! ## Scripts -/

/-- Settings in the making show the settings, whatever is written meanwhile. -/
theorem shows_draft : Draft.host.Shows host Draft.settings where
  namespaceName := rfl
  call draft name arguments := by
    simp only [host, Draft.host]
    rcases draft.settings.call name arguments with _ | _ | ⟨next, value⟩ <;> rfl
  tell _ _ := rfl

/-- Settings are configured as by a script that has no one to tell anything. -/
theorem configure_eq (settings : Settings) (script : String) :
    settings.configure script = match read? script with
      | none => (settings, .error (.malformed none))
      | some body => (run host body settings).map id (Except.mapError .script) := by
  rw [configure, Draft.configure]
  rcases h : read? script with _ | body
  · rw [Engine.read_basic_of_none h]
    rfl
  · have hrun : run host body settings = _ := run_of_shows shows_draft body ⟨settings, ""⟩
    rw [Engine.read_basic_of_some h]
    exact congrArg (Prod.map id (Except.mapError ConfigFault.script)) hrun.symm

/-- The calls that a script is, if it reads as a sequence of such. -/
def settersOf? (script : String) : Option (List SetterCall) :=
  (read? script).bind (·.mapM SetterCall.ofStatement?)

/-- **The last write wins, and the command line comes on top.** A script that does not read leaves the settings as they were.
One that is a sequence of setter calls makes the changes of its calls from the first on, and a field then holds what the last
of them gave it, or what it held at the start. It ends well if each call made its change. Else it stopped at a call that left
nothing behind: the first one that goes wrong by itself, unless the calls need more operations than a script can do. A command
line then replaces just the fields that it speaks of, as often as it is said. -/
theorem configure_eq_lastWrite (start : Settings) (script : String) (arguments : Arguments) :
    (read? script = none → start.configure script = (start, .error (.malformed none))) ∧
    (∀ calls, settersOf? script = some calls → ∃ made, made <+: changes start calls ∧
      (∀ field, (start.configure script).1.get field = (lastValue? field made).getD (start.get field)) ∧
      ((start.configure script).2 = .ok () ↔ made.length = calls.length) ∧
      (made = changes start calls ∨ mostOperations < effort start calls ∧
        ∃ position, (start.configure script).2 = .error (.script ⟨.tooLong, position⟩))) ∧
    (∀ field, (start.override arguments).get field = (arguments.says? field).getD (start.get field)) ∧
    (start.override arguments).override arguments = start.override arguments := by
  refine ⟨fun h => ?_, fun calls h => ?_, get_override start arguments, override_override start arguments⟩
  · rw [configure_eq, h]
  · obtain ⟨body, hbody, hcalls⟩ := Option.bind_eq_some_iff.mp h
    obtain ⟨made, hmade, hend⟩ := ending_runAll hcalls (nested_of_read? hbody) start (Nat.zero_le _)
    have hrun : run host body start = _ := run_eq_ending body start
    rw [Nat.zero_add] at hend
    rcases hend with ⟨hlength, -, hend⟩ | ⟨⟨cause, position⟩, after, hend, hstate, hlength, hfault⟩
    · have hconfigure : start.configure script = (start.putAll made, .ok ()) := by
        rw [configure_eq, hbody]
        simp only [hrun, hend]
        rfl
      have hall : made = changes start calls := hmade.eq_of_length_le (hlength ▸ length_changes_le start calls)
      rw [hconfigure]
      exact ⟨made, hmade, get_putAll start made, iff_of_true rfl hlength, Or.inl hall⟩
    · have hconfigure : start.configure script = (start.putAll made, .error (.script ⟨cause, position⟩)) := by
        rw [configure_eq, hbody]
        simp only [hrun, hend, hstate]
        rfl
      rw [hconfigure]
      refine ⟨made, hmade, get_putAll start made, iff_of_false nofun (Nat.ne_of_lt hlength), hfault.imp_right ?_⟩
      rintro ⟨rfl, hmost⟩
      exact ⟨hmost, position, rfl⟩

/-- Three calls, of which the first depends on the settings, and the last goes wrong. -/
def threeCalls : String :=
  "highlight::set_dark_mode(!highlight::get_dark_mode()); " ++
    "highlight::set_theme(\"nord\"); highlight::set_highlighted_lines(\"0\");"

theorem configure_eq_lastWrite_threeCalls :
    (initial "/home").configure "let" = (initial "/home", .error (.malformed none)) ∧
    ∃ calls made, settersOf? threeCalls = some calls ∧ calls.length = 3 ∧ made <+: changes (initial "/home") calls ∧
      (∀ field, ((initial "/home").configure threeCalls).1.get field =
        (lastValue? field made).getD ((initial "/home").get field)) ∧
      (((initial "/home").configure threeCalls).1.theme, ((initial "/home").configure threeCalls).1.dark) =
        ("nord", true) := by
  have hnone : (read? "let").isNone = true := by decide +kernel
  have hmalformed := (configure_eq_lastWrite (initial "/home") "let" .none).1 (Option.isNone_iff_eq_none.mp hnone)
  have hlength : (settersOf? threeCalls).map List.length = some 3 := by decide +kernel
  obtain ⟨calls, hcalls, hthree⟩ := Option.map_eq_some_iff.mp hlength
  obtain ⟨made, hmade, hfields, -⟩ := (configure_eq_lastWrite (initial "/home") threeCalls .none).2.1 calls hcalls
  exact ⟨hmalformed, calls, made, hcalls, hthree, hmade, hfields, by decide +kernel⟩

/-! ## A script that is too long -/

/-- Loops over eight items in each other. -/
def loopsText : Nat → List Char
  | 0 => []
  | depth + 1 => "for x in [0, 0, 0, 0, 0, 0, 0, 0] + [] \x7b".toList ++ loopsText depth ++ ['}']

/-- A call with a value that is computed after five such loops. -/
def lateText (name value : String) : List Char :=
  "highlight::".toList ++ name.toList ++ ['(', '{'] ++ loopsText 5 ++ value.toList ++ ['}', ')', ';']

/-- Two such calls, each of which takes its time. -/
def longText : String :=
  String.ofList (lateText "set_dark_mode" "true" ++ lateText "set_auto_install" "false")

/-- What a statement sets to which truth value, if it is a call that computes this after such loops. -/
def lateCall? : Statement → Option (String × Bool)
  | .compute (.call ["highlight"] _ name _ [.statement (.block [loop, .compute (.literal (.bool value) _)] _) _]) =>
    if depth? 8 loop = some 4 then some (name, value) else none
  | _ => none

theorem read?_longText :
    (read? longText).map (·.map fun statement => (lateCall? statement, (SetterCall.ofStatement? statement).isSome)) =
      some [(some ("set_dark_mode", true), true), (some ("set_auto_install", false), true)] := by
  rw [read?, longText, lexemes?, String.toList_ofList]
  decide +kernel

/-- What a value costs that is computed after loops. -/
theorem costs_late {loop : Statement} (h : depth? 8 loop = some 4) (value : Bool) (first second third : Position) :
    Costs (evalArguments host [.statement (.block [loop, .compute (.literal (.bool value) first)] second) third])
      [.bool value] (nestCost 8 4 + 2 + 1 + 1) := by
  have hvalue : Costs ((Statement.compute (.literal (.bool value) first)).run host) (.bool value) 2 := by
    rw [Statement.run, Expr.eval]
    exact ((costs_pure (Value.bool value)).ticked first).ticked first
  have hbody : Costs (runAll host [loop, .compute (.literal (.bool value) first)]) (.bool value) (nestCost 8 4 + 2) := by
    rw [runAll_cons_cons, runAll]
    exact (costs_of_depth? h).bind hvalue
  have hargument := (hbody.inScope.ticked second).ticked third
  simp only [evalArguments, evalAll, Expr.eval, Statement.run]
  exact hargument.yields fun value => [value]

/-- Such a call makes a change, and does more than half of the operations that a script can do. -/
theorem SetterCall.of_lateCall? {statement : Statement} {call : SetterCall} {name : String} {value : Bool}
    (hlate : lateCall? statement = some (name, value)) (h : ofStatement? statement = some call) (settings : Settings) :
    call.change? settings = Settings.change? name [.bool value] ∧ call.operations settings = nestCost 8 4 + 6 := by
  unfold lateCall? at hlate
  split at hlate
  · rename_i start found position loop literal first second third
    obtain ⟨hdepth, heq⟩ := Option.ite_none_right_eq_some.mp hlate
    cases heq
    obtain ⟨_, _, hstatement, -, -⟩ := exists_of_ofStatement? h
    obtain ⟨name, arguments⟩ := call
    cases hstatement
    have hmost : 0 + (nestCost 8 4 + 2 + 1 + 1) ≤ mostOperations := by decide
    have hcost := costs_late hdepth value first second third ⟨settings, [], 0⟩ hmost
    simp only [change?, operations, valuesOf?, callOperations, hcost]
    refine ⟨rfl, ?_⟩
    simp only [stateAfter, Memory.later]
    omega
  · cases hlate

/-- **A script can be too long for its last calls.** Each call of the script would make its change by itself, but both together
are more than a script can do, so the second is not done, and installing stays as it was. -/
theorem exists_run_stopped :
    ¬∀ (start : Settings) (script : String) (calls : List SetterCall),
      settersOf? script = some calls → (changes start calls).length = calls.length →
        ∀ field, (start.configure script).1.get field = (lastValue? field (changes start calls)).getD (start.get field) := by
  intro hall
  obtain ⟨body, hbody, hlate⟩ := Option.map_eq_some_iff.mp read?_longText
  obtain ⟨first, rest, rfl, hfirst, hrest⟩ := List.map_eq_cons_iff.mp hlate
  obtain ⟨second, none, rfl, hsecond, hnone⟩ := List.map_eq_cons_iff.mp hrest
  obtain rfl := List.map_eq_nil_iff.mp hnone
  obtain ⟨hdark, hfirst⟩ := Prod.mk.inj hfirst
  obtain ⟨hauto, hsecond⟩ := Prod.mk.inj hsecond
  obtain ⟨darkCall, hdarkCall⟩ := Option.isSome_iff_exists.mp hfirst
  obtain ⟨autoCall, hautoCall⟩ := Option.isSome_iff_exists.mp hsecond
  have hmap : [first, second].mapM SetterCall.ofStatement? = some [darkCall, autoCall] := by
    simp [hdarkCall, hautoCall]
  have hcalls : settersOf? longText = some [darkCall, autoCall] := by
    rw [settersOf?, hbody]
    exact hmap
  obtain ⟨hdarkChange, hdarkCost⟩ := SetterCall.of_lateCall? hdark hdarkCall (initial "/home")
  have hdarkChange : darkCall.change? (initial "/home") = some ⟨.dark, true⟩ := hdarkChange
  obtain ⟨hautoChange, hautoCost⟩ :=
    SetterCall.of_lateCall? hauto hautoCall ((initial "/home").put ⟨.dark, true⟩)
  have hautoChange : autoCall.change? ((initial "/home").put ⟨.dark, true⟩) = some ⟨.autoInstall, false⟩ := hautoChange
  have hchanges : changes (initial "/home") [darkCall, autoCall] = [⟨.dark, true⟩, ⟨.autoInstall, false⟩] := by
    simp only [changes, hdarkChange, hautoChange]
  have hinstall := hall (initial "/home") longText _ hcalls (by rw [hchanges]; rfl) .autoInstall
  rw [hchanges, configure_eq, hbody] at hinstall
  obtain ⟨made, hmade, ⟨-, hmost, -⟩ | ⟨fault, after, hend, hstate, hstopped, -⟩⟩ :=
    ending_runAll hmap (nested_of_read? hbody) (initial "/home") (Nat.zero_le _)
  · have hnest : nestCost 8 4 = 88940 := by decide
    rw [effort_cons_of_some hdarkChange, effort_cons_of_some hautoChange, hdarkCost, hautoCost, hnest, effort,
      mostOperations] at hmost
    omega
  · -- the run stopped before the second call, so at most dark mode was set
    have hdarkOnly : made <+: [⟨.dark, true⟩] := by
      rw [hchanges] at hmade
      exact List.prefix_of_prefix_length_le hmade ⟨[⟨.autoInstall, false⟩], rfl⟩ (Nat.le_of_lt_succ hstopped)
    have hmadeInstall : lastValue? .autoInstall made = none := by
      refine lastValue?_eq_none fun change hmem => ?_
      obtain rfl := List.mem_singleton.mp (hdarkOnly.subset hmem)
      decide
    simp only [run_eq_ending, hend, hstate, Prod.map_fst, id, get_putAll, hmadeInstall] at hinstall
    exact absurd hinstall (by decide)

end Settings

end CodeMarkup
