import CodeMarkup.CommandLine.Arguments
import CodeMarkup.Proofs.Script.Calls
import CodeMarkup.Settings.Calls

/-!
# Changes of settings

Settings are five fields, and a change is a new value for one of them. Of several changes one after the other, the last of a
field's is the one that counts (`get_putAll`).

A setter makes the change that its name and the values of its arguments ask for (`change?`), and does nothing else. What is
said on a command line is a change of some fields, always the same whatever they held before.
-/

namespace CodeMarkup

namespace Settings

open Script (Value)

/-! ## Fields -/

/-- What can be chosen. -/
inductive Field where
  | theme | dark | grammarsDirectory | autoInstall | lines
  deriving DecidableEq, Repr

/-- What a field holds. -/
abbrev Field.Value : Field → Type
  | .theme => String
  | .dark => Bool
  | .grammarsDirectory => String
  | .autoInstall => Bool
  | .lines => LineSet

/-- What a field holds in some settings. -/
def get (settings : Settings) : (field : Field) → field.Value
  | .theme => settings.theme
  | .dark => settings.dark
  | .grammarsDirectory => settings.grammarsDirectory
  | .autoInstall => settings.autoInstall
  | .lines => settings.lines

/-- A new value for a field. -/
structure Change where
  /-- the field -/
  field : Field
  /-- what it is to hold -/
  value : field.Value

/-- Settings after a change. -/
def put (settings : Settings) (change : Change) : Settings :=
  match change with
  | ⟨.theme, theme⟩ => { settings with theme := theme }
  | ⟨.dark, dark⟩ => { settings with dark := dark }
  | ⟨.grammarsDirectory, path⟩ => { settings with grammarsDirectory := path }
  | ⟨.autoInstall, auto⟩ => { settings with autoInstall := auto }
  | ⟨.lines, lines⟩ => { settings with lines := lines }

/-- Settings after several changes, one after the other. -/
def putAll (settings : Settings) (changes : List Change) : Settings :=
  changes.foldl put settings

/-- What a change gives a field, if it is a change of that. -/
def Change.valueFor? (change : Change) (field : Field) : Option field.Value :=
  if h : change.field = field then some (h ▸ change.value) else none

/-- What the last change of a field gives it. -/
def lastValue? (field : Field) : List Change → Option field.Value
  | [] => none
  | change :: rest => (lastValue? field rest).or (change.valueFor? field)

variable {field : Field} {changes : List Change}

theorem get_put (settings : Settings) (change : Change) (field : Field) :
    (settings.put change).get field = (change.valueFor? field).getD (settings.get field) := by
  obtain ⟨changed, value⟩ := change
  cases changed <;> cases field <;> rfl

/-- **The last change of a field is the one that counts.** -/
theorem get_putAll (settings : Settings) (changes : List Change) (field : Field) :
    (settings.putAll changes).get field = (lastValue? field changes).getD (settings.get field) := by
  induction changes generalizing settings with
  | nil => rfl
  | cons change rest ih =>
    rw [putAll, List.foldl_cons, ← putAll, ih, lastValue?, get_put]
    cases lastValue? field rest <;> rfl

theorem lastValue?_eq_none (h : ∀ change ∈ changes, change.field ≠ field) : lastValue? field changes = none := by
  induction changes with
  | nil => rfl
  | cons change rest ih =>
    rw [lastValue?, ih fun other hother => h other (List.mem_cons_of_mem _ hother), Option.none_or, Change.valueFor?,
      dif_neg (h change List.mem_cons_self)]

/-! ## Setters -/

/-- The functions that change settings. -/
def setters : List String :=
  ["set_theme", "set_dark_mode", "set_grammars_dir", "set_auto_install", "set_highlighted_lines"]

/-- The functions that only look at settings. -/
def readers : List String := ["get_theme", "get_dark_mode", "list_themes"]

/-- The change that a function of this name makes with these values, if it is a setter that takes them. A line list that
cannot be read changes nothing. -/
def change? (name : String) (values : List Value) : Option Change :=
  match name, values with
  | "set_theme", [.text theme] => some ⟨.theme, theme⟩
  | "set_dark_mode", [.bool dark] => some ⟨.dark, dark⟩
  | "set_grammars_dir", [.text path] => some ⟨.grammarsDirectory, path⟩
  | "set_auto_install", [.bool auto] => some ⟨.autoInstall, auto⟩
  | "set_highlighted_lines", [.text spec] => (LineSet.ofSpec spec).toOption.map (⟨.lines, ·⟩)
  | _, _ => none

/-- What is not a setter leaves the settings as they are. -/
theorem isReader_host {name : String} (h : name ∉ setters) : host.IsReader name := by
  intro settings values next value hcall
  simp only [host, call] at hcall
  split at hcall
  all_goals first
    | exact absurd (by decide) h
    | (cases hcall; done)
    | (cases hcall; rfl)

/-- A setter makes its change and nothing else. -/
theorem call_of_change? {name : String} {values : List Value} {change : Change} (h : change? name values = some change)
    (settings : Settings) : call settings name values = some (.ok (settings.put change, .unit)) := by
  unfold change? at h
  split at h
  case h_5 spec =>
    obtain ⟨lines, hlines, rfl⟩ := Option.map_eq_some_iff.mp h
    rcases hspec : LineSet.ofSpec spec with _ | read
    · rw [hspec] at hlines
      cases hlines
    · rw [hspec] at hlines
      cases hlines
      simp only [call, hspec]
      rfl
  case h_6 => cases h
  all_goals
    cases h
    rfl

/-- A function that is no reader goes wrong if there is no change for it to make. -/
theorem call_ne_ok {name : String} {values : List Value} (hname : name ∉ readers) (h : change? name values = none)
    (settings : Settings) (result : Settings × Value) : call settings name values ≠ some (.ok result) := by
  intro hcall
  unfold call at hcall
  split at hcall
  case h_7 spec =>
    simp only [change?, Option.map_eq_none_iff] at h
    rcases hspec : LineSet.ofSpec spec with _ | read <;> rw [hspec] at h hcall
    · cases hcall
    · cases h
  case h_9 => cases hcall
  all_goals first
    | exact absurd (by decide) hname
    | cases h

end Settings

/-! ## Command lines -/

/-- What a command line says of a field, if it says anything: flags can only turn dark mode on and installing off, and the
directory of grammars is not for it to choose. -/
def Arguments.says? (arguments : Arguments) : (field : Settings.Field) → Option field.Value
  | .theme => arguments.theme
  | .dark => if arguments.dark then some true else Option.none
  | .grammarsDirectory => Option.none
  | .autoInstall => if arguments.noInstall then some false else Option.none
  | .lines => arguments.lines

theorem Settings.get_override (settings : Settings) (arguments : Arguments) (field : Field) :
    (settings.override arguments).get field = (arguments.says? field).getD (settings.get field) := by
  cases field with
  | theme => rfl
  | dark =>
    simp only [get, override, Arguments.says?]
    cases arguments.dark <;> simp
  | grammarsDirectory => rfl
  | autoInstall =>
    simp only [get, override, Arguments.says?]
    cases arguments.noInstall <;> simp
  | lines => rfl

end CodeMarkup
