import CodeMarkup.LineSet.Spec
import CodeMarkup.Script.Run
import CodeMarkup.Settings.Basic

/-!
# Settings in scripts

A script reads and changes settings by the functions of the namespace `highlight`. A function takes just
the kinds of arguments that it is meant for; with others, it is as if there were none of its name.

A line list that cannot be read changes nothing. The script then goes wrong with the wording of the fault,
as if it had thrown it.
-/

namespace CodeMarkup.Settings

/-- What goes wrong when a line list cannot be read. -/
def badLines (fault : SpecFault) : Script.Cause :=
  .thrown (.text ("Invalid line list: " ++ fault.message))

/-- What a function does with some arguments. -/
def call (settings : Settings) (name : String) (arguments : List Script.Value) :
    Option (Except Script.Cause (Settings × Script.Value)) :=
  match name, arguments with
  | "set_theme", [.text theme] => some (.ok ({ settings with theme := theme }, .unit))
  | "get_theme", [] => some (.ok (settings, .text settings.theme))
  | "set_dark_mode", [.bool dark] => some (.ok ({ settings with dark := dark }, .unit))
  | "get_dark_mode", [] => some (.ok (settings, .bool settings.dark))
  | "set_grammars_dir", [.text path] =>
    some (.ok ({ settings with grammarsDirectory := path }, .unit))
  | "set_auto_install", [.bool auto] => some (.ok ({ settings with autoInstall := auto }, .unit))
  | "set_highlighted_lines", [.text spec] =>
    some <| match LineSet.ofSpec spec with
      | .ok lines => .ok ({ settings with lines := lines }, .unit)
      | .error fault => .error (badLines fault)
  | "list_themes", [] => some (.ok (settings, .array (Theme.builtinNames.map .text)))
  | _, _ => none

/-- Settings as what scripts work on, with no one to debug them. -/
def host : Script.Host Settings where
  namespaceName := "highlight"
  call := call
  tell settings _ := settings

end CodeMarkup.Settings

namespace CodeMarkup

/-- Settings in the making: what scripts have made of them so far, and what these have written to the output. -/
structure Draft where
  /-- the settings -/
  settings : Settings
  /-- what was written -/
  written : String

/-- Settings in the making as what scripts work on. What a script tells to whoever debugs it is written to the
output, line by line. -/
def Draft.host : Script.Host Draft where
  namespaceName := Settings.host.namespaceName
  call draft name arguments := (draft.settings.call name arguments).map fun result =>
    result.map fun (settings, value) => ({ draft with settings := settings }, value)
  tell draft line := { draft with written := draft.written ++ line ++ "\n" }

end CodeMarkup
