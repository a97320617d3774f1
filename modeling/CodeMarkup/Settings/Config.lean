import CodeMarkup.Disk.Basic
import CodeMarkup.Script.Engine
import CodeMarkup.Settings.Calls

/-!
# Configuration

Settings are configured by scripts, which are texts or files. There is a file that counts without being
named, in the user's own directory, and it need not be there.

A script that does not read well leaves the settings as they are. One that goes wrong leaves them as they
were when it did. What a script has written stays written in any case.
-/

namespace CodeMarkup

/-- Why a configuration failed. -/
inductive ConfigFault where
  /-- the file at this path could not be read -/
  | unreadable (path : String) (fault : FileFault)
  /-- the script does not read well, which the engine may say more of -/
  | malformed (wording : Option String)
  /-- the script went wrong -/
  | script (fault : Script.Fault)

/-- The wording of a fault. -/
def ConfigFault.message (fault : ConfigFault) : String :=
  "Config error: " ++ match fault with
    | .unreadable path fault => "Failed to read " ++ path ++ ": " ++ fault.message
    | .malformed none => "Parse error"
    | .malformed (some wording) => "Parse error: " ++ wording
    | .script fault => fault.message

namespace Draft

variable (engine : Script.Engine)

/-- What a script makes of settings. -/
def configure (draft : Draft) (script : String) : Draft × Except ConfigFault Unit :=
  match engine.read script with
  | .error wording => (draft, .error (.malformed wording))
  | .ok run =>
    let (draft, result) := run host draft
    (draft, result.mapError .script)

/-- What the script in a file makes of settings. -/
def configureFrom (draft : Draft) (disk : Disk) (current : Place) (path : String) :
    Draft × Except ConfigFault Unit :=
  match disk.readText current path with
  | .error fault => (draft, .error (.unreadable path fault))
  | .ok script => draft.configure engine script

end Draft

namespace Settings

/-- The path of the file that counts without being named. -/
def defaultScript (home : String) : String :=
  Path.join (userDirectory home) "highlight.rhai"

end Settings

/-- What the script that counts without being named makes of settings, if it is there. -/
def Draft.configureByDefault (engine : Script.Engine) (draft : Draft) (disk : Disk) (current : Place)
    (home : String) : Draft × Except ConfigFault Unit :=
  if disk.contains current (Settings.defaultScript home) then
    draft.configureFrom engine disk current (Settings.defaultScript home)
  else (draft, .ok ())

/-! ## Settings alone -/

namespace Settings

/-- The settings after a script, by the engine here. -/
def configure (settings : Settings) (script : String) : Settings × Except ConfigFault Unit :=
  (Draft.configure .basic ⟨settings, ""⟩ script).map Draft.settings id

/-- The settings after the script in a file. -/
def configureFrom (settings : Settings) (disk : Disk) (current : Place) (path : String) :
    Settings × Except ConfigFault Unit :=
  (Draft.configureFrom .basic ⟨settings, ""⟩ disk current path).map Draft.settings id

/-- The settings after the script that counts without being named, if it is there. -/
def configureByDefault (settings : Settings) (disk : Disk) (current : Place) (home : String) :
    Settings × Except ConfigFault Unit :=
  (Draft.configureByDefault .basic ⟨settings, ""⟩ disk current home).map Draft.settings id

end Settings

end CodeMarkup
