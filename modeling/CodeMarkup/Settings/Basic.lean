import CodeMarkup.Disk.Path
import CodeMarkup.LineSet.Basic
import CodeMarkup.Theme.Builtin

/-!
# Settings

What can be chosen about the drawing of a file, apart from the file itself. The theme is chosen by the name
of a family, which has a light and a dark side, or by the name of one theme.
-/

namespace CodeMarkup

/-- What can be chosen. -/
structure Settings where
  /-- the theme family or theme -/
  theme : String
  /-- whether the dark side of a family is meant -/
  dark : Bool
  /-- the path of the directory of compiled grammars -/
  grammarsDirectory : String
  /-- whether missing grammars may be installed -/
  autoInstall : Bool
  /-- the lines to mark -/
  lines : LineSet
  deriving DecidableEq, Repr

namespace Settings

/-- The path of a user's own files, in the user's home directory. -/
def userDirectory (home : String) : String :=
  Path.join (Path.join home ".config") "lark"

/-- The settings before anything is chosen. -/
def initial (home : String) : Settings where
  theme := "tailwind"
  dark := false
  grammarsDirectory := Path.join (userDirectory home) "grammars"
  autoInstall := true
  lines := .empty

/-- The identifier of the theme that the settings choose. -/
def resolvedTheme (settings : Settings) : String :=
  Theme.resolve settings.theme settings.dark

end Settings

end CodeMarkup
