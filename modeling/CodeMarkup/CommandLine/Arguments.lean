import CodeMarkup.LineSet.Spec
import CodeMarkup.Settings.Basic

/-!
# Command lines

What can be said on the command line: one file, four options with a value and three flags, each at most
once. The options win over the settings, as far as they are given; the flags can only turn dark mode on and
installing off.

What can be wrong with a command line is a **usage fault**. That the help or the version was asked for ends
the reading of a command line in the same way, so it counts as one.
-/

namespace CodeMarkup

/-- An option that has a value. -/
inductive ValueOption where
  | language | highlight | theme | config
  deriving DecidableEq, Repr

/-- A flag. -/
inductive Flag where
  | dark | noInstall | listLanguages
  deriving DecidableEq, Repr

/-- Something on the command line that has a value. -/
inductive Slot where
  /-- the file -/
  | file
  /-- an option -/
  | option (option : ValueOption)
  deriving DecidableEq, Repr

/-- The long name of an option. -/
def ValueOption.name : ValueOption → String
  | .language => "--language"
  | .highlight => "--highlight"
  | .theme => "--theme"
  | .config => "--config"

/-- What an option's value is called. -/
def ValueOption.valueName : ValueOption → String
  | .language => "KEY"
  | .highlight => "LINES"
  | .theme => "ID"
  | .config => "PATH"

/-- The long name of a flag. -/
def Flag.name : Flag → String
  | .dark => "--dark"
  | .noInstall => "--no-install"
  | .listLanguages => "--list-languages"

/-- How messages show what has a value. -/
def Slot.describe : Slot → String
  | .file => "[FILE]"
  | .option which => which.name ++ " <" ++ which.valueName ++ ">"

/-- What was said on a command line. -/
structure Arguments where
  /-- the path of the file -/
  file : Option String
  /-- the key of a language -/
  language : Option String
  /-- the lines to mark -/
  lines : Option LineSet
  /-- a theme family or theme -/
  theme : Option String
  /-- whether the dark side was asked for -/
  dark : Bool
  /-- the path of a script -/
  config : Option String
  /-- whether installing was forbidden -/
  noInstall : Bool
  /-- whether a list of languages was asked for -/
  listLanguages : Bool
  deriving DecidableEq, Repr

/-- Nothing said. -/
def Arguments.none : Arguments :=
  ⟨.none, .none, .none, .none, false, .none, false, false⟩

/-- What is wrong with a command line, or why it was not read to its end. -/
inductive UsageFault where
  /-- neither a file nor a list was asked for -/
  | missingFile
  /-- this means nothing -/
  | unknown (argument : String)
  /-- this was said twice -/
  | repeated (shown : String)
  /-- this has no value, or an empty one -/
  | noValue (slot : Slot)
  /-- this flag, or this question, was given a value -/
  | unneeded (value name : String)
  /-- this value is no line list -/
  | badLines (value : String) (fault : SpecFault)
  /-- the help was asked for -/
  | help
  /-- the version was asked for -/
  | version
  deriving DecidableEq, Repr

/-- The version of the program. -/
def versionText : String := "lark-highlight 0.1.0"

/-- What the program says about itself. -/
def helpText : String :=
  "\n".intercalate
    ["Render source code as highlighted HTML",
      "",
      "Usage: lark-highlight [OPTIONS] [FILE]",
      "",
      "Arguments:",
      "  [FILE]  File to render",
      "",
      "Options:",
      "  -l, --language <KEY>     Language key; detected from the file name when omitted",
      "      --highlight <LINES>  Lines to mark as highlighted, e.g. \"2,4-6\"",
      "  -t, --theme <ID>         Theme family or palette",
      "      --dark               Use the dark variant of the theme family",
      "      --config <PATH>      Config script (default: ~/.config/lark/highlight.rhai)",
      "      --no-install         Never install missing grammars",
      "      --list-languages     Print the known language keys and exit",
      "  -h, --help               Print help",
      "  -V, --version            Print version"]

/-- The wording of a fault. -/
def UsageFault.message : UsageFault → String
  | .missingFile => "error: the following required arguments were not provided:\n  <FILE>"
  | .unknown argument => "error: unexpected argument '" ++ argument ++ "' found"
  | .repeated shown => "error: the argument '" ++ shown ++ "' cannot be used multiple times"
  | .noValue slot =>
    "error: a value is required for '" ++ slot.describe ++ "' but none was supplied"
  | .unneeded value name =>
    "error: unexpected value '" ++ value ++ "' for '" ++ name ++ "' found; no more were expected"
  | .badLines value fault =>
    "error: invalid value '" ++ value ++ "' for '" ++ (Slot.option .highlight).describe
      ++ "': Invalid line list: " ++ fault.message
  | .help => helpText
  | .version => versionText

namespace Settings

/-- The settings with what was said on the command line on top. -/
def override (settings : Settings) (arguments : Arguments) : Settings :=
  { settings with
    theme := arguments.theme.getD settings.theme
    dark := settings.dark || arguments.dark
    autoInstall := settings.autoInstall && !arguments.noInstall
    lines := arguments.lines.getD settings.lines }

/-- Saying the same again changes nothing. -/
theorem override_override (settings : Settings) (arguments : Arguments) :
    (settings.override arguments).override arguments = settings.override arguments := by
  obtain ⟨_, _, lines, theme, _, _, _, _⟩ := arguments
  cases theme <;> cases lines <;> simp [override]

end Settings

end CodeMarkup
