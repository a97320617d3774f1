import CodeMarkup.CommandLine.Reading
import CodeMarkup.Language.Catalog
import CodeMarkup.Render.Display
import CodeMarkup.Settings.Config

/-!
# The program

The program draws one file. It takes its settings from a script, with the command line on top, and then
either lists the languages it knows or draws the file in the language that was asked for, or else in the one
that the file's path suggests. The markup is all that it prints itself, but its output is shared: a script may
have written there before, and so may the tools.

What it needs from outside is a host, for the files and for installing grammars, the user's home directory
and a parser. The first thing that goes wrong ends it.
-/

namespace CodeMarkup

/-- Why the program printed no markup. -/
inductive ProgramFault where
  /-- the settings could not be configured -/
  | config (fault : ConfigFault)
  /-- no file was given -/
  | missingInput
  /-- the file could not be read -/
  | file (fault : FileFault)
  /-- no language has the key that was asked for -/
  | unknownLanguage (key : String)
  /-- the file could not be drawn -/
  | render (fault : RenderFault)

/-- The wording of a fault. -/
def ProgramFault.message : ProgramFault → String
  | .config fault => fault.message
  | .missingInput => "No input file given"
  | .file fault => "I/O error: " ++ fault.message
  | .unknownLanguage key => "Unknown language: " ++ key
  | .render fault => fault.message

/-- What the program runs in. -/
structure ProgramWorld where
  /-- the files and the tools -/
  host : Host
  /-- the path of the user's home directory -/
  home : String
  /-- the parser -/
  parser : Parser

/-- What others write to the output of the program, and what runs its scripts. -/
structure ProgramParts where
  /-- the engine for scripts -/
  engine : Script.Engine
  /-- what the tools write to their output -/
  voice : Voice

/-- The engine of this library, and tools that write nothing. -/
def ProgramParts.basic : ProgramParts :=
  ⟨.basic, fun _ _ => []⟩

/-- The program at work. -/
structure ProgramState where
  /-- what it runs in -/
  world : ProgramWorld
  /-- what a script has written to the output -/
  written : String

/-- The program before it has done anything. -/
def ProgramState.start (world : ProgramWorld) : ProgramState :=
  ⟨world, ""⟩

/-- The program at work on another host. -/
def ProgramState.withHost (state : ProgramState) (host : Host) : ProgramState :=
  { state with world := { state.world with host := host } }

/-- Work of the program, which may use the host. -/
abbrev ProgramM := EStateM ProgramFault ProgramState

namespace Program

/-- What a script makes of the settings: the one that was named, or the one that counts without being named. -/
def configured (engine : Script.Engine) (arguments : Arguments) (world : ProgramWorld) :
    Draft × Except ConfigFault Unit :=
  let initial : Draft := ⟨.initial world.home, ""⟩
  match arguments.config with
  | some path => initial.configureFrom engine world.host.disk world.host.current path
  | none => initial.configureByDefault engine world.host.disk world.host.current world.home

/-- The settings that are in force: those of the script, with the command line on top. -/
def settings (engine : Script.Engine) (arguments : Arguments) : ProgramM Settings := fun state =>
  let (draft, result) := configured engine arguments state.world
  let state := { state with written := state.written ++ draft.written }
  match result with
  | .ok () => .ok (draft.settings.override arguments) state
  | .error fault => .error (.config fault) state

/-- The text of a file. -/
def readFile (path : String) : ProgramM String := fun state =>
  match state.world.host.disk.readText state.world.host.current path with
  | .ok text => .ok text state
  | .error fault => .error (.file fault) state

/-- The language that a file is drawn in. -/
def chooseLanguage (catalog : Catalog) (arguments : Arguments) (path : String) :
    ProgramM Language :=
  match arguments.language with
  | none => return catalog.detect (.ofString path)
  | some key =>
    match catalog.get? key with
    | some language => return language
    | none => throw (.unknownLanguage key)

/-- A renderer with a fresh highlighter, at the site of a directory. -/
def freshRenderer (world : ProgramWorld) (directory : String) : Renderer :=
  ⟨.ofDirectory world.host directory, .ofParser world.parser⟩

/-- Draws a request on a fresh display, and takes the markup from there. -/
def draw (directory : String) (request : Request) : ProgramM String := fun state =>
  match Display.change (.request request) (.ofRenderer (freshRenderer state.world directory)) with
  | .ok _ display => .ok display.shown (state.withHost display.renderer.site.host)
  | .error fault display => .error (.render fault) (state.withHost display.renderer.site.host)

/-- A line for each language of a catalog. -/
def listing (catalog : Catalog) : String :=
  String.join (catalog.languages.map fun language => language.key ++ "\t" ++ language.name ++ "\n")

/-- What the program prints itself. -/
def output (engine : Script.Engine) (arguments : Arguments) : ProgramM String := do
  let settings ← settings engine arguments
  let catalog := Catalog.builtin settings.autoInstall
  if arguments.listLanguages then return listing catalog
  match arguments.file with
  | none => throw .missingInput
  | some path =>
    let code ← readFile path
    let language ← chooseLanguage catalog arguments path
    let markup ← draw settings.grammarsDirectory
      ⟨code, some language, settings.lines, settings.resolvedTheme⟩
    return markup ++ "\n"

/-- How a run of the program ends. -/
structure Ending where
  /-- the exit code -/
  code : UInt32
  /-- what others have written to its output -/
  shared : List UInt8
  /-- what it has then printed there itself -/
  printed : String
  /-- what it has said on its error stream of the fault that ended it; others write there as well, and so does
  the log -/
  errors : String

/-- All that was written to the output. -/
def Ending.bytes (ending : Ending) : List UInt8 :=
  ending.shared ++ Text.Utf8.encode ending.printed

/-- The output as a text. -/
def Ending.output (ending : Ending) : String :=
  Text.Utf8.decodeLossy ending.bytes

/-- The ending of a run that a usage fault ended. Questions are answered on the output. -/
def endingOf (fault : UsageFault) : Ending :=
  match fault with
  | .help | .version => ⟨0, [], fault.message ++ "\n", ""⟩
  | fault => ⟨2, [], "", fault.message ++ "\n\nFor more information, try '--help'.\n"⟩

/-- What others have written to the output by the time that the program has come to a state, the script first. -/
def sharedOutput (voice : Voice) (before : ProgramWorld) (state : ProgramState) : List UInt8 :=
  Text.Utf8.encode state.written ++
    Site.heard voice (state.world.host.calls.length - before.host.calls.length) state.world.host.calls

/-- Runs the program, with an engine for its scripts, among tools that write what they write. -/
def runWith (parts : ProgramParts) (arguments : List String) (world : ProgramWorld) : Ending × ProgramWorld :=
  match CommandLine.read arguments with
  | .error fault => (endingOf fault, world)
  | .ok arguments =>
    match output parts.engine arguments (.start world) with
    | .ok text state => (⟨0, sharedOutput parts.voice world state, text, ""⟩, state.world)
    | .error fault state =>
      (⟨1, sharedOutput parts.voice world state, "", "lark-highlight: " ++ fault.message ++ "\n"⟩, state.world)

/-- Runs the program with the engine of this library, among tools that write nothing. -/
def run (arguments : List String) (world : ProgramWorld) : Ending × ProgramWorld :=
  runWith .basic arguments world

end Program

end CodeMarkup
