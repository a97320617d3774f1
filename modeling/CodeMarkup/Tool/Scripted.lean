import CodeMarkup.Disk.Directory
import CodeMarkup.Tool.Basic

/-!
# Scripted tools

For a rehearsal, a tool can be described by what it leaves behind: how it ends, what it writes to its
error stream, and which files appear. A repository being cloned appears at the clone's destination, the
last argument; files of any other run appear in the directory it was started in. A compiler's output
appears at its last argument.
-/

namespace CodeMarkup

/-- A tool described by what it leaves behind. -/
structure ScriptedTool where
  /-- how it ends -/
  status : ExitStatus
  /-- what it writes to its error stream -/
  errors : List UInt8
  /-- the files that appear, by their paths -/
  files : List (String × Entry)
  /-- what appears at the last argument, if anything does -/
  output : Option Entry

namespace ScriptedTool

/-- Where a run's files appear. -/
def destination (call : Call) : Place :=
  match call.tool, call.arguments.head?, call.arguments.getLast? with
  | "git", some "clone", some last => Place.ofPath call.directory last
  | _, _, _ => call.directory

/-- The tool that a script describes. -/
def toTool (script : ScriptedTool) : Tool := fun _ call disk =>
  let disk := disk.plant (destination call) script.files
  let disk := match script.output, call.arguments.getLast? with
    | some entry, some last => disk.putDeep (Place.ofPath call.directory last) entry
    | _, _ => disk
  ⟨disk, script.status, script.errors⟩

end ScriptedTool

end CodeMarkup
