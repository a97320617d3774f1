import CodeMarkup.CommandLine.Program

/-!
# The executable

The thin layer between the program and the machine it runs on. It looks up the files that the command line
names, runs the program on what it found, and prints what the program prints. It links no parser and starts
no tools, so it draws what needs no highlighting and lists languages; for everything else it reports what is
missing. Since nothing is ever installed, it needs no clock.
-/

namespace CodeMarkup.Executable

/-- What is at a path: a file, something else that cannot be read as one, or nothing. -/
def lookUp (path : String) : IO (Option Entry) := do
  try
    let bytes ← IO.FS.readBinFile path
    return some (.file (.raw bytes.toList))
  catch
    | .noFileOrDirectory .. => return none
    | _ => return some .directory

/-- The paths that a command line makes the program look at. -/
def paths (home : String) (arguments : List String) : List String :=
  match CommandLine.read arguments with
  | .error _ => []
  | .ok arguments =>
    [arguments.config.getD (Settings.defaultScript home)] ++ arguments.file.toList

/-- The disk with what is at a path put there. -/
def load (current : Place) (disk : Disk) (path : String) : IO Disk := do
  match ← lookUp path with
  | some entry => return disk.putDeep (Place.ofPath current path) entry
  | none => return disk

/-- Runs the program on this machine. -/
def run (arguments : List String) : IO UInt32 := do
  let home := (← IO.getEnv "HOME").getD ""
  let current := Place.ofPath [] (← IO.currentDir).toString
  let disk ← (paths home arguments).foldlM (load current) Disk.blank
  let host : Host :=
    { disk := disk.putDeep current .directory, tools := fun _ => none, current := current
      now := 0, calls := [] }
  let world : ProgramWorld := ⟨host, home, fun _ _ => none⟩
  let (ending, _) := Program.run arguments world
  (← IO.getStdout).write ⟨ending.bytes.toArray⟩
  (← IO.getStderr).putStr ending.errors
  return ending.code

end CodeMarkup.Executable

/-- Runs the program with the arguments it was started with. -/
def main (arguments : List String) : IO UInt32 :=
  CodeMarkup.Executable.run arguments
