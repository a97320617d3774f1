import CodeMarkup.Disk.Basic

/-!
# Tools

Installing a grammar runs other programs. A **tool** is what such a program does to the disk and how it
ends; it may do so differently each time, so it is told what was run before it. A **host** is all that
an installation can see and touch: the disk, the tools there are, the current directory and the clock,
with a record of every run.

A tool is started in a directory. If that directory is missing, or the tool is, nothing is run.
-/

namespace CodeMarkup

/-- A run of a tool. -/
structure Call where
  /-- the tool's name -/
  tool : String
  /-- the directory it was started in -/
  directory : Place
  /-- its arguments -/
  arguments : List String
  deriving DecidableEq, Repr

/-- How a tool ended. -/
inductive ExitStatus where
  /-- with an exit code -/
  | code (value : Nat)
  /-- by a signal, without an exit code -/
  | signal
  deriving DecidableEq, Repr

/-- Whether a tool ended well. -/
def ExitStatus.isSuccess : ExitStatus → Bool
  | .code value => value = 0
  | .signal => false

/-- What a run leaves behind. What the tool has written to its output is told apart (`Voice`), since nothing that
comes later depends on it. -/
structure ToolRun where
  /-- the disk afterwards -/
  disk : Disk
  /-- how the tool ended -/
  status : ExitStatus
  /-- what it wrote to its error stream -/
  errors : List UInt8

/-- A program that an installation may run. It sees the runs before it, the last one first. -/
abbrev Tool := List Call → Call → Disk → ToolRun

/-- What tools write to their output in a run, which is told of the runs before it, the last one first, and the
run itself. -/
abbrev Voice := List Call → Call → List UInt8

/-- What an installation can see and touch. -/
structure Host where
  /-- the disk -/
  disk : Disk
  /-- the tools, by name -/
  tools : String → Option Tool
  /-- the current directory -/
  current : Place
  /-- the seconds that the clock shows -/
  now : Nat
  /-- the runs so far, the last one first -/
  calls : List Call

namespace Host

/-- The directory that a tool is started in, which must be there. -/
def startDirectory (host : Host) (path? : Option String) : Except FileFault Place :=
  match path? with
  | none => .ok host.current
  | some path => do
    let place ← host.disk.locate host.current path
    if host.disk.get? place = some .directory then return place else throw .notDirectory

/-- Runs a tool, in the current directory or in another. -/
def run (host : Host) (tool : String) (path? : Option String) (arguments : List String) :
    Host × Except FileFault (ExitStatus × List UInt8) :=
  match host.startDirectory path? with
  | .error fault => (host, .error fault)
  | .ok directory =>
    match host.tools tool with
    | none => (host, .error .notFound)
    | some program =>
      let call : Call := ⟨tool, directory, arguments⟩
      let outcome := program host.calls call host.disk
      ({ host with disk := outcome.disk, calls := call :: host.calls },
        .ok (outcome.status, outcome.errors))

end Host

end CodeMarkup
