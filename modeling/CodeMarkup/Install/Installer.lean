import CodeMarkup.Disk.Directory
import CodeMarkup.Install.Fault
import CodeMarkup.Install.RecordFormat
import CodeMarkup.Language.Builtin

/-!
# Installing grammars

A **site** is a directory of compiled grammars on a host, with the record of how they were made. The
record is read from the directory once, when the site is opened, kept in memory from then on and
written back whole after each install.

`ensure` makes sure that a grammar is there and was compiled for today's interface. An outdated library
is removed before it is made again. Making one has five stages, and a failure ends it at once:

1. the directories are made;
2. the repository is cloned into the sources directory, or brought up to date if it is there;
3. the parser is generated anew where the tool for that is available, and if that fails the parser in
   the repository serves;
4. the parser is looked for in two places;
5. it is compiled into a library together with its scanner, if it has one.

What a stage did before a failure stays done.
-/

namespace CodeMarkup

/-- A directory of compiled grammars on a host. -/
structure Site where
  /-- the host -/
  host : Host
  /-- the directory's path -/
  directory : String
  /-- the record of installs, as read or last changed -/
  record : InstallRecord

/-- What making sure of a grammar came to. -/
inductive InstallResult where
  /-- it was missing and was made -/
  | installed
  /-- it was there -/
  | alreadyInstalled
  /-- it was outdated and was made again -/
  | reinstalled
  deriving DecidableEq, Repr

/-- Work on a site that can fail; what it did before failing stays. -/
abbrev SiteM := EStateM EnsureFault Site

namespace Site

/-! ## The directory -/

/-- The path of the record's file. -/
def recordPath (directory : String) : String :=
  Path.join directory "metadata.json"

/-- The record in a directory; one that cannot be read counts as empty. -/
def loadRecord (disk : Disk) (current : Place) (directory : String) : InstallRecord :=
  match disk.readText current (recordPath directory) with
  | .ok text => (InstallRecord.read? text).getD .empty
  | .error _ => .empty

/-- The disk with a record written into a directory, which is made if it is missing. -/
def saveRecord (disk : Disk) (current : Place) (directory : String) (record : InstallRecord) :
    Except FileFault Disk := do
  let disk ← disk.makeDirectories current directory
  disk.writeText current (recordPath directory) record.write

/-- The site of a directory, its record read in. -/
def ofDirectory (host : Host) (directory : String) : Site :=
  ⟨host, directory, loadRecord host.disk host.current directory⟩

/-- The path of a grammar's library. -/
def libraryPath (site : Site) (name : String) : String :=
  Path.join site.directory ("lib" ++ name ++ ".so")

/-- The path of the directory for repositories. -/
def sourcesPath (site : Site) : String :=
  Path.join site.directory "sources"

/-- Whether something is at a path. -/
def contains (site : Site) (path : String) : Bool :=
  site.host.disk.contains site.host.current path

/-- Whether a grammar's library is there. -/
def isInstalled (site : Site) (language : Builtin) : Bool :=
  site.contains (site.libraryPath language.grammarName)

/-- Whether a grammar was compiled for another interface than today's. -/
def isOutdated (site : Site) (language : Builtin) : Bool :=
  site.record.isOutdated language.grammarName

/-- The site with another disk. -/
def withDisk (site : Site) (disk : Disk) : Site :=
  { site with host := { site.host with disk := disk } }

/-- The site after an attempt to change its disk. -/
def tryDisk (site : Site) (change : Except FileFault Disk) : Site :=
  match change with
  | .ok disk => site.withDisk disk
  | .error _ => site

/-! ## Stages -/

/-- Makes a directory with its parents. -/
def makeDirectories (path : String) : SiteM Unit := fun site =>
  match site.host.disk.makeDirectories site.host.current path with
  | .ok disk => .ok () (site.withDisk disk)
  | .error fault => .error (.file fault) site

/-- Runs a tool. -/
def runTool (tool : String) (path? : Option String) (arguments : List String) :
    SiteM (Except FileFault (ExitStatus × List UInt8)) := fun site =>
  let (host, outcome) := site.host.run tool path? arguments
  .ok outcome { site with host := host }

/-- Whether a tool writes to the program's own output in a run. What others than the one that fetches
repositories write is caught, and forgotten. -/
def sharesOutput (call : Call) : Bool :=
  call.tool = "git"

/-- What tools have written to the program's output in the last runs on record. -/
def heard (voice : Voice) : Nat → List Call → List UInt8
  | 0, _ => []
  | _, [] => []
  | count + 1, call :: earlier =>
    heard voice count earlier ++ if sharesOutput call then voice earlier call else []

/-- The name of a repository's copy: its own, on one level. -/
def repositoryName (language : Builtin) : String :=
  String.ofList (language.repository.toList.flatMap fun c => if c = '/' then ['_', '_'] else [c])

/-- The address of a repository. -/
def repositoryAddress (language : Builtin) : String :=
  "https://github.com/" ++ language.repository ++ ".git"

/-- Brings the copy of a repository up to date, or makes it. -/
def fetchRepository (language : Builtin) (copy : String) : SiteM Unit := do
  let site ← get
  let outcome ←
    if site.contains copy then runTool "git" (some copy) ["pull", "--depth=1"]
    else runTool "git" none ["clone", "--depth=1", repositoryAddress language, copy]
  match outcome with
  | .error fault => throw (.install language.grammarName (.fetchNotStarted fault))
  | .ok (status, _) =>
    if status.isSuccess then return ()
    else throw (.install language.grammarName (.fetchFailed status))

/-- Generates the parser anew; if that fails, the parser that is there serves. -/
def regenerate (directory : String) : SiteM Unit := do
  let _ ← runTool "tree-sitter" (some directory) ["generate"]

/-- The directory in which a grammar's parser is looked for: the usual one, unless only the other one
has a parser. -/
def parserDirectory (site : Site) (directory : String) : String :=
  let usual := Path.join directory "src"
  let nested := Path.join (Path.join directory "grammar") "src"
  if site.contains (Path.join usual "parser.c") then usual
  else if site.contains (Path.join nested "parser.c") then nested
  else usual

/-- The scanner's share in the compiler's arguments. -/
def scannerArguments (site : Site) (source : String) : List String :=
  let plain := Path.join source "scanner.c"
  let other := Path.join source "scanner.cc"
  if site.contains plain then [plain]
  else if site.contains other then [other, "-lstdc++"]
  else []

/-- Compiles the parser in a directory into the grammar's library. -/
def compile (language : Builtin) (source : String) : SiteM Unit := do
  let site ← get
  let arguments := ["-shared", "-fPIC", "-O2", "-I", source, Path.join source "parser.c"]
    ++ site.scannerArguments source ++ ["-o", site.libraryPath language.grammarName]
  match ← runTool "cc" none arguments with
  | .error fault => throw (.install language.grammarName (.compilerNotStarted fault))
  | .ok (status, errors) =>
    if status.isSuccess then return ()
    else throw (.install language.grammarName
      (.compilationFailed (Text.Utf8.decodeLossy errors)))

/-- Puts an install on record, in memory and, if that is possible, in the directory. -/
def noteInstall (language : Builtin) : SiteM Unit := fun site =>
  let record := site.record.recordInstall language.grammarName site.host.now
  let site := { site with record := record }
  .ok () (site.tryDisk (saveRecord site.host.disk site.host.current site.directory record))

/-- Installs a grammar, whether or not it is there. -/
def install (language : Builtin) : SiteM Unit := do
  let site ← get
  makeDirectories site.directory
  makeDirectories site.sourcesPath
  let copy := Path.join site.sourcesPath (repositoryName language)
  fetchRepository language copy
  let directory := match language.subdirectory? with
    | some name => Path.join copy name
    | none => copy
  regenerate directory
  -- the tools have changed the disk, and only now is the parser looked for
  let site ← get
  let source := site.parserDirectory directory
  if site.contains (Path.join source "parser.c") then
    compile language source
    noteInstall language
  else throw (.install language.grammarName (.noParser directory))

/-- Removes a grammar's library, if it is there and is a file. -/
def discardLibrary (site : Site) (language : Builtin) : Site :=
  site.tryDisk
    (site.host.disk.removeFile site.host.current (site.libraryPath language.grammarName))

/-- Makes sure that a grammar is there and was compiled for today's interface. -/
def ensure (language : Builtin) : SiteM InstallResult := do
  let site ← get
  if site.isOutdated language then
    -- a library that cannot be removed is compiled over
    set (site.discardLibrary language)
    install language
    return .reinstalled
  else if site.isInstalled language then return .alreadyInstalled
  else
    install language
    return .installed

/-- A grammar that is there and not outdated is left as it is. -/
theorem ensure_of_isInstalled {site : Site} {language : Builtin}
    (ho : site.isOutdated language = false) (hi : site.isInstalled language = true) :
    ensure language site = .ok .alreadyInstalled site := by
  unfold ensure
  change (if site.isOutdated language = true then _ else if site.isInstalled language = true then
    pure InstallResult.alreadyInstalled else _ : SiteM InstallResult) site = _
  rw [ho, hi]
  rfl

end Site

end CodeMarkup
