import CodeMarkup.Tool.Basic

/-!
# Install faults

An installation can fail at each of its stages. Making the directories fails as any file operation
does; every later stage fails on behalf of the grammar being installed.
-/

namespace CodeMarkup

/-- Why a grammar could not be installed. -/
inductive InstallFault where
  /-- the repository could not be fetched: the tool for that did not start -/
  | fetchNotStarted (fault : FileFault)
  /-- the repository could not be fetched: the tool for that failed -/
  | fetchFailed (status : ExitStatus)
  /-- no parser was found below a directory -/
  | noParser (directory : String)
  /-- the compiler did not start -/
  | compilerNotStarted (fault : FileFault)
  /-- the compiler failed, with this to say -/
  | compilationFailed (errors : String)
  deriving DecidableEq, Repr

/-- An exit code, or the lack of one, described for a message. -/
def ExitStatus.describe : ExitStatus → String
  | .code value => "Some(" ++ toString value ++ ")"
  | .signal => "None"

/-- The wording of a fault. -/
def InstallFault.message : InstallFault → String
  | .fetchNotStarted fault => "failed to run git: " ++ fault.message
  | .fetchFailed status => "git exited with code " ++ status.describe
  | .noParser directory => "could not find parser.c under " ++ directory
  | .compilerNotStarted fault => "Failed to run compiler: " ++ fault.message
  | .compilationFailed errors => "Compilation failed: " ++ errors

/-- Why an installation ended early. -/
inductive EnsureFault where
  /-- a directory could not be made -/
  | file (fault : FileFault)
  /-- a grammar could not be installed -/
  | install (grammar : String) (fault : InstallFault)
  deriving DecidableEq, Repr

/-- The wording of a fault. -/
def EnsureFault.message : EnsureFault → String
  | .file fault => "I/O error: " ++ fault.message
  | .install grammar fault => "Failed to install grammar " ++ grammar ++ ": " ++ fault.message

end CodeMarkup
