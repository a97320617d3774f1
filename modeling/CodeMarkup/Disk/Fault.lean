/-!
# File faults

The ways in which an operation on a file can fail, with the wording the operating system gives them.
-/

namespace CodeMarkup

/-- Why a file operation failed. -/
inductive FileFault where
  /-- nothing is there -/
  | notFound
  /-- something is there already -/
  | exists
  /-- a file stands where a directory is needed -/
  | notDirectory
  /-- a directory stands where a file is needed -/
  | isDirectory
  /-- the file's bytes are no text -/
  | notText
  deriving DecidableEq, Repr

/-- The wording of a fault. -/
def FileFault.message : FileFault → String
  | .notFound => "No such file or directory (os error 2)"
  | .exists => "File exists (os error 17)"
  | .notDirectory => "Not a directory (os error 20)"
  | .isDirectory => "Is a directory (os error 21)"
  | .notText => "stream did not contain valid UTF-8"

end CodeMarkup
