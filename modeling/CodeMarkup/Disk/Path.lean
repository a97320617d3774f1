import CodeMarkup.Text.Split

/-!
# Paths

A path is the text by which a program names a file: names between slashes, absolute if it begins with
one. Paths are kept as they were given, because messages and tool arguments show them so, and are only
taken apart when a file is looked up.
-/

namespace CodeMarkup.Path

/-- Whether a path starts at the root. -/
def isAbsolute (path : String) : Bool :=
  path.toList.head? == some '/'

/-- The names of a path, without the empty pieces that doubled slashes leave. -/
def names (path : String) : List String :=
  ((Text.split '/' path.toList).filter (!·.isEmpty)).map String.ofList

/-- Whether a path ends with a slash, and so insists on a directory. -/
def endsWithSlash (path : String) : Bool :=
  path.toList.getLast? == some '/'

/-- The steps of a path: its names, and one that stays in place for a slash at the end. -/
def steps (path : String) : List String :=
  names path ++ if endsWithSlash path && !(names path).isEmpty then ["."] else []

/-- A path inside another; an absolute path stands for itself. -/
def join (base inner : String) : String :=
  if base = "" || isAbsolute inner then inner
  else if endsWithSlash base then base ++ inner
  else base ++ "/" ++ inner

/-- The absolute path of a place, given by its names from the root. -/
def ofNames (names : List String) : String :=
  "/" ++ "/".intercalate names

end CodeMarkup.Path
