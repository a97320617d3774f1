import CodeMarkup.Disk.Basic

/-!
# Directories

A directory can be made only inside a directory. Making one **with its parents** tries the path itself
first and goes up only where something is missing on the way, so that a directory that is there already
is no fault, while a file in its place is one.
-/

namespace CodeMarkup.Disk

/-- The disk with a directory made where steps lead. -/
def makeAt (disk : Disk) (start : Place) (steps : List String) : Except FileFault Disk := do
  let place ← disk.slotAt start steps
  match disk.get? place with
  | some _ => throw .exists
  | none => return disk.put place .directory

/-- Whether steps lead to a directory. -/
def isDirectoryAt (disk : Disk) (start : Place) (steps : List String) : Bool :=
  match disk.walk start steps with
  | .ok place => disk.get? place == some .directory
  | .error _ => false

/-- A fault in making a directory does not count if the directory is there after all. -/
def unlessThere (disk : Disk) (start : Place) (steps : List String)
    (made : Except FileFault Disk) : Except FileFault Disk :=
  match made with
  | .ok disk => .ok disk
  | .error fault => if disk.isDirectoryAt start steps then .ok disk else .error fault

/-- Makes the directory that reversed steps lead to, and its parents where they are missing. -/
def makeUp (disk : Disk) (start : Place) : List String → Except FileFault Disk
  | [] => .ok disk
  | last :: up =>
    let steps := (last :: up).reverse
    match disk.makeAt start steps with
    | .error .notFound => do
      let disk ← disk.makeUp start up
      disk.unlessThere start steps (disk.makeAt start steps)
    | made => disk.unlessThere start steps made

/-- The disk with a directory made where a path leads, parents included. -/
def makeDirectories (disk : Disk) (current : Place) (path : String) : Except FileFault Disk :=
  disk.makeUp (origin current path) ((Path.names path).filter (· ≠ ".")).reverse

/-! ## Whole trees -/

/-- The proper beginnings of a place below a base, shortest first. -/
def ancestors (place : Place) : List Place :=
  (List.range place.length).map place.take

/-- The disk with something put at a place and directories at those above it that are missing. -/
def putDeep (disk : Disk) (place : Place) (entry : Entry) : Disk :=
  let disk := (ancestors place).foldl
    (fun disk above => if (disk.get? above).isSome then disk else disk.put above .directory) disk
  if entry = .directory ∧ disk.get? place = some .directory then disk else disk.put place entry

/-- The disk with files laid out below a place, each by its path from there. -/
def plant (disk : Disk) (base : Place) (files : List (String × Entry)) : Disk :=
  files.foldl (fun disk (path, entry) => disk.putDeep (base ++ Path.names path) entry) disk

/-- Whether a place lies below a base. -/
def isBelow (base place : Place) : Bool :=
  base.isPrefixOf place && place.length ≠ base.length

/-- The paths of everything below a base, from there and in order; directories end with a slash. -/
def listing (disk : Disk) (base : Place) : List String :=
  let below := disk.entries.filter fun (place, _) => isBelow base place
  let paths := below.map fun (place, entry) =>
    "/".intercalate (place.drop base.length) ++ if entry = .directory then "/" else ""
  paths.mergeSort (· ≤ ·)

end CodeMarkup.Disk
