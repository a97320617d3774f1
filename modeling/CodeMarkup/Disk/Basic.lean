import CodeMarkup.Disk.Fault
import CodeMarkup.Disk.Path
import CodeMarkup.Grammar.Basic
import CodeMarkup.Text.Utf8

/-!
# Disks

A disk is a value: a table from **places** to what stands there. A place is given by its names from the
root, so two different paths to a file come to the same place, and what an operation leaves alone is
said place by place.

A file holds a text, or bytes that may be none, or a compiled library, of which only what it exports
matters here.

Looking up a path walks it name by name, from the root or from the current directory: every name but
the last must lead to a directory, `.` stays and `..` goes back up.
-/

namespace CodeMarkup

/-- A place on a disk: its names from the root. -/
abbrev Place := List String

/-- What a file holds. -/
inductive Content where
  /-- a text -/
  | text (value : String)
  /-- bytes, which may or may not encode a text -/
  | raw (bytes : List UInt8)
  /-- a compiled library, as its exported symbols and the tables behind them -/
  | library (exported : List (String × Grammar))
  deriving DecidableEq, Repr

/-- The text of a file, if it holds one. -/
def Content.readText : Content → Except FileFault String
  | .text value => .ok value
  | .raw bytes => match Text.Utf8.decode? bytes with
    | some value => .ok value
    | none => .error .notText
  | .library _ => .error .notText

/-- What stands at a place. -/
inductive Entry where
  /-- a file -/
  | file (content : Content)
  /-- a directory; what it holds stands at places of its own -/
  | directory
  deriving DecidableEq, Repr

/-- A disk: what stands where. -/
structure Disk where
  /-- the entries, at most one to a place; the root needs none -/
  entries : List (Place × Entry)
  deriving DecidableEq, Repr

namespace Disk

/-- A disk with nothing on it but the root. -/
def blank : Disk := ⟨[]⟩

/-- What stands at a place; the root is always a directory. -/
def get? (disk : Disk) (place : Place) : Option Entry :=
  if place = [] then some .directory else disk.entries.lookup place

/-- The disk with something else at a place. -/
def put (disk : Disk) (place : Place) (entry : Entry) : Disk :=
  ⟨(place, entry) :: disk.entries.filter (·.1 ≠ place)⟩

/-- The disk with nothing at a place. -/
def erase (disk : Disk) (place : Place) : Disk :=
  ⟨disk.entries.filter (·.1 ≠ place)⟩

/-- Taking out one key's pairs leaves every other key's value. -/
theorem lookup_filter_ne {β : Type} (pairs : List (Place × β)) {place other : Place}
    (h : other ≠ place) : (pairs.filter (·.1 ≠ place)).lookup other = pairs.lookup other := by
  induction pairs with
  | nil => rfl
  | cons pair rest ih =>
    obtain ⟨key, value⟩ := pair
    simp only [ne_eq, decide_not] at ih ⊢
    by_cases hk : key = place
    · subst hk
      have : (other == key) = false := by simpa using h
      simp [List.lookup_cons, this, ih]
    · simp [List.lookup_cons, hk, ih]

/-- Taking out a key's pairs leaves it without a value. -/
theorem lookup_filter_self {β : Type} (pairs : List (Place × β)) (place : Place) :
    (pairs.filter (·.1 ≠ place)).lookup place = none := by
  rw [List.lookup_eq_none_iff]
  simp only [List.mem_filter, decide_eq_true_eq, bne_iff_ne]
  exact fun pair h => Ne.symm h.2

/-- A place holds what was last put there, and every other place what it held before. -/
theorem get?_put (disk : Disk) {place : Place} (hp : place ≠ []) (entry : Entry)
    (other : Place) :
    (disk.put place entry).get? other = if other = place then some entry else disk.get? other := by
  by_cases h : other = place
  · simp [get?, put, h, hp]
  · have hb : (other == place) = false := by simpa using h
    simp only [get?, put, List.lookup_cons, hb, lookup_filter_ne _ h, h, if_false]

/-- A place is empty once it was erased, and every other place holds what it held before. -/
theorem get?_erase (disk : Disk) {place : Place} (hp : place ≠ []) (other : Place) :
    (disk.erase place).get? other = if other = place then none else disk.get? other := by
  by_cases h : other = place
  · simp only [get?, erase, h, hp, if_false, lookup_filter_self, if_true]
  · simp only [get?, erase, lookup_filter_ne _ h, h, if_false]

/-! ## Looking up -/

/-- Follows steps from a place that is a directory. -/
def walk (disk : Disk) : Place → List String → Except FileFault Place
  | here, [] => .ok here
  | here, step :: rest =>
    if step = "." then disk.walk here rest
    else if step = ".." then disk.walk here.dropLast rest
    else match disk.get? (here ++ [step]) with
      | none => .error .notFound
      | some .directory => disk.walk (here ++ [step]) rest
      -- a file can only be the end of a path
      | some (.file _) => if rest = [] then .ok (here ++ [step]) else .error .notDirectory

/-- Where a path starts. -/
def origin (current : Place) (path : String) : Place :=
  if Path.isAbsolute path then [] else current

/-- The place of what a path leads to. -/
def locate (disk : Disk) (current : Place) (path : String) : Except FileFault Place :=
  if path = "" then .error .notFound
  else disk.walk (origin current path) (Path.steps path)

/-- The place that steps lead to when the last of them may yet lead to nothing. -/
def slotAt (disk : Disk) (start : Place) (steps : List String) : Except FileFault Place :=
  match steps.getLast? with
  | none => .ok start
  | some last => do
    let parent ← disk.walk start steps.dropLast
    match disk.get? parent with
    | some .directory =>
      if last = "." ∨ last = ".." then disk.walk parent [last] else return parent ++ [last]
    | some (.file _) => throw .notDirectory
    | none => throw .notFound

/-- The place that a path leads to, when there may be nothing yet. -/
def slot (disk : Disk) (current : Place) (path : String) : Except FileFault Place :=
  if path = "" then .error .notFound
  else disk.slotAt (origin current path) (Path.steps path)

/-- What a path leads to. -/
def find (disk : Disk) (current : Place) (path : String) : Except FileFault Entry := do
  let place ← disk.locate current path
  match disk.get? place with
  | some entry => return entry
  | none => throw .notFound

/-- Whether a path leads to anything. -/
def contains (disk : Disk) (current : Place) (path : String) : Bool :=
  (disk.find current path).isOk

/-! ## Files -/

/-- The text of the file that a path leads to. -/
def readText (disk : Disk) (current : Place) (path : String) : Except FileFault String := do
  match ← disk.find current path with
  | .directory => throw .isDirectory
  | .file content => content.readText

/-- The disk with a text written to a file, new or old. -/
def writeText (disk : Disk) (current : Place) (path text : String) : Except FileFault Disk := do
  let place ← disk.slot current path
  match disk.get? place with
  | some .directory => throw .isDirectory
  | _ => return disk.put place (.file (.text text))

/-- The disk without the file that a path leads to. -/
def removeFile (disk : Disk) (current : Place) (path : String) : Except FileFault Disk := do
  let place ← disk.slot current path
  match disk.get? place with
  | none => throw .notFound
  | some .directory => throw .isDirectory
  | some (.file _) => return disk.erase place

end Disk

/-- The place that a path names, whether or not anything is there. -/
def Place.ofPath (current : Place) (path : String) : Place :=
  (Path.names path).foldl
    (fun here name =>
      if name = "." then here else if name = ".." then here.dropLast else here ++ [name])
    (Disk.origin current path)

end CodeMarkup
