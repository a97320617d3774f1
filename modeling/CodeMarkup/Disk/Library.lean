import CodeMarkup.Disk.Basic

/-!
# Compiled libraries

Opening a library can fail in the loader, and then the loader words the reason, naming the library as
the path that was given. A path without a slash is no path to the loader but the name of a library in
the system's own directories, where no grammar is.
-/

namespace CodeMarkup

/-- Why the loader did not give a library, or a symbol of it. -/
inductive LoaderFault where
  /-- no library of that name in the system's directories -/
  | unknownName
  /-- a directory -/
  | directory
  /-- a file too small for a library's header -/
  | tooShort
  /-- a file with something else in place of the header -/
  | noHeader
  /-- a library that does not export the symbol -/
  | undefinedSymbol (symbol : String)
  deriving DecidableEq, Repr

/-- The loader's wording of a fault with a library. -/
def LoaderFault.message (path : String) : LoaderFault → String
  | .unknownName =>
    path ++ ": cannot open shared object file: No such file or directory"
  | .directory => path ++ ": cannot read file data: Is a directory"
  | .tooShort => path ++ ": file too short"
  | .noHeader => path ++ ": invalid ELF header"
  | .undefinedSymbol symbol => path ++ ": undefined symbol: " ++ symbol

/-- How many bytes a library's header has. -/
def headerLength : Nat := 64

/-- What a file of a given size that is no library lacks. -/
def LoaderFault.ofLength (length : Nat) : LoaderFault :=
  if length < headerLength then .tooShort else .noHeader

/-- The exports of a file, if it is a library. -/
def Content.exports : Content → Except LoaderFault (List (String × Grammar))
  | .text value => .error (.ofLength value.utf8ByteSize)
  | .raw bytes => .error (.ofLength bytes.length)
  | .library exported => .ok exported

/-- What comes of opening the library at a path: `none` if nothing is there. -/
def Disk.openLibrary (disk : Disk) (current : Place) (path : String) :
    Option (Except LoaderFault (List (String × Grammar))) :=
  match disk.find current path with
  | .error _ => none
  | .ok entry => some <|
    if !path.toList.contains '/' then .error .unknownName
    else match entry with
      | .directory => .error .directory
      | .file content => content.exports

end CodeMarkup
