import CodeMarkup.Disk.Library
import CodeMarkup.Grammar.Basic

/-!
# Preparing a grammar

Before a grammar can be bound to its name its tables must be at hand and fit to be driven. Linked tables
are at hand; a library must be there, open, and export the symbol. Whether tables fit is decided by the
interface version alone, and after everything else.
-/

namespace CodeMarkup

/-- Why a grammar could not be loaded. -/
inductive LoadFault where
  /-- the definition has no name -/
  | unnamed
  /-- no library is at its path -/
  | missingFile (path : String)
  /-- the library cannot be opened -/
  | unopened (path : String) (fault : LoaderFault)
  /-- the library does not export the symbol -/
  | missingSymbol (path symbol : String)
  /-- the tables are for another interface -/
  | incompatible (abi : Nat)
  /-- the engine would not have it -/
  | refused
  deriving DecidableEq, Repr

/-- The wording of a fault. -/
def LoadFault.message : LoadFault → String
  | .unnamed => "grammar declares no name"
  | .missingFile path => path ++ " does not exist"
  | .unopened path fault => "failed to open " ++ path ++ ": " ++ fault.message path
  | .missingSymbol path symbol =>
    "missing symbol " ++ symbol ++ ": " ++ (LoaderFault.undefinedSymbol symbol).message path
  | .incompatible abi =>
    "incompatible ABI version " ++ toString abi ++ " (supported " ++ toString Grammar.oldestAbi
      ++ "..=" ++ toString Grammar.currentAbi ++ ")"
  | .refused => "refused"

/-- A load that failed, and for which grammar. -/
structure LoadFailure where
  /-- the grammar as messages call it -/
  grammar : String
  /-- what is wrong with it -/
  fault : LoadFault
  deriving DecidableEq, Repr

/-- Where libraries are looked for: a disk and the current directory on it. -/
structure Surroundings where
  /-- the disk -/
  disk : Disk
  /-- the current directory -/
  current : Place

/-- Tables, if they can be driven. -/
def Grammar.check (grammar : Grammar) : Except LoadFault Grammar :=
  if grammar.isCompatible then .ok grammar else .error (.incompatible grammar.abi)

/-- The tables that a library exports under a symbol. -/
def Surroundings.readLibrary (around : Surroundings) (path symbol : String) :
    Except LoadFault Grammar :=
  match around.disk.openLibrary around.current path with
  | none => .error (.missingFile path)
  | some (.error fault) => .error (.unopened path fault)
  | some (.ok exported) =>
    match exported.lookup symbol with
    | none => .error (.missingSymbol path symbol)
    | some grammar => .ok grammar

/-- The tables of a source, at hand and fit to be driven. -/
def GrammarSource.prepare (around : Surroundings) : GrammarSource → Except LoadFault Grammar
  | .linked grammar => grammar.check
  | .library path symbol => do
    let grammar ← around.readLibrary path symbol
    grammar.check

end CodeMarkup
