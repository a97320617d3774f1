import CodeMarkup.Grammar.Load
import CodeMarkup.Language.Basic

/-!
# Render faults

Why code was not drawn. A language that is to be highlighted must have a supplier, the supplier must
yield grammars, the grammars must load, and then the engine must know the grammar and the theme it is
asked for and parse the code.
-/

namespace CodeMarkup

/-- Why code was not drawn. -/
inductive RenderFault where
  /-- the language has no supplier -/
  | noSupplier (key : String)
  /-- the supplier yielded nothing for the language of this name -/
  | fetch (language : String) (fault : FetchFault)
  /-- the grammars did not load -/
  | load (failure : LoadFailure)
  /-- the engine has no grammar of that name -/
  | unknownGrammar (name : String)
  /-- the engine has no theme of that name -/
  | unknownTheme (name : String)
  /-- the parser gave no tree for the grammar of that name -/
  | noTree (grammar : String)
  deriving DecidableEq, Repr

/-- The wording of a fault. -/
def RenderFault.message : RenderFault → String
  | .noSupplier key => "Language " ++ key ++ " has no grammar supplier"
  | .fetch language fault => "Failed to fetch grammar for " ++ language ++ ": " ++ fault.message
  | .load failure => "Failed to load grammar " ++ failure.grammar ++ ": " ++ failure.fault.message
  | .unknownGrammar name => "Grammar not loaded: " ++ name
  | .unknownTheme name => "Unknown theme: " ++ name
  | .noTree grammar => "Parse failed: no tree produced for " ++ grammar

end CodeMarkup
