import CodeMarkup.Install.Installer
import CodeMarkup.Language.Basic

/-!
# Supplying grammars

The grammars of a built-in language lie as compiled libraries in the directory of a site. Asked for
them, the supplier goes through the language's chain and makes sure of each library in turn: one that
is there and not outdated is taken as it is, and another one is installed, if that is allowed. The first
grammar that cannot be had ends the search.
-/

namespace CodeMarkup

/-- Work on a site that yields grammars, or a reason why there are none. -/
abbrev SupplyM := EStateM FetchFault Site

namespace Site

/-- Whether a grammar's library can be used as it is. -/
def isUsable (site : Site) (language : Builtin) : Bool :=
  site.isInstalled language && !site.isOutdated language

/-- The definition of a grammar whose library is at its path. -/
def definition (site : Site) (language : Builtin) : GrammarDefinition :=
  .ofLibrary language.grammarName (site.libraryPath language.grammarName)

/-- Makes sure of one grammar of a chain. -/
def locate (auto : Bool) (language : Builtin) : SupplyM GrammarDefinition := fun site =>
  if site.isUsable language then .ok (site.definition language) site
  else if auto then
    match ensure language site with
    | .ok _ site => .ok (site.definition language) site
    | .error fault site => .error (.notEnsured fault) site
  else .error (.notInstalled language.grammarName) site

/-- Makes sure of each grammar of a chain. -/
def locateAll (auto : Bool) : List Builtin → SupplyM (List GrammarDefinition)
  | [] => return []
  | language :: rest => do
    let definition ← locate auto language
    return definition :: (← locateAll auto rest)

/-- The grammars of a built-in language. -/
def supply (auto : Bool) (language : Builtin) : SupplyM Bundle := do
  match language.chain with
  | [only] => return .single (← locate auto only)
  | chain => return .sequence (← locateAll auto chain)

end Site

/-- What a supplier yields at a site. -/
def Supplier.fetch : Supplier → SupplyM Bundle
  | .fixed (.ok bundle) _ => return bundle
  | .fixed (.error text) _ => throw (.reported text)
  | .installed language auto => Site.supply auto language

end CodeMarkup
