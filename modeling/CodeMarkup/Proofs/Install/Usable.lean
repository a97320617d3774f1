import CodeMarkup.Proofs.Language.Chain
import CodeMarkup.Tool.Scripted

/-!
# Suppliers hand out usable libraries

A library can be used if it is there and was not compiled for another interface than today's. Whether it is
there and what the record says of it are two things, and installing one grammar of a chain comes between the
looks at the others, with tools that may fail. All the same, if the supplier of a built-in language yields
anything, it yields the language's whole chain, and every library of the chain can be used then
(`usable_of_fetch`). A supplier that is not to install anything only looks: it changes nothing, and it yields
the chain iff every library can be used as it is.

This takes tools that mind their own business (`Host.Tidy`): they take nothing away but what is in the place
they work on, and a compiler that ends well has written its output.
-/

namespace CodeMarkup

/-! ## Tidy tools -/

/-- What a run is to make: the copy of a repository, or a library. -/
def Call.target? (call : Call) : Option Place :=
  if call.tool = "cc" ∨ call.tool = "git" ∧ call.arguments.head? = some "clone" then
    call.arguments.getLast?.map (Place.ofPath call.directory)
  else none

/-- A tool may take away what is at a place: this is its target, or lies in that or in its working directory.
A working directory that has the whole directory of grammars in it, or is it, gives no such right: it was not chosen
for the run but is where the program happens to be. So whoever clones or compiles may take away its target only, even
from a current directory like the user's own, while whoever updates a copy or generates a parser in it is started
there and may take away what is in it. -/
def Call.MayClear (call : Call) (directory place : Place) : Prop :=
  (∃ target, call.target? = some target ∧ target <+: place) ∨
    call.directory <+: place ∧ call.directory ≠ place ∧ ¬ call.directory <+: directory

/-- Tools that mind their own business, beside a directory of grammars. For a tool that is started in a directory around
that one, this is its target alone (`Call.MayClear`). -/
structure Host.Tidy (host : Host) (directory : Place) : Prop where
  /-- what a tool may not take away stays, though it may be written over -/
  spares : ∀ place, host.Keep (fun call => ¬ call.MayClear directory place)
    fun disk => (disk.get? place).isSome = true
  /-- a compiler that ends well has written its output -/
  compiles : ∀ compiler, host.tools "cc" = some compiler → ∀ earlier current arguments target disk,
    let run := compiler earlier ⟨"cc", current, arguments ++ ["-o", target]⟩ disk
    run.status.isSuccess = true → run.disk.contains current target = true

/-- A compiler that ends well has written its output. -/
def Host.WritesOutput (host : Host) : Prop :=
  ∀ compiler, host.tools "cc" = some compiler → ∀ earlier current arguments target disk,
    let run := compiler earlier ⟨"cc", current, arguments ++ ["-o", target]⟩ disk
    run.status.isSuccess = true → run.disk.contains current target = true

theorem Host.Tidy.writesOutput {host : Host} {directory : Place} (h : host.Tidy directory) : host.WritesOutput :=
  h.compiles

namespace Site

variable {site after : Site} {language member : Builtin}

/-- What a run of an install is to make: the copy of the repository, or the library. -/
theorem target_of_installCall {call : Call} {target : Place} (h : site.InstallCall language call)
    (htarget : call.target? = some target) :
    call.tool = "git" ∧ target = site.place ++ ["sources", repositoryName language] ∨
      call.tool = "cc" ∧ target = site.place ++ [language.libraryName] := by
  cases h with
  | clone =>
    have hcopy : Place.ofPath site.host.current (site.copyPath language) = target := Option.some.inj htarget
    exact Or.inl ⟨rfl, hcopy.symm.trans (ofPath_copyPath site language)⟩
  | pull => cases htarget
  | generate => cases htarget
  | compile arguments =>
    have hlibrary : Place.ofPath site.host.current (site.libraryPath language.grammarName) = target := by
      simpa [Call.target?, List.getLast?_append] using htarget
    exact Or.inr ⟨rfl, hlibrary.symm.trans (ofPath_libraryPath site language)⟩

/-- Of the entries of the directory, an install may clear away the library that it makes, and only by compiling. -/
theorem compiles_of_mayClear {call : Call} (h : site.InstallCall language call) {name : String}
    (hmay : call.MayClear site.place (site.place ++ [name])) : call.tool = "cc" ∧ name = language.libraryName := by
  rcases hmay with ⟨target, htarget, hbelow⟩ | ⟨hbelow, hsame, habove⟩
  · rcases target_of_installCall h htarget with ⟨-, rfl⟩ | ⟨htool, rfl⟩
    · rw [List.prefix_append_right_inj] at hbelow
      simpa using hbelow.length_le
    · rw [List.prefix_append_right_inj, List.cons_prefix_cons] at hbelow
      exact ⟨htool, hbelow.1.symm⟩
  · rcases List.prefix_concat_iff.mp hbelow with hall | hdirectory
    · exact (hsame hall).elim
    · exact (habove hdirectory).elim

/-! ## Usable libraries -/

/-- Something stands where a grammar's library belongs, and it is not outdated. -/
structure Stands (site : Site) (language : Builtin) : Prop where
  /-- something stands there -/
  library : (site.host.disk.get? (site.place ++ [language.libraryName])).isSome = true
  /-- it is not outdated -/
  upToDate : site.isOutdated language = false

/-- The directory can be reached. -/
structure Reached (site : Site) : Prop where
  /-- its path leads through directories -/
  path : site.host.disk.Reaches (Disk.origin site.host.current site.directory) (Path.names site.directory)

theorem isInstalled_iff : site.isInstalled language = true ↔
    site.Reached ∧ (site.host.disk.get? (site.place ++ [language.libraryName])).isSome = true :=
  (Disk.contains_join_iff language.isEntry_libraryName site.directory).trans
    ⟨fun ⟨path, hlibrary⟩ => ⟨⟨path⟩, hlibrary⟩, fun ⟨hreached, hlibrary⟩ => ⟨hreached.path, hlibrary⟩⟩

/-- A library can be used iff it stands where it belongs and the directory can be reached, which is the same
for all libraries. -/
theorem isUsable_iff : site.isUsable language = true ↔ site.Reached ∧ site.Stands language := by
  rw [isUsable, Bool.and_eq_true, isInstalled_iff, Bool.not_eq_true']
  constructor
  · rintro ⟨⟨hreached, hlibrary⟩, hdate⟩
    exact ⟨hreached, hlibrary, hdate⟩
  · rintro ⟨hreached, hstands⟩
    exact ⟨⟨hreached, hstands.library⟩, hstands.upToDate⟩

theorem SameSetting.writesOutput (h : SameSetting site after) (hwrites : site.host.WritesOutput) :
    after.host.WritesOutput := by
  rwa [Host.WritesOutput, h.tools]

theorem SameSetting.tidy (h : SameSetting site after) (htidy : site.host.Tidy site.place) :
    after.host.Tidy after.place := by
  obtain ⟨hspares, hcompiles⟩ := htidy
  rw [h.place]
  refine ⟨fun place => ?_, ?_⟩
  · simpa only [Host.Keep, h.tools] using hspares place
  · simpa only [h.tools] using hcompiles

/-- Noting an install leaves every library where it is and changes the date of one grammar only. -/
theorem stands_noted (hlibrary : (site.host.disk.get? (site.place ++ [member.libraryName])).isSome = true)
    (hdate : member ≠ language → site.isOutdated member = false) : (site.noted language).Stands member := by
  refine ⟨?_, ?_⟩
  · rw [(sameSetting_noted site language).place]
    exact (retainedIn_noted site language).stands _ hlibrary
  · rw [isOutdated, record_noted]
    by_cases hmember : member = language
    · rw [hmember]
      exact InstallRecord.isOutdated_recordInstall_self _ _ _
    · rw [InstallRecord.isOutdated, InstallRecord.recordInstall, InstallRecord.note?_set, if_neg]
      · exact hdate hmember
      · exact fun hname => hmember (Builtin.grammarName_injective hname)

theorem reached_noted (h : site.Reached) : (site.noted language).Reached := by
  have hsetting := sameSetting_noted site language
  constructor
  rw [hsetting.current, hsetting.directory]
  exact h.path.mono (retainedIn_noted site language).directory

/-! ## Making sure of one library -/

section

variable {start between : Site}

/-- A library that was made is there, if the compiler has written it. -/
theorem isInstalled_of_make (hwrites : start.host.WritesOutput)
    (h : make language start = .ok () between) : between.isInstalled language = true := by
  have hsince := since_of_make h
  obtain ⟨compiler, earlier, arguments, disk, htool, hsuccess, hafter⟩ := compiled_of_make h
  rw [isInstalled, contains, hsince.current, hsince.libraryPath, hafter]
  exact hwrites compiler htool _ _ _ _ _ hsuccess

/-- Making a library leaves every other library where it is, if the tools are tidy. -/
theorem library_of_make (htidy : start.host.Tidy start.place) (h : make language start = .ok () between)
    (hne : member ≠ language)
    (hlibrary : (start.host.disk.get? (start.place ++ [member.libraryName])).isSome = true) :
    (between.host.disk.get? (start.place ++ [member.libraryName])).isSome = true := by
  have hkeep : start.host.Keep (start.InstallCall language)
      fun disk => (disk.get? (start.place ++ [member.libraryName])).isSome = true :=
    fun call tool hcall => htidy.spares _ call tool fun hmay =>
      hne (Builtin.libraryName_injective (compiles_of_mayClear hcall hmay).2)
  exact ((keeps_make hkeep fun disk after hspares => (hspares _).isSome).done h (Since.refl hlibrary)).disk

end

variable {result : InstallResult}

/-- **A grammar that was made sure of is usable.** -/
theorem isUsable_of_ensure (hwrites : site.host.WritesOutput)
    (h : ensure language site = .ok result after) : after.isUsable language = true := by
  rcases ensure_ok_cases h with ⟨husable, rfl⟩ | ⟨between, hmake, rfl⟩
  · exact husable
  · have hinstalled := isInstalled_of_make ((sameSetting_cleared site language).writesOutput hwrites) hmake
    obtain ⟨hreached, hlibrary⟩ := isInstalled_iff.mp hinstalled
    rw [isUsable_iff]
    constructor
    · exact reached_noted hreached
    · exact stands_noted hlibrary fun hne => (hne rfl).elim

/-- **Making sure of one grammar leaves the others as they were.** -/
theorem Stands.of_ensure (hstands : site.Stands member) (htidy : site.host.Tidy site.place)
    (h : ensure language site = .ok result after) : after.Stands member := by
  by_cases hmember : member = language
  · rw [hmember]
    exact (isUsable_iff.mp (isUsable_of_ensure htidy.writesOutput h)).2
  rcases ensure_ok_cases h with ⟨-, rfl⟩ | ⟨between, hmake, rfl⟩
  · exact hstands
  · have hcleared := sameSetting_cleared site language
    have hsince := since_of_make hmake
    have hplace := hsince.place.trans hcleared.place
    have hlibrary := library_of_make (hcleared.tidy htidy) hmake hmember <| by
      rw [hcleared.place, get?_cleared]
      · exact hstands.library
      · simpa using fun hname => hmember (Builtin.libraryName_injective hname)
    refine stands_noted ?_ fun _ => ?_
    · rwa [hplace, ← hcleared.place]
    · rw [isOutdated, hsince.record, record_cleared]
      exact hstands.upToDate

/-! ## Chains -/

variable {auto : Bool}

/-- A site after each grammar of a chain was located: its library is there for use. -/
structure Supplied (site after : Site) (chain : List Builtin) : Prop where
  /-- the setting is the same -/
  setting : SameSetting site after
  /-- what stood before stands -/
  kept : ∀ member, site.Stands member → after.Stands member
  /-- the libraries of the chain stand -/
  stands : ∀ member ∈ chain, after.Stands member
  /-- the directory can be reached, as the last of the libraries was -/
  reached : chain ≠ [] → after.Reached

theorem Supplied.append {between : Site} {front rest : List Builtin} (h₁ : Supplied site between front)
    (h₂ : Supplied between after rest) (hrest : rest = [] → after = between) :
    Supplied site after (front ++ rest) := by
  refine ⟨h₁.setting.trans h₂.setting, fun member h => h₂.kept member (h₁.kept member h), ?_, ?_⟩
  · intro member hmem
    rcases List.mem_append.mp hmem with hfront | hrest
    · exact h₂.kept member (h₁.stands member hfront)
    · exact h₂.stands member hrest
  · intro hne
    rcases rest with _ | ⟨next, others⟩
    · rw [hrest rfl]
      exact h₁.reached (by simpa using hne)
    · exact h₂.reached (List.cons_ne_nil _ _)

theorem supplied_of_locate {definition : GrammarDefinition} (htidy : site.host.Tidy site.place)
    (h : locate auto language site = .ok definition after) : Supplied site after [language] := by
  rcases (locate_cases h).2 with ⟨husable, rfl⟩ | ⟨result, hensure⟩
  · obtain ⟨hreached, hstands⟩ := isUsable_iff.mp husable
    exact ⟨.refl _, fun _ => id, fun member hm => List.mem_singleton.mp hm ▸ hstands, fun _ => hreached⟩
  · obtain ⟨hreached, hstands⟩ := isUsable_iff.mp (isUsable_of_ensure htidy.writesOutput hensure)
    exact ⟨sameSetting_of_ensure hensure, fun _ hstands => hstands.of_ensure htidy hensure,
      fun member hm => List.mem_singleton.mp hm ▸ hstands, fun _ => hreached⟩

/-- **After a chain was gone through, its libraries are there for use**, if the tools are tidy. -/
theorem supplied_of_locateAll {chain : List Builtin} {definitions : List GrammarDefinition}
    (htidy : site.host.Tidy site.place) (h : locateAll auto chain site = .ok definitions after) :
    Supplied site after chain := by
  induction chain generalizing site definitions with
  | nil =>
    cases h
    exact ⟨.refl _, fun _ => id, fun _ hm => (List.not_mem_nil hm).elim, fun hne => (hne rfl).elim⟩
  | cons language rest ih =>
    obtain ⟨definition, between, hlocate, h⟩ := done_of_bind h
    obtain ⟨others, last, hrest, h⟩ := done_of_bind h
    cases h
    have hfirst := supplied_of_locate htidy hlocate
    refine hfirst.append (ih (hfirst.setting.tidy htidy) hrest) ?_
    rintro rfl
    cases hrest
    rfl

/-! ## Looking only -/

/-- A grammar that may not be installed is there for use or is not to be had. -/
theorem locate_off (language : Builtin) (site : Site) :
    locate false language site = if site.isUsable language then .ok (site.definition language) site
      else .error (.notInstalled language.grammarName) site :=
  rfl

/-- Going through a chain without installing ends at the first library that cannot be used. -/
theorem locateAll_off (chain : List Builtin) (site : Site) :
    locateAll false chain site = match chain.find? (fun member => !site.isUsable member) with
      | none => .ok (chain.map site.definition) site
      | some missing => .error (.notInstalled missing.grammarName) site := by
  induction chain with
  | nil => rfl
  | cons language rest ih =>
    rw [locateAll, List.find?_cons]
    simp only [bind, EStateM.bind, locate_off]
    rcases husable : site.isUsable language with _ | _
    · rfl
    · simp only [if_true, ih, Bool.not_true]
      rcases rest.find? (fun member => !site.isUsable member) with _ | missing
      · rfl
      · rfl

/-- **A supplier that may not install** yields its chain iff every library can be used as it is, and changes
nothing. -/
theorem supply_off (language : Builtin) (site : Site) :
    match language.chain.find? (fun member => !site.isUsable member) with
    | none => ∃ bundle, supply false language site = .ok bundle site
    | some missing => supply false language site = .error (.notInstalled missing.grammarName) site := by
  have hall := locateAll_off language.chain site
  rcases hfind : language.chain.find? (fun member => !site.isUsable member) with _ | missing
  · rw [hfind] at hall
    rcases supply_cases false language site with
      ⟨definitions, bundle, after, hlocate, hsupply, -⟩ | ⟨fault, after, hlocate, -⟩
    · cases hlocate.symm.trans hall
      exact ⟨bundle, hsupply⟩
    · cases hlocate.symm.trans hall
  · rw [hfind] at hall
    rcases supply_cases false language site with
      ⟨definitions, bundle, after, hlocate, -, -⟩ | ⟨fault, after, hlocate, hsupply⟩
    · cases hlocate.symm.trans hall
    · cases hlocate.symm.trans hall
      exact hsupply

end Site

/-! ## Tidy scripts -/

namespace Disk

variable {disk : Disk} {place other : Place}

/-- Putting something somewhere takes nothing away. -/
theorem isSome_put (entry : Entry) (h : (disk.get? other).isSome = true) :
    ((disk.put place entry).get? other).isSome = true := by
  by_cases hroot : other = []
  · rw [hroot]
    rfl
  · by_cases hsame : other = place
    · rw [get?_put _ (hsame ▸ hroot), if_pos hsame]
      rfl
    · have hkey : (other == place) = false := by simpa using hsame
      simpa only [get?, put, hroot, if_false, List.lookup_cons, hkey, lookup_filter_ne _ hsame] using h

theorem isSome_putDeep (entry : Entry) (h : (disk.get? other).isSome = true) :
    ((disk.putDeep place entry).get? other).isSome = true := by
  have habove : ∀ (above : List Place) (disk : Disk), (disk.get? other).isSome = true →
      ((above.foldl (fun disk above =>
        if (disk.get? above).isSome then disk else disk.put above .directory) disk).get? other).isSome = true := by
    intro above
    induction above with
    | nil => exact fun _ => id
    | cons first rest ih =>
      intro disk h
      refine ih _ ?_
      dsimp only
      split
      · exact h
      · exact isSome_put _ h
  unfold putDeep
  dsimp only
  split
  · exact habove _ _ h
  · exact isSome_put _ (habove _ _ h)

theorem isSome_plant (base : Place) (files : List (String × Entry)) (h : (disk.get? other).isSome = true) :
    ((disk.plant base files).get? other).isSome = true := by
  unfold plant
  induction files generalizing disk with
  | nil => exact h
  | cons file rest ih => exact ih (isSome_putDeep _ h)

end Disk

namespace ScriptedTool

/-- A scripted tool takes nothing away. -/
theorem isSome_toTool (script : ScriptedTool) (earlier : List Call) (call : Call) {disk : Disk} {place : Place}
    (h : (disk.get? place).isSome = true) :
    ((script.toTool earlier call disk).disk.get? place).isSome = true := by
  have hfiles := Disk.isSome_plant (destination call) script.files h
  simp only [toTool]
  split
  · exact Disk.isSome_putDeep _ hfiles
  · exact hfiles

/-- A scripted compiler that fails if its output is not there in the end. -/
def checked (script : ScriptedTool) : Tool := fun earlier call disk =>
  let run := script.toTool earlier call disk
  if run.disk.contains call.directory (call.arguments.getLast?.getD "") then run
  else { run with status := .code 1 }

end ScriptedTool

/-- A host with scripted tools, of which only the compiler looks at what it has done. -/
def scriptedHost (disk : Disk) (git cc : ScriptedTool) : Host where
  disk := disk
  tools := fun tool => match tool with
    | "git" => some git.toTool
    | "cc" => some cc.checked
    | _ => none
  current := []
  now := 0
  calls := []

theorem tidy_scriptedHost (disk : Disk) (git cc : ScriptedTool) (directory : Place) :
    (scriptedHost disk git cc).Tidy directory := by
  constructor
  · intro place call tool hcall htool earlier disk h
    simp only [scriptedHost] at htool
    split at htool
    · cases htool
      exact git.isSome_toTool earlier call h
    · cases htool
      simp only [ScriptedTool.checked]
      split
      · exact cc.isSome_toTool earlier call h
      · exact cc.isSome_toTool earlier call h
    · cases htool
  · intro compiler htool earlier current arguments target disk
    simp only [scriptedHost, Option.some.injEq] at htool
    subst htool
    simp only [ScriptedTool.checked]
    split
    · rename_i hthere
      intro _
      simpa using hthere
    · intro hfailed
      cases hfailed

namespace Site

variable {site : Site} {member : Builtin}

/-! ## Fetching -/

theorem isUsable_iff_contains : site.isUsable member = true ↔
    site.contains (site.libraryPath member.grammarName) = true ∧ site.isOutdated member = false := by
  rw [isUsable, Bool.and_eq_true, Bool.not_eq_true', isInstalled]

/-- **A built-in supplier only hands out usable libraries.** If it yields anything, that is a definition for each
grammar of the language's chain, in order, under the grammar's name, with the path of its library and the usual
symbol; and each of these libraries is there then and not outdated. A supplier that may not install leaves the
site as it is, and yields something iff every library of the chain is there and not outdated. -/
theorem usable_of_fetch (site : Site) (language : Builtin) :
    (∀ auto bundle after, site.host.Tidy site.place →
      (Supplier.installed language auto).fetch site = .ok bundle after →
      bundle.toList = language.chain.map (fun member =>
        ⟨some member.grammarName, .library (site.libraryPath member.grammarName)
          ("tree_sitter_" ++ member.grammarName)⟩) ∧
      ∀ member ∈ language.chain, after.contains (site.libraryPath member.grammarName) = true ∧
        after.isOutdated member = false) ∧
    stateAfter ((Supplier.installed language false).fetch site) = site ∧
    ((∃ bundle after, (Supplier.installed language false).fetch site = .ok bundle after) ↔
      ∀ member ∈ language.chain, site.contains (site.libraryPath member.grammarName) = true ∧
        site.isOutdated member = false) := by
  refine ⟨?_, ?_⟩
  · intro auto bundle after htidy h
    have hlocate := locateAll_of_supply h
    have hsupplied := supplied_of_locateAll htidy hlocate
    refine ⟨definitions_of_locateAll hlocate, fun member hmem => ?_⟩
    have hreached := hsupplied.reached (List.ne_nil_of_mem hmem)
    rw [← hsupplied.setting.libraryPath, ← isUsable_iff_contains, isUsable_iff]
    exact ⟨hreached, hsupplied.stands member hmem⟩
  · have hoff := supply_off language site
    simp only [← isUsable_iff_contains]
    change stateAfter (supply false language site) = site ∧
      ((∃ bundle after, supply false language site = .ok bundle after) ↔ _)
    rcases hfind : language.chain.find? (fun member => !site.isUsable member) with _ | missing
    · rw [hfind] at hoff
      obtain ⟨bundle, hoff⟩ := hoff
      rw [hoff]
      refine ⟨rfl, iff_of_true ⟨bundle, site, rfl⟩ ?_⟩
      simpa using hfind
    · rw [hfind] at hoff
      dsimp only at hoff
      rw [hoff]
      refine ⟨rfl, iff_of_false (fun ⟨_, _, h⟩ => nomatch h) fun hall => ?_⟩
      have hmissing := List.find?_some hfind
      rw [hall missing (List.mem_of_find?_eq_some hfind)] at hmissing
      cases hmissing

/-- A site with the library that TypeScript depends on, but not its own; the repository can be cloned. -/
def halfSite : Site where
  host := scriptedHost ⟨[(["g"], .directory), (["g", "libtsx.so"], .file (.text ""))]⟩
    ⟨.code 0, [], [("typescript/src/parser.c", .file (.text ""))], none⟩
    ⟨.code 0, [], [], some (.file (.library []))⟩
  directory := "g"
  record := ⟨[("tsx", ⟨14, 0⟩), ("typescript", ⟨13, 0⟩)]⟩

/-- Of two libraries one is there and the other, which is outdated besides, is made. -/
theorem usable_of_fetch_half : halfSite.host.Tidy halfSite.place ∧
    ∃ bundle after, (Supplier.installed .typeScript true).fetch halfSite = .ok bundle after ∧
      bundle.toList = [⟨some "tsx", .library "g/libtsx.so" "tree_sitter_tsx"⟩,
        ⟨some "typescript", .library "g/libtypescript.so" "tree_sitter_typescript"⟩] ∧
      after.contains "g/libtypescript.so" = true ∧ after.isOutdated .typeScript = false := by
  have htidy : halfSite.host.Tidy halfSite.place := tidy_scriptedHost _ _ _ _
  refine ⟨htidy, ?_⟩
  have hdone : isDone ((Supplier.installed .typeScript true).fetch halfSite) = true := by decide +kernel
  obtain ⟨bundle, after, h⟩ := exists_of_isDone hdone
  obtain ⟨hbundle, husable⟩ := (usable_of_fetch halfSite .typeScript).1 true bundle after htidy h
  exact ⟨bundle, after, h, hbundle, husable .typeScript (by decide)⟩

end Site

end CodeMarkup
