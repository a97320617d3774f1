import CodeMarkup.Language.Supply
import CodeMarkup.Proofs.Disk.Spared

/-!
# What an install runs and what it leaves alone

Installing a grammar is making its library (`make`) and noting that in the record (`install_eq`). Making it
runs tools in four ways (`InstallCall`): the repository is cloned or brought up to date, the parser is
generated in the copy, and it is compiled into the library. Besides the tools only the making of directories
touches the disk, and that spares every place. So what the tools keep in such runs, making a library keeps,
whether or not it fails halfway (`keeps_make`), and nothing but the disk changes meanwhile (`Since`).
-/

namespace CodeMarkup

instance (name : String) : Decidable (Path.IsEntry name) :=
  decidable_of_iff ('/' ∉ name.toList ∧ name ≠ "" ∧ name ≠ "." ∧ name ≠ "..")
    ⟨fun ⟨noSlash, nonempty, notHere, notUp⟩ => ⟨noSlash, nonempty, notHere, notUp⟩,
      fun h => ⟨h.noSlash, h.nonempty, h.notHere, h.notUp⟩⟩

/-- The name of a grammar's library. -/
def Builtin.libraryName (language : Builtin) : String :=
  "lib" ++ language.grammarName ++ ".so"

theorem Builtin.isEntry_libraryName (language : Builtin) : Path.IsEntry language.libraryName := by
  cases language <;> decide

theorem Builtin.libraryName_injective {one other : Builtin} (h : one.libraryName = other.libraryName) :
    one = other := by
  apply grammarName_injective
  simpa [libraryName, ← String.toList_inj] using h

namespace Site

/-- The name of a repository's copy has no slash, and it is the repository's own name where nothing is put in. -/
theorem isEntry_repositoryName (language : Builtin) : Path.IsEntry (repositoryName language) := by
  have hchars : (repositoryName language).toList
      = language.repository.toList.flatMap fun c => if c = '/' then ['_', '_'] else [c] := String.toList_ofList
  have hslash : '/' ∉ (repositoryName language).toList := by
    rw [hchars, List.mem_flatMap]
    rintro ⟨c, -, hc⟩
    split at hc
    · simp at hc
    · rename_i hslash
      exact hslash (List.mem_singleton.mp hc).symm
  have hown : '_' ∉ (repositoryName language).toList → repositoryName language = language.repository := by
    rw [hchars]
    intro hnone
    have hkept : ∀ c ∈ language.repository.toList, (if c = '/' then ['_', '_'] else [c]) = [c] := by
      intro c hc
      split
      · rename_i hslash
        exact (hnone (List.mem_flatMap.mpr ⟨c, hc, by simp [hslash]⟩)).elim
      · rfl
    rw [← String.toList_inj, hchars, List.flatMap_def, List.map_congr_left hkept, ← List.flatMap_def,
      List.flatMap_singleton']
  have hrepository : language.repository ∉ ["", ".", ".."] := by
    cases language <;> decide
  refine ⟨hslash, ?_, ?_, ?_⟩
  all_goals
    intro hname
    rw [hname] at hown
    exact hrepository (hown (by decide) ▸ by decide)

/-! ## Places -/

/-- The place of a site's directory. -/
def place (site : Site) : Place :=
  Place.ofPath site.host.current site.directory

/-- The copy of a grammar's repository. -/
def copyPath (site : Site) (language : Builtin) : String :=
  Path.join site.sourcesPath (repositoryName language)

/-- The directory of a grammar in the copy of its repository. -/
def grammarPath (site : Site) (language : Builtin) : String :=
  match language.subdirectory? with
  | some name => Path.join (site.copyPath language) name
  | none => site.copyPath language

theorem ofPath_copyPath (site : Site) (language : Builtin) :
    Place.ofPath site.host.current (site.copyPath language)
      = site.place ++ ["sources", repositoryName language] := by
  have hsources : Path.IsEntry "sources" := by decide
  rw [copyPath, (isEntry_repositoryName language).ofPath_join, sourcesPath, hsources.ofPath_join,
    List.append_assoc, place]
  rfl

/-- The place of a grammar's library. -/
theorem ofPath_libraryPath (site : Site) (language : Builtin) :
    Place.ofPath site.host.current (site.libraryPath language.grammarName)
      = site.place ++ [language.libraryName] :=
  language.isEntry_libraryName.ofPath_join _ _

/-! ## Making a library -/

/-- Makes a grammar's library, without noting it. -/
def make (language : Builtin) : SiteM Unit := do
  let site ← get
  makeDirectories site.directory
  makeDirectories site.sourcesPath
  fetchRepository language (site.copyPath language)
  regenerate (site.grammarPath language)
  let after ← get
  let source := after.parserDirectory (site.grammarPath language)
  if after.contains (Path.join source "parser.c") then compile language source
  else throw (.install language.grammarName (.noParser (site.grammarPath language)))

/-- **To install a grammar** is to make its library and to note that. -/
theorem install_eq (language : Builtin) :
    install language = (do
      make language
      noteInstall language) := by
  simp only [install, make, bind_assoc]
  refine bind_congr fun site => bind_congr fun _ => bind_congr fun _ => bind_congr fun _ =>
    bind_congr fun _ => bind_congr fun after => ?_
  change (if after.contains (Path.join (after.parserDirectory (site.grammarPath language)) "parser.c") = true
    then _ else _) = _
  split
  · rfl
  · rfl

/-! ## What is left alone -/

/-- A run of a tool that making a library may take. -/
inductive InstallCall (site : Site) (language : Builtin) : Call → Prop where
  /-- the repository is cloned -/
  | clone : InstallCall site language ⟨"git", site.host.current,
      ["clone", "--depth=1", repositoryAddress language, site.copyPath language]⟩
  /-- its copy is brought up to date -/
  | pull : InstallCall site language
      ⟨"git", Place.ofPath site.host.current (site.copyPath language), ["pull", "--depth=1"]⟩
  /-- the parser is generated in the copy -/
  | generate : InstallCall site language
      ⟨"tree-sitter", Place.ofPath site.host.current (site.grammarPath language), ["generate"]⟩
  /-- the parser is compiled into the library -/
  | compile (arguments : List String) : InstallCall site language
      ⟨"cc", site.host.current, arguments ++ ["-o", site.libraryPath language.grammarName]⟩

end Site

/-- The tools of a host keep a property of its disk in certain runs. -/
def Host.Keep (host : Host) (calls : Call → Prop) (property : Disk → Prop) : Prop :=
  ∀ call tool, calls call → host.tools call.tool = some tool →
    ∀ earlier disk, property disk → property (tool earlier call disk).disk

/-- The place in which a tool is started. -/
theorem Host.eq_of_startDirectory {host : Host} {path? : Option String} {directory : Place}
    (h : host.startDirectory path? = .ok directory) :
    directory = path?.elim host.current (Place.ofPath host.current) := by
  rcases path? with _ | path
  · exact (Except.ok.inj h).symm
  · obtain ⟨place, hplace, h⟩ := ok_of_bind h
    split at h
    · obtain rfl := Except.ok.inj h
      exact Disk.eq_ofPath_of_locate hplace
    · cases h

namespace Site

/-- A site with the same directory as another, on a host with the same tools at the same time. -/
structure SameSetting (start site : Site) : Prop where
  /-- the directory is the same -/
  directory : site.directory = start.directory
  /-- so is the current directory -/
  current : site.host.current = start.host.current
  /-- so are the tools -/
  tools : site.host.tools = start.host.tools
  /-- so is the time -/
  now : site.host.now = start.host.now

/-- A site at which there has been work since it was another: nothing but its disk and the runs on record
may have changed, and the disk has a property. -/
structure Since (start : Site) (property : Disk → Prop) (site : Site) : Prop
    extends SameSetting start site where
  /-- the record is the same -/
  record : site.record = start.record
  /-- the disk has the property -/
  disk : property site.host.disk

variable {start : Site} {property : Disk → Prop} {language : Builtin}

theorem SameSetting.refl (site : Site) : SameSetting site site :=
  ⟨rfl, rfl, rfl, rfl⟩

theorem sameSetting_withDisk (site : Site) (disk : Disk) : SameSetting site (site.withDisk disk) :=
  ⟨rfl, rfl, rfl, rfl⟩

theorem SameSetting.trans {between after : Site} (h₁ : SameSetting start between)
    (h₂ : SameSetting between after) : SameSetting start after :=
  ⟨h₂.directory.trans h₁.directory, h₂.current.trans h₁.current, h₂.tools.trans h₁.tools,
    h₂.now.trans h₁.now⟩

/-- In the same setting the directory is at the same place, -/
theorem SameSetting.place {site : Site} (h : SameSetting start site) : site.place = start.place := by
  rw [Site.place, h.directory, h.current, Site.place]

/-- a grammar's library has the same path, -/
theorem SameSetting.libraryPath {site : Site} (h : SameSetting start site) (name : String) :
    site.libraryPath name = start.libraryPath name := by
  rw [Site.libraryPath, h.directory, Site.libraryPath]

/-- the copy of its repository has the same path, -/
theorem SameSetting.copyPath {site : Site} (h : SameSetting start site) (language : Builtin) :
    site.copyPath language = start.copyPath language := by
  rw [Site.copyPath, sourcesPath, h.directory, Site.copyPath, sourcesPath]

/-- and so has its directory in there. -/
theorem SameSetting.grammarPath {site : Site} (h : SameSetting start site) (language : Builtin) :
    site.grammarPath language = start.grammarPath language := by
  rw [Site.grammarPath, h.copyPath, Site.grammarPath]

theorem Since.refl (h : property start.host.disk) : Since start property start :=
  { SameSetting.refl start with record := rfl, disk := h }

theorem Since.withDisk {site : Site} {disk : Disk} (h : Since start property site) (hdisk : property disk) :
    Since start property (site.withDisk disk) :=
  { h with disk := hdisk }

theorem keeps_makeDirectories
    (hspares : ∀ disk after, (∀ place, disk.SparedAt after place) → property disk → property after) (path : String) :
    Keeps (Since start property) (makeDirectories path) := by
  intro site h
  unfold makeDirectories
  rcases hmake : site.host.disk.makeDirectories site.host.current path with fault | disk
  · exact h
  · exact h.withDisk (hspares _ _ (Disk.sparedAt_of_makeDirectories hmake) h.disk)

theorem keeps_runTool {calls : Call → Prop} (hkeep : start.host.Keep calls property) {tool : String}
    {path? : Option String} {arguments : List String}
    (hcall : calls ⟨tool, path?.elim start.host.current (Place.ofPath start.host.current), arguments⟩) :
    Keeps (Since start property) (runTool tool path? arguments) := by
  intro site h
  simp only [runTool, Host.run]
  rcases hdirectory : site.host.startDirectory path? with fault | directory
  · exact h
  · obtain rfl := Host.eq_of_startDirectory hdirectory
    rcases htool : site.host.tools tool with _ | program
    · exact h
    · rw [← h.current] at hcall
      rw [h.tools] at htool
      exact { h with disk := hkeep _ program hcall htool _ _ h.disk }

/-- How a tool ended decides whether work goes on and does nothing else. -/
theorem keeps_ending (notStarted : FileFault → EnsureFault) (failed : ExitStatus → List UInt8 → EnsureFault)
    (outcome : Except FileFault (ExitStatus × List UInt8)) :
    Keeps (Since start property) (match outcome with
      | .error fault => throw (notStarted fault)
      | .ok (status, errors) =>
        if status.isSuccess then pure () else throw (failed status errors) : SiteM Unit) := by
  split
  · exact keeps_throw _
  · split
    · exact keeps_pure _
    · exact keeps_throw _

variable (hkeep : start.host.Keep (start.InstallCall language) property)
include hkeep

theorem keeps_fetchRepository :
    Keeps (Since start property) (fetchRepository language (start.copyPath language)) := by
  refine keeps_get_bind fun site h => ?_
  dsimp only
  split
  · refine (keeps_runTool hkeep .pull).bind fun outcome => ?_
    exact keeps_ending _ _ outcome
  · refine (keeps_runTool hkeep .clone).bind fun outcome => ?_
    exact keeps_ending _ _ outcome

theorem keeps_regenerate : Keeps (Since start property) (regenerate (start.grammarPath language)) :=
  Keeps.bind (keeps_runTool hkeep .generate) fun _ => keeps_pure _

theorem keeps_compile (source : String) : Keeps (Since start property) (compile language source) := by
  refine keeps_get_bind fun site h => ?_
  rw [h.libraryPath]
  refine (keeps_runTool hkeep (.compile _)).bind fun outcome => ?_
  exact keeps_ending _ _ outcome

/-- **Making a library keeps what the tools keep**, wherever it ends. -/
theorem keeps_make (hspares : ∀ disk after, (∀ place, disk.SparedAt after place) → property disk → property after) :
    Keeps (Since start property) (make language) := by
  refine keeps_get_bind fun site h => ?_
  rw [h.copyPath, h.grammarPath]
  refine (keeps_makeDirectories hspares _).bind fun _ => ?_
  refine (keeps_makeDirectories hspares _).bind fun _ => ?_
  refine (keeps_fetchRepository hkeep).bind fun _ => ?_
  refine (keeps_regenerate hkeep).bind fun _ => ?_
  refine keeps_get_bind fun after _ => ?_
  dsimp only
  split
  · exact keeps_compile hkeep _
  · exact keeps_throw _

omit hkeep

/-- Making a library changes nothing but the disk, however it ends. -/
theorem since_make (start : Site) (language : Builtin) :
    Since start (fun _ => True) (stateAfter (make language start)) :=
  keeps_make (fun _ _ _ _ _ _ => id) (fun _ _ _ => id) start (Since.refl trivial)

theorem since_of_make {between : Site} (h : make language start = .ok () between) :
    Since start (fun _ => True) between := by
  have hsince := since_make start language
  rwa [h] at hsince

/-- The compiler ran for a grammar's library and ended well, and this is the disk it left. -/
def Compiled (site : Site) (language : Builtin) (after : Disk) : Prop :=
  ∃ compiler earlier arguments disk, site.host.tools "cc" = some compiler ∧
    let run := compiler earlier ⟨"cc", site.host.current,
      arguments ++ ["-o", site.libraryPath language.grammarName]⟩ disk
    run.status.isSuccess = true ∧ after = run.disk

theorem compiled_of_compile {site after : Site} {source : String}
    (h : compile language source site = .ok () after) : site.Compiled language after.host.disk := by
  obtain ⟨_, _, hget, h⟩ := done_of_bind h
  cases hget
  obtain ⟨outcome, between, hrun, h⟩ := done_of_bind h
  rcases htool : site.host.tools "cc" with _ | compiler
  · simp only [runTool, Host.run, Host.startDirectory, htool] at hrun
    cases hrun
    cases h
  · simp only [runTool, Host.run, Host.startDirectory, htool] at hrun
    cases hrun
    dsimp only at h
    split at h
    · rename_i hsuccess
      cases h
      exact ⟨compiler, _, _, _, htool, hsuccess, rfl⟩
    · cases h

/-- **A library that was made was compiled.** -/
theorem compiled_of_make {after : Site} (h : make language start = .ok () after) :
    start.Compiled language after.host.disk := by
  have hspares : ∀ disk after : Disk, (∀ place, disk.SparedAt after place) → True → True := fun _ _ _ => id
  have hkeep : start.host.Keep (start.InstallCall language) fun _ => True :=
    fun _ _ _ _ _ _ => id
  obtain ⟨_, _, hget, h⟩ := done_of_bind h
  cases hget
  obtain ⟨_, first, hfirst, h⟩ := done_of_bind h
  obtain ⟨_, second, hsecond, h⟩ := done_of_bind h
  obtain ⟨_, third, hthird, h⟩ := done_of_bind h
  obtain ⟨_, fourth, hfourth, h⟩ := done_of_bind h
  obtain ⟨_, _, hget, h⟩ := done_of_bind h
  cases hget
  have hsince := (keeps_regenerate hkeep).done hfourth <| (keeps_fetchRepository hkeep).done hthird <|
    (keeps_makeDirectories hspares _).done hsecond <| (keeps_makeDirectories hspares _).done hfirst <|
    Since.refl trivial
  dsimp only at h
  split at h
  · have hcompiled := compiled_of_compile h
    rwa [Compiled, hsince.libraryPath, hsince.current, hsince.tools] at hcompiled
  · cases h

/-! ## Making sure -/

/-- A site with a grammar's install on record. -/
def recorded (site : Site) (language : Builtin) : Site :=
  { site with record := site.record.recordInstall language.grammarName site.host.now }

/-- A site at which a grammar's install was noted: on record, and in the directory if that could be saved. -/
def noted (site : Site) (language : Builtin) : Site :=
  (site.recorded language).tryDisk
    (saveRecord site.host.disk site.host.current site.directory (site.recorded language).record)

/-- A site at which a grammar's library can be made: without the old one, if that is outdated and gives way. -/
def cleared (site : Site) (language : Builtin) : Site :=
  if site.isOutdated language then site.discardLibrary language else site

/-- What an install comes to. -/
def installResult (site : Site) (language : Builtin) : InstallResult :=
  if site.isOutdated language then .reinstalled else .installed

theorem sameSetting_tryDisk (site : Site) (change : Except FileFault Disk) :
    SameSetting site (site.tryDisk change) := by
  rcases change with fault | disk
  · exact .refl site
  · exact sameSetting_withDisk site disk

theorem record_tryDisk (site : Site) (change : Except FileFault Disk) :
    (site.tryDisk change).record = site.record := by
  rcases change with fault | disk
  · rfl
  · rfl

theorem sameSetting_noted (site : Site) (language : Builtin) : SameSetting site (site.noted language) :=
  have hrecorded : SameSetting site (site.recorded language) := ⟨rfl, rfl, rfl, rfl⟩
  hrecorded.trans (sameSetting_tryDisk _ _)

theorem record_noted (site : Site) (language : Builtin) :
    (site.noted language).record = site.record.recordInstall language.grammarName site.host.now :=
  record_tryDisk _ _

theorem sameSetting_cleared (site : Site) (language : Builtin) :
    SameSetting site (site.cleared language) := by
  unfold cleared
  split
  · exact sameSetting_tryDisk _ _
  · exact .refl site

theorem record_cleared (site : Site) (language : Builtin) : (site.cleared language).record = site.record := by
  unfold cleared
  split
  · exact record_tryDisk _ _
  · rfl

/-- Of the disk, only a grammar's own library is cleared away. -/
theorem get?_cleared (site : Site) (language : Builtin) {other : Place}
    (hne : other ≠ site.place ++ [language.libraryName]) :
    (site.cleared language).host.disk.get? other = site.host.disk.get? other := by
  unfold cleared
  split
  · simp only [discardLibrary, tryDisk]
    split
    · rename_i hremove
      exact (Disk.get?_of_removeFile language.isEntry_libraryName hremove other).trans (if_neg hne)
    · rfl
  · rfl

theorem install_apply (site : Site) (language : Builtin) :
    install language site = match make language site with
      | .ok _ between => .ok () (between.noted language)
      | .error fault after => .error fault after := by
  rw [install_eq]
  simp only [bind, EStateM.bind]
  rcases make language site with ⟨_, between⟩ | ⟨fault, after⟩
  · rfl
  · rfl

/-- **Making sure of a grammar** leaves a usable library as it is; another one is made, and then noted. -/
theorem ensure_eq (site : Site) (language : Builtin) :
    ensure language site = if site.isUsable language then .ok .alreadyInstalled site
      else match make language (site.cleared language) with
        | .ok _ between => .ok (site.installResult language) (between.noted language)
        | .error fault after => .error fault after := by
  unfold ensure
  rw [get_bind_apply]
  rcases ho : site.isOutdated language with _ | _
  · rcases hi : site.isInstalled language with _ | _
    · simp only [isUsable, cleared, installResult, ho, hi, bind, EStateM.bind, install_apply, Bool.false_and,
        Bool.false_eq_true, if_false]
      rcases make language site with ⟨_, between⟩ | ⟨fault, after⟩
      · rfl
      · rfl
    · simp only [isUsable, ho, hi]
      rfl
  · simp only [isUsable, cleared, installResult, ho, Bool.not_true, Bool.and_false, Bool.false_eq_true, if_false,
      if_true]
    rw [set_bind_apply]
    simp only [bind, EStateM.bind, install_apply]
    rcases make language (site.discardLibrary language) with ⟨_, between⟩ | ⟨fault, after⟩
    · rfl
    · rfl

/-- What making sure of a grammar comes to: nothing has to be done, or the library is made and noted, or that
fails. -/
theorem ensure_cases (site : Site) (language : Builtin) :
    (site.isUsable language = true ∧ ensure language site = .ok .alreadyInstalled site) ∨
      (∃ between, make language (site.cleared language) = .ok () between ∧
        ensure language site = .ok (site.installResult language) (between.noted language)) ∨
      ∃ fault after, make language (site.cleared language) = .error fault after ∧
        ensure language site = .error fault after := by
  rw [ensure_eq]
  rcases husable : site.isUsable language with _ | _
  · rcases make language (site.cleared language) with ⟨_, between⟩ | ⟨fault, after⟩
    · exact Or.inr (Or.inl ⟨between, rfl, rfl⟩)
    · exact Or.inr (Or.inr ⟨fault, after, rfl, rfl⟩)
  · exact Or.inl ⟨rfl, rfl⟩

/-- A grammar that was made sure of was usable, or its library was made and noted. -/
theorem ensure_ok_cases {site after : Site} {language : Builtin} {result : InstallResult}
    (h : ensure language site = .ok result after) :
    (site.isUsable language = true ∧ after = site) ∨ ∃ between,
      make language (site.cleared language) = .ok () between ∧ after = between.noted language := by
  rcases ensure_cases site language with ⟨husable, hnone⟩ | ⟨between, hmake, hdone⟩ | ⟨_, _, _, hfault⟩
  · cases hnone.symm.trans h
    exact Or.inl ⟨husable, rfl⟩
  · cases hdone.symm.trans h
    exact Or.inr ⟨between, hmake, rfl⟩
  · cases hfault.symm.trans h

theorem sameSetting_ensure (site : Site) (language : Builtin) :
    SameSetting site (stateAfter (ensure language site)) := by
  have hcleared := sameSetting_cleared site language
  have hmade := hcleared.trans (since_make (site.cleared language) language).toSameSetting
  rcases ensure_cases site language with ⟨-, hnone⟩ | ⟨between, hmake, hdone⟩ | ⟨fault, after, hmake, hfault⟩
  · rw [hnone]
    exact .refl site
  · rw [hmake] at hmade
    rw [hdone]
    exact hmade.trans (sameSetting_noted between language)
  · rw [hmake] at hmade
    rw [hfault]
    exact hmade

theorem sameSetting_of_ensure {site after : Site} {language : Builtin} {result : InstallResult}
    (h : ensure language site = .ok result after) : SameSetting site after := by
  have hsetting := sameSetting_ensure site language
  rwa [h] at hsetting

theorem retainedIn_of_saveRecord {disk after : Disk} {current : Place} {directory : String}
    {record : InstallRecord} (h : saveRecord disk current directory record = .ok after) :
    disk.RetainedIn after := by
  obtain ⟨between, hmake, h⟩ := ok_of_bind h
  exact (Disk.retainedIn_of_sparedAt (Disk.sparedAt_of_makeDirectories hmake)).trans
    (Disk.retainedIn_of_writeText (by decide) h)

/-- Noting an install takes nothing away. -/
theorem retainedIn_noted (site : Site) (language : Builtin) :
    site.host.disk.RetainedIn (site.noted language).host.disk := by
  simp only [noted, tryDisk]
  split
  · rename_i hsave
    exact retainedIn_of_saveRecord hsave
  · exact Disk.retainedIn_of_sparedAt (.refl _)

end Site

end CodeMarkup
