import CodeMarkup.Proofs.Disk.Spared
import CodeMarkup.Proofs.Install.Course
import CodeMarkup.Proofs.Install.Sharing
import CodeMarkup.Proofs.Install.Usable

/-!
# Installs keep to their own grammar

If every tool keeps to the places that its runs may work on (`Site.Confined`), a course of an install leaves all other
places as they are (`get?_of_course`). The installer itself makes directories, removes the library that it is to make
and writes the record. So making sure of a grammar spares the libraries of all others, however it ends, and of the
record it changes the grammar's own note only, and that only at the end of an install that went well
(`ensure_keeps_to_grammar`).
-/

namespace CodeMarkup

namespace Site

variable {site after ready : Site} {language other : Builtin} {place : Place} {attempts : List Attempt}
  {fault? : Option InstallFault} {made : Host}

/-! ## Confined tools -/

/-- The places that the path of the directory leads through, the directory's own among them. -/
def way (site : Site) : List Place :=
  Disk.way (Disk.origin site.host.current site.directory) (Path.names site.directory)

/-- A run may touch a place: it may take away what is there, and the path of the directory does not lead through it.
The latter only says something of a path that goes back up (`not_mayClear_of_mem_way`). -/
def MayTouch (site : Site) (call : Call) (place : Place) : Prop :=
  call.MayClear site.place place ∧ place ∉ site.way

/-- Tools that write only where they work: in the runs of an install they change nothing, neither what stands there nor
that nothing does, at the places that they may not touch. To clone and to compile are done in the current directory, and
where that has the whole directory of grammars in it, these two may touch nothing in the latter but their targets, the
copy and the library (`Call.MayClear`). -/
def Confined (site : Site) : Prop :=
  ∀ language place found, site.host.Keep (fun call => site.InstallCall language call ∧ ¬ site.MayTouch call place)
    fun disk => disk.get? place = found

/-- A compiler that changes nothing when it fails. -/
def QuietCompiler (site : Site) : Prop :=
  ∀ compiler, site.host.tools "cc" = some compiler → ∀ earlier call disk,
    let run := compiler earlier call disk
    run.status.isSuccess = false → ∀ place, run.disk.get? place = disk.get? place

/-- The runs of an install depend on where the directory is. -/
theorem InstallCall.of_eq {call : Call} (h : after.InstallCall language call)
    (hdirectory : after.directory = site.directory) (hcurrent : after.host.current = site.host.current) :
    site.InstallCall language call := by
  have hcopy : after.copyPath language = site.copyPath language := by
    rw [copyPath, sourcesPath, hdirectory, copyPath, sourcesPath]
  have hgrammar : after.grammarPath language = site.grammarPath language := by
    rw [grammarPath, hcopy, grammarPath]
  cases h with
  | clone =>
    rw [hcopy, hcurrent]
    exact .clone
  | pull =>
    rw [hcopy, hcurrent]
    exact .pull
  | generate =>
    rw [hgrammar, hcurrent]
    exact .generate
  | compile arguments =>
    rw [libraryPath, hdirectory, hcurrent]
    exact .compile arguments

theorem SameSetting.confined (h : SameSetting site after) (hconfined : site.Confined) : after.Confined := by
  rintro language place found call tool ⟨hcall, hplace⟩ htool
  rw [MayTouch, h.place, way, h.current, h.directory] at hplace
  rw [h.tools] at htool
  exact hconfined language place found call tool ⟨hcall.of_eq h.directory h.current, hplace⟩ htool

/-- A run of an install that is not the compiler's may touch nothing of what the directory has in it. -/
theorem not_mayTouch_of_tool_ne {call : Call} (hcall : site.InstallCall language call) (htool : call.tool ≠ "cc")
    (name : String) : ¬ site.MayTouch call (site.place ++ [name]) :=
  fun hmay => htool (compiles_of_mayClear hcall hmay.1).1

/-- No run of an install may touch another entry of the directory than the library that it makes. -/
theorem not_mayTouch_entry (site : Site) {name : String} (hname : name ≠ language.libraryName) :
    ∀ call, site.InstallCall language call → ¬ site.MayTouch call (site.place ++ [name]) :=
  fun _ hcall hmay => hname (compiles_of_mayClear hcall hmay.1).2

/-- A path that never goes back up leads through places above the directory only, where no run of an install may take
anything away. -/
theorem not_mayClear_of_mem_way {call : Call} (hup : ".." ∉ Path.names site.directory) (hplace : place ∈ site.way)
    (hcall : site.InstallCall language call) : ¬ call.MayClear site.place place := by
  have habove : place <+: site.place := Disk.prefix_of_mem_way hup hplace
  rintro (⟨target, htarget, hbelow⟩ | ⟨hbelow, -, hnot⟩)
  · have hlength := (hbelow.trans habove).length_le
    rcases target_of_installCall hcall htarget with ⟨-, rfl⟩ | ⟨-, rfl⟩
    all_goals
      rw [List.length_append, List.length_cons] at hlength
      omega
  · exact hnot (hbelow.trans habove)

/-! ## Courses -/

/-- An attempt is of no consequence at a place: no tool is started, or it may not touch the place, or it is a
compiler that fails and does so quietly. -/
def Idle (site : Site) (place : Place) (attempt : Attempt) : Prop :=
  attempt.started = false ∨ ¬ site.MayTouch (attempt.call site.host.current) place ∨
    attempt.tool = "cc" ∧ attempt.succeeded = false ∧ site.QuietCompiler

theorem get?_of_idle {attempt : Attempt} (hconfined : site.Confined)
    (hcall : site.InstallCall language (attempt.call site.host.current)) (hidle : site.Idle place attempt)
    {before next : Host} (hsame : site.host.SameTools before)
    (hrun : before.run attempt.tool attempt.path? attempt.arguments = (next, attempt.outcome)) :
    next.disk.get? place = before.disk.get? place := by
  rcases before.run_cases attempt.tool attempt.path? attempt.arguments with ⟨fault, hnone⟩ | ⟨program, htool, hran⟩
  · obtain ⟨rfl, -⟩ := Prod.mk.inj (hnone.symm.trans hrun)
    rfl
  · obtain ⟨rfl, houtcome⟩ := Prod.mk.inj (hran.symm.trans hrun)
    rw [hsame.tools] at htool
    rw [← hsame.current] at hcall
    rcases hidle with hstarted | hplace | ⟨hcc, hfailed, hquiet⟩
    · rw [Attempt.started, ← houtcome] at hstarted
      cases hstarted
    · rw [← hsame.current] at hplace
      exact hconfined language place _ _ program ⟨hcall, hplace⟩ htool _ _ rfl
    · rw [Attempt.succeeded, ← houtcome] at hfailed
      exact hquiet program (hcc ▸ htool) _ _ _ hfailed place

/-- **A course leaves a place as it is** if none of its attempts is of consequence there. -/
theorem get?_of_course (hconfined : ready.Confined) (hcourse : ready.Course language attempts fault? made)
    (hidle : ∀ attempt ∈ attempts, ready.Idle place attempt) :
    made.disk.get? place = ready.host.disk.get? place := by
  have hkeep := hcourse.tries.keep (fun host => host.disk.get? place = ready.host.disk.get? place)
    (fun attempt hmem before next hsame hbefore hrun =>
      (get?_of_idle hconfined (hcourse.installCall attempt hmem) (hidle attempt hmem) hsame hrun).trans hbefore) rfl
  exact hkeep.2

/-- A course changes nothing but the host, whose tools stay. -/
theorem sameSetting_of_course (hcourse : ready.Course language attempts fault? made) :
    SameSetting ready (ready.withHost made) := by
  have hsame := (hcourse.tries.keep (fun _ => True) (fun _ _ _ _ _ _ _ => trivial) trivial).1
  exact ⟨rfl, hsame.current, hsame.tools, hsame.now⟩

/-! ## Preparing -/

theorem exists_tryDisk (site : Site) (change : Except FileFault Disk) :
    ∃ disk, site.tryDisk change = site.withDisk disk := by
  rcases change with fault | disk
  · exact ⟨site.host.disk, rfl⟩
  · exact ⟨disk, rfl⟩

/-- Clearing the way for a library changes nothing but the disk, -/
theorem exists_cleared (site : Site) (language : Builtin) : ∃ disk, site.cleared language = site.withDisk disk := by
  unfold cleared
  split
  · exact exists_tryDisk _ _
  · exact ⟨site.host.disk, rfl⟩

/-- and so does making the directories, which spares every place, however it ends. -/
theorem exists_prepare (site : Site) : ∃ disk, stateAfter (prepare site) = site.withDisk disk ∧
    ∀ place, site.host.disk.SparedAt disk place := by
  rw [prepare, get_bind_apply]
  rcases makeDirectories_cases site.directory site with ⟨first, hfirst, hmade⟩ | ⟨fault, hfault⟩
  · rw [bind_apply_of_ok hmade]
    have hspared := Disk.sparedAt_of_makeDirectories hfirst
    rcases makeDirectories_cases site.sourcesPath (site.withDisk first) with ⟨second, hsecond, hmade⟩ | ⟨fault, hfault⟩
    · rw [hmade]
      exact ⟨second, rfl, fun place => (hspared place).trans (Disk.sparedAt_of_makeDirectories hsecond place)⟩
    · rw [hfault]
      exact ⟨first, rfl, hspared⟩
  · rw [bind_apply_of_error hfault]
    exact ⟨site.host.disk, rfl, fun place => .refl _ place⟩

/-- Before a course nothing but the disk has changed, and since the library was cleared away every place was spared. -/
theorem exists_ready (site : Site) (language : Builtin) : ∃ disk,
    stateAfter (prepare (site.cleared language)) = site.withDisk disk ∧
      ∀ place, (site.cleared language).host.disk.SparedAt disk place := by
  obtain ⟨cleared, hcleared⟩ := exists_cleared site language
  obtain ⟨disk, hprepare, hspared⟩ := exists_prepare (site.cleared language)
  refine ⟨disk, ?_, hspared⟩
  rw [hprepare, hcleared]
  rfl

/-! ## Making sure -/

/-- A site at which there was work on a grammar that is not noted yet: in memory nothing has changed, and on the disk,
once the way for the library was cleared, nothing that the tools may not touch, if they are confined. -/
structure Worked (site made : Site) (language : Builtin) : Prop where
  /-- the setting is the same -/
  setting : SameSetting site made
  /-- so is the record -/
  record : made.record = site.record
  /-- places are spared that no tool may touch -/
  spares : site.Confined → ∀ place, (∀ call, site.InstallCall language call → ¬ site.MayTouch call place) →
    (site.cleared language).host.disk.SparedAt made.host.disk place

theorem worked_of_isUsable (h : site.isUsable language = true) : site.Worked site language := by
  have hcleared : site.cleared language = site := by
    rw [isUsable, Bool.and_eq_true, Bool.not_eq_true'] at h
    rw [cleared, h.2, if_neg Bool.false_ne_true]
  refine ⟨.refl site, rfl, fun _ place _ => ?_⟩
  rw [hcleared]
  exact .refl _ place

theorem worked_of_course {disk : Disk} (hdisk : ∀ place, (site.cleared language).host.disk.SparedAt disk place)
    (hcourse : (site.withDisk disk).Course language attempts fault? made) :
    site.Worked ((site.withDisk disk).withHost made) language := by
  have hready := sameSetting_withDisk site disk
  refine ⟨hready.trans (sameSetting_of_course hcourse), rfl, fun hconfined place hplace => ?_⟩
  refine (hdisk place).trans (Or.inl ?_)
  exact get?_of_course (hready.confined hconfined) hcourse fun attempt hmem =>
    Or.inr (Or.inl (hplace _ ((hcourse.installCall attempt hmem).of_eq rfl rfl)))

/-- **Making sure of a grammar** works on it and notes that only if the work went well. -/
theorem ensure_worked_cases (site : Site) (language : Builtin) : ∃ made, site.Worked made language ∧
    (ensure language site = .ok .alreadyInstalled made ∨
      ensure language site = .ok (site.installResult language) (made.noted language) ∨
      ∃ fault, ensure language site = .error fault made) := by
  obtain ⟨disk, hready, hspared⟩ := exists_ready site language
  rcases ensure_course_cases site language with
    ⟨husable, hnone⟩ | ⟨-, fault, after, hprepare, hfault⟩ |
    ⟨-, ready, attempts, fault?, made, hprepare, hcourse, hdone⟩
  · exact ⟨site, worked_of_isUsable husable, Or.inl hnone⟩
  · rw [hprepare] at hready
    obtain rfl : after = site.withDisk disk := hready
    exact ⟨site.withDisk disk, ⟨sameSetting_withDisk site disk, rfl, fun _ place _ => hspared place⟩,
      Or.inr (Or.inr ⟨fault, hfault⟩)⟩
  · rw [hprepare] at hready
    obtain rfl : ready = site.withDisk disk := hready
    refine ⟨_, worked_of_course hspared hcourse, Or.inr ?_⟩
    rcases fault? with _ | fault
    · exact Or.inl hdone
    · exact Or.inr ⟨_, hdone⟩

/-- What holds once there was work on a grammar, and still holds when this is noted, holds after a call. -/
theorem ensure_of_worked (property : Site → Prop) (hworked : ∀ made, site.Worked made language → property made)
    (hnoted : ∀ made, site.Worked made language → property made → property (made.noted language)) :
    property (stateAfter (ensure language site)) := by
  obtain ⟨made, hmade, hnone | hdone | ⟨fault, hfault⟩⟩ := ensure_worked_cases site language
  · rw [hnone]
    exact hworked made hmade
  · rw [hdone]
    exact hnoted made hmade (hworked made hmade)
  · rw [hfault]
    exact hworked made hmade

/-! ## The record -/

/-- A call that is done has noted the grammar, unless there was nothing to do. -/
theorem record_of_ensure_ok {result : InstallResult} (h : ensure language site = .ok result after) :
    after.record = if result = .alreadyInstalled then site.record
      else site.record.recordInstall language.grammarName site.host.now := by
  obtain ⟨made, hmade, hnone | hdone | ⟨fault, hfault⟩⟩ := ensure_worked_cases site language
  · cases hnone.symm.trans h
    exact hmade.record
  · cases hdone.symm.trans h
    rw [if_neg (installResult_ne site language), record_noted, hmade.record, hmade.setting.now]
  · cases hfault.symm.trans h

/-- A call that fails leaves the record as it was. -/
theorem record_of_ensure_error {fault : EnsureFault} (h : ensure language site = .error fault after) :
    after.record = site.record := by
  obtain ⟨made, hmade, hnone | hdone | ⟨fault, hfault⟩⟩ := ensure_worked_cases site language
  · cases hnone.symm.trans h
  · cases hdone.symm.trans h
  · cases hfault.symm.trans h
    exact hmade.record

/-- A call leaves the notes on all other grammars. -/
theorem note?_ensure (site : Site) {name : String} (hname : name ≠ language.grammarName) :
    (stateAfter (ensure language site)).record.note? name = site.record.note? name := by
  refine ensure_of_worked (·.record.note? name = site.record.note? name)
    (fun made hmade => congrArg (·.note? name) hmade.record) fun made _ hnote => ?_
  rw [record_noted, InstallRecord.recordInstall, InstallRecord.note?_set, if_neg hname, hnote]

/-! ## The libraries -/

/-- Work on a grammar spares all other entries of the directory, the libraries of all others among them, -/
theorem Worked.entry {made : Site} (h : site.Worked made language) (hconfined : site.Confined) {name : String}
    (hname : name ≠ language.libraryName) : site.host.disk.SparedAt made.host.disk (site.place ++ [name]) := by
  have hspared := h.spares hconfined _ (not_mayTouch_entry site hname)
  rwa [Disk.SparedAt, get?_cleared] at hspared
  simpa using hname

theorem Worked.library {made : Site} (h : site.Worked made language) (hconfined : site.Confined)
    (hne : other ≠ language) : site.host.disk.SparedAt made.host.disk (site.place ++ [other.libraryName]) :=
  h.entry hconfined fun hname => hne (Builtin.libraryName_injective hname)

/-- noting an install spares every place but that of the record's file, -/
theorem sparedAt_noted (site : Site) (language : Builtin) (hne : place ≠ recordPlace site.place) :
    site.host.disk.SparedAt (site.noted language).host.disk place := by
  simp only [noted, tryDisk]
  split
  · rename_i hsave
    obtain ⟨between, hmake, hwrite⟩ := ok_of_bind hsave
    refine (Disk.sparedAt_of_makeDirectories hmake place).trans (Or.inl ?_)
    exact (Disk.get?_of_writeText (by decide) hwrite place).trans (if_neg hne)
  · exact .refl _ _

/-- and so a call spares the libraries of all others. -/
theorem library_ensure (hconfined : site.Confined) (hne : other ≠ language) :
    site.host.disk.SparedAt (stateAfter (ensure language site)).host.disk (site.place ++ [other.libraryName]) := by
  refine ensure_of_worked (fun made => site.host.disk.SparedAt made.host.disk (site.place ++ [other.libraryName]))
    (fun made hmade => hmade.library hconfined hne) fun made hmade hspared => ?_
  refine hspared.trans (sparedAt_noted made language ?_)
  rw [hmade.setting.place]
  exact (recordPlace_ne_library site.place other).symm

/-! ## The course of a call -/

theorem calls_noted (site : Site) (language : Builtin) : (site.noted language).host.calls = site.host.calls := by
  obtain ⟨disk, hnoted⟩ := exists_tryDisk (site.recorded language)
    (saveRecord site.host.disk site.host.current site.directory (site.recorded language).record)
  rw [noted, hnoted]
  rfl

/-- Once its directories are there, a call for a grammar that is not usable takes a course, and puts the runs of that on
record. -/
theorem course_of_ensure (husable : site.isUsable language = false)
    (hprepare : prepare (site.cleared language) = .ok () ready) :
    ∃ attempts fault? made, ready.Course language attempts fault? made ∧
      (stateAfter (ensure language site)).host.calls
        = ((attempts.filter Attempt.started).map (·.call site.host.current)).reverse ++ site.host.calls ∧
      ensure language site = match fault? with
        | none => .ok (site.installResult language) ((ready.withHost made).noted language)
        | some fault => .error (.install language.grammarName fault) (ready.withHost made) := by
  rcases ensure_course_cases site language with
    ⟨husable', -⟩ | ⟨-, fault, after, hfails, -⟩ | ⟨-, ready', attempts, fault?, made, hready', hcourse, hensure⟩
  · rw [husable] at husable'
    cases husable'
  · cases hprepare.symm.trans hfails
  · cases hprepare.symm.trans hready'
    obtain ⟨disk, hready, -⟩ := exists_ready site language
    rw [hprepare] at hready
    obtain rfl : ready = site.withDisk disk := hready
    have hcalls : made.calls
        = ((attempts.filter Attempt.started).map (·.call site.host.current)).reverse ++ site.host.calls :=
      hcourse.tries.calls
    refine ⟨attempts, fault?, made, hcourse, ?_, hensure⟩
    rw [← hcalls, hensure]
    rcases fault? with _ | fault
    · exact calls_noted _ _
    · rfl

/-- **Installs keep to their own grammar.** Once a grammar is found not to be usable and its directories are there, the
install takes its course: the tool that fetches the repository is tried first and once, and there is more only if it
ended well; the parser is generated at most once, and compiled at most once; the runs put on record are those of the
tools that were started; and the install is done, and noted, iff the compiler ended well, while any other end is
reported. So a failure leaves the record in memory as it was. However it ends, the notes on all other grammars stay, and
so do their libraries, if the tools are confined. -/
theorem ensure_keeps_to_grammar (site : Site) (language : Builtin) :
    (∀ ready, site.isUsable language = false → prepare (site.cleared language) = .ok () ready →
      ∃ attempts fault? made, ready.Course language attempts fault? made ∧
        attempts ≠ [] ∧ attempts.map Attempt.tool <+: ["git", "tree-sitter", "cc"] ∧
        (∀ fetch later, attempts = fetch :: later → (later ≠ [] ↔ fetch.succeeded = true)) ∧
        ((∃ compile ∈ attempts, compile.tool = "cc" ∧ compile.succeeded = true) ↔ fault? = none) ∧
        (stateAfter (ensure language site)).host.calls
          = ((attempts.filter Attempt.started).map (·.call site.host.current)).reverse ++ site.host.calls ∧
        ensure language site = match fault? with
          | none => .ok (site.installResult language) ((ready.withHost made).noted language)
          | some fault => .error (.install language.grammarName fault) (ready.withHost made)) ∧
    (∀ result after, ensure language site = .ok result after → after.record =
      if result = .alreadyInstalled then site.record
      else site.record.recordInstall language.grammarName site.host.now) ∧
    (∀ fault after, ensure language site = .error fault after → after.record = site.record) ∧
    (∀ name, name ≠ language.grammarName →
      (stateAfter (ensure language site)).record.note? name = site.record.note? name) ∧
    (site.Confined → ∀ other, other ≠ language →
      site.host.disk.SparedAt (stateAfter (ensure language site)).host.disk (site.place ++ [other.libraryName])) := by
  refine ⟨fun ready husable hprepare => ?_, fun _ _ => record_of_ensure_ok, fun _ _ => record_of_ensure_error,
    fun _ => note?_ensure site, fun hconfined _ => library_ensure hconfined⟩
  obtain ⟨attempts, fault?, made, hcourse, hcalls, hensure⟩ := course_of_ensure husable hprepare
  refine ⟨attempts, fault?, made, hcourse, hcourse.tools.1, hcourse.tools.2, ?_, hcourse.compiled_iff, hcalls, hensure⟩
  rintro fetch later rfl
  exact hcourse.later_ne_nil_iff

/-! ## A host with confined tools -/

/-- A compiler that lays a library down where its output belongs, and fails if that cannot be reached. -/
def layingCompiler : Tool := fun _ call disk =>
  match call.target? with
  | none => ⟨disk, .code 1, []⟩
  | some target =>
    let laid := disk.put target (.file (.library []))
    if laid.contains call.directory (call.arguments.getLast?.getD "") then ⟨laid, .code 0, []⟩
    else ⟨disk, .code 1, []⟩

/-- Tools of which the one that fetches repositories does nothing. -/
def layingTools (tool : String) : Option Tool :=
  match tool with
  | "git" => some SharedDirectory.idleTool
  | "cc" => some layingCompiler
  | _ => none

theorem confined_of_layingTools (htools : site.host.tools = layingTools) (hup : ".." ∉ Path.names site.directory) :
    site.Confined := by
  rintro language place found call tool ⟨hcall, hplace⟩ htool earlier before hbefore
  rw [htools] at htool
  unfold layingTools at htool
  split at htool
  · obtain rfl := Option.some.inj htool
    exact hbefore
  · obtain rfl := Option.some.inj htool
    unfold layingCompiler
    rcases htarget : call.target? with _ | target
    · exact hbefore
    · have hne : target ≠ [] := by
        rcases target_of_installCall hcall htarget with ⟨-, rfl⟩ | ⟨-, rfl⟩
        · exact List.append_ne_nil_of_right_ne_nil _ (List.cons_ne_nil _ _)
        · exact List.append_ne_nil_of_right_ne_nil _ (List.cons_ne_nil _ _)
      dsimp only
      split
      · rw [← hbefore, Disk.get?_put _ hne, if_neg]
        rintro rfl
        have hmay : call.MayClear site.place place := Or.inl ⟨place, htarget, List.prefix_rfl⟩
        exact hplace ⟨hmay, fun hway => not_mayClear_of_mem_way hup hway hcall hmay⟩
      · exact hbefore
  · cases htool

/-- A directory with the libraries of TypeScript and TSX, of which the first is outdated, and a copy of their
repository. -/
def pairSite : Site where
  host := {
    disk := ⟨[(["g"], .directory), (["g", "libtsx.so"], .file (.text "tsx")),
      (["g", "libtypescript.so"], .file (.text "old")), (["g", "sources"], .directory),
      (["g", "sources", "tree-sitter__tree-sitter-typescript"], .directory),
      (["g", "sources", "tree-sitter__tree-sitter-typescript", "typescript"], .directory),
      (["g", "sources", "tree-sitter__tree-sitter-typescript", "typescript", "src"], .directory),
      (["g", "sources", "tree-sitter__tree-sitter-typescript", "typescript", "src", "parser.c"], .file (.text ""))]⟩
    tools := layingTools
    current := []
    now := 0
    calls := [] }
  directory := "g"
  record := ⟨[("tsx", ⟨14, 0⟩), ("typescript", ⟨13, 0⟩)]⟩

theorem exists_of_reportsInstall (h : site.reportsInstall language = true) :
    ∃ result after, ensure language site = .ok result after ∧ result ≠ .alreadyInstalled := by
  rw [reportsInstall] at h
  rcases hensure : ensure language site with ⟨result, after⟩ | ⟨fault, after⟩
  · rw [hensure] at h
    exact ⟨result, after, rfl, of_decide_eq_true h⟩
  · rw [hensure] at h
    cases h

theorem pairSite_reports : pairSite.reportsInstall .typeScript = true := by
  decide +kernel

/-- TypeScript is made again, and TSX stays as it was. -/
theorem pairSite_keeps_tsx : pairSite.Confined ∧ pairSite.isUsable .typeScript = false ∧
    (∃ ready attempts fault? made, prepare (pairSite.cleared .typeScript) = .ok () ready ∧
      ready.Course .typeScript attempts fault? made ∧ attempts ≠ []) ∧
    (∃ result after, ensure .typeScript pairSite = .ok result after ∧
      after.record.note? "typescript" = some ⟨14, 0⟩ ∧ after.record.note? "tsx" = some ⟨14, 0⟩ ∧
      after.host.disk.get? ["g", "libtsx.so"] = some (.file (.text "tsx"))) := by
  have hconfined : pairSite.Confined := confined_of_layingTools rfl (by decide +kernel)
  have husable : pairSite.isUsable .typeScript = false := by decide +kernel
  obtain ⟨hcourse, hrecord, -, hnotes, hlibraries⟩ := ensure_keeps_to_grammar pairSite .typeScript
  refine ⟨hconfined, husable, ?_, ?_⟩
  · obtain ⟨⟨⟩, ready, hready⟩ := exists_of_isDone
      (show isDone (prepare (pairSite.cleared .typeScript)) = true by decide +kernel)
    obtain ⟨attempts, fault?, made, htaken, hattempts, -⟩ := hcourse ready husable hready
    exact ⟨ready, attempts, fault?, made, hready, htaken, hattempts⟩
  · obtain ⟨result, after, hafter, hinstalled⟩ := exists_of_reportsInstall pairSite_reports
    rw [hafter] at hnotes hlibraries
    refine ⟨result, after, hafter, ?_, ?_, ?_⟩
    · rw [hrecord _ _ hafter, if_neg hinstalled]
      decide +kernel
    · exact (hnotes "tsx" (by decide)).trans (by decide +kernel)
    · have hplace : pairSite.place ++ [Builtin.tsx.libraryName] = ["g", "libtsx.so"] := by decide +kernel
      have hspared := hlibraries hconfined .tsx (by decide)
      rw [hplace] at hspared
      exact hspared.get?_eq_some (by decide +kernel)

end Site

end CodeMarkup
