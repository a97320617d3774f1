import CodeMarkup.Proofs.Install.Confined

/-!
# What a failed install leaves

An install that fails has not started the compiler, or it fails because the compiler does. So if tools are confined,
and a failing compiler writes nothing, no library comes up and none is lost once the way for the new one was cleared.
But clearing it takes an outdated library away, before any tool is tried (`exists_course_of_failed`), and nothing brings
that back: after a failure a library file is there iff it was there before and was not cleared away
(`library_of_failed_ensure`).
-/

namespace CodeMarkup.Site

variable {site after ready : Site} {language : Builtin} {fault : EnsureFault} {attempts : List Attempt} {made : Host}

/-- A grammar's library can be removed. -/
def isRemovable (site : Site) (language : Builtin) : Bool :=
  (site.host.disk.removeFile site.host.current (site.libraryPath language.grammarName)).isOk

/-! ## Up to the failure -/

/-- **A course that ends badly** leaves the library as it is. -/
theorem get?_of_failed_course {fault : InstallFault} (hconfined : ready.Confined)
    (hquiet : (∃ errors, fault = .compilationFailed errors) → ready.QuietCompiler)
    (hcourse : ready.Course language attempts (some fault) made) :
    made.disk.get? (ready.place ++ [language.libraryName])
      = ready.host.disk.get? (ready.place ++ [language.libraryName]) := by
  refine get?_of_course hconfined hcourse fun attempt hmem => ?_
  by_cases htool : attempt.tool = "cc"
  · rcases hstarted : attempt.started with _ | _
    · exact Or.inl hstarted
    · refine Or.inr (Or.inr ⟨htool, ?_, hquiet (hcourse.compilationFailed hmem htool hstarted)⟩)
      rw [Bool.eq_false_iff]
      intro hsucceeded
      cases hcourse.compiled_iff.mp ⟨attempt, hmem, htool, hsucceeded⟩
  · exact Or.inr (Or.inl (not_mayTouch_of_tool_ne (hcourse.installCall attempt hmem) htool _))

/-- A call that fails has cleared the way for the library and made directories, as far as that went, before it took
any course. -/
theorem exists_course_of_failed (h : ensure language site = .error fault after) : ∃ disk,
    (∀ place, (site.cleared language).host.disk.SparedAt disk place) ∧
      (after = site.withDisk disk ∨ ∃ attempts reason made, fault = .install language.grammarName reason ∧
        (site.withDisk disk).Course language attempts (some reason) made ∧
        after = (site.withDisk disk).withHost made) := by
  obtain ⟨disk, hready, hspared⟩ := exists_ready site language
  refine ⟨disk, hspared, ?_⟩
  rcases ensure_course_cases site language with
    ⟨-, hnone⟩ | ⟨-, other, between, hprepare, hfails⟩ | ⟨-, ready, attempts, fault?, made, hprepare, hcourse, hdone⟩
  · cases hnone.symm.trans h
  · cases hfails.symm.trans h
    rw [hprepare] at hready
    exact Or.inl hready
  · rw [hprepare] at hready
    obtain rfl : ready = site.withDisk disk := hready
    rcases fault? with _ | reason
    · cases hdone.symm.trans h
    · cases hdone.symm.trans h
      exact Or.inr ⟨attempts, reason, made, rfl, hcourse, rfl⟩

/-- A call that fails spares every other entry of the directory. -/
theorem sparedAt_of_failed (h : ensure language site = .error fault after) (hconfined : site.Confined) {name : String}
    (hname : name ≠ language.libraryName) : site.host.disk.SparedAt after.host.disk (site.place ++ [name]) := by
  obtain ⟨made, hworked, hnone | hdone | ⟨other, hfails⟩⟩ := ensure_worked_cases site language
  · cases hnone.symm.trans h
  · cases hdone.symm.trans h
  · cases hfails.symm.trans h
    exact hworked.entry hconfined hname

/-! ## Before -/

/-- Once its way is cleared, a library file is there that was there before, unless it was outdated and gave way. -/
theorem library_cleared (site : Site) (language : Builtin) (content : Content) :
    (site.cleared language).host.disk.get? (site.place ++ [language.libraryName]) = some (.file content) ↔
      site.host.disk.get? (site.place ++ [language.libraryName]) = some (.file content) ∧
        ¬ (site.isOutdated language = true ∧ site.isRemovable language = true) := by
  rw [cleared, isRemovable]
  rcases houtdated : site.isOutdated language with _ | _
  · simp
  · rw [if_pos rfl, discardLibrary]
    rcases hremove : site.host.disk.removeFile site.host.current (site.libraryPath language.grammarName) with _ | disk
    · simp [tryDisk, Except.isOk, Except.toBool]
    · have hgone : disk.get? (site.place ++ [language.libraryName]) = none :=
        (Disk.get?_of_removeFile language.isEntry_libraryName hremove _).trans (if_pos rfl)
      simp [tryDisk, withDisk, Except.isOk, Except.toBool, hgone]

/-- **After a failure** the library file of a grammar is there, with its contents, iff it was there before and was not
taken away as outdated. That is done first: no tool is tried unless the way is cleared, and the directories are made.
All other files in the directory, and so the libraries of all other grammars, are as they were, and none has come up.

This takes confined tools, and a compiler that writes nothing when it fails unless it is not to blame. -/
theorem library_of_failed_ensure {site after : Site} {language : Builtin} {fault : EnsureFault}
    (h : ensure language site = .error fault after) (hconfined : site.Confined)
    (hquiet : (∃ errors, fault = .install language.grammarName (.compilationFailed errors)) → site.QuietCompiler) :
    (∀ content, after.host.disk.get? (site.place ++ [language.libraryName]) = some (.file content) ↔
      site.host.disk.get? (site.place ++ [language.libraryName]) = some (.file content) ∧
        ¬ (site.isOutdated language = true ∧ site.isRemovable language = true)) ∧
    (∃ disk, (∀ content, disk.get? (site.place ++ [language.libraryName]) = some (.file content) ↔
        site.host.disk.get? (site.place ++ [language.libraryName]) = some (.file content) ∧
          ¬ (site.isOutdated language = true ∧ site.isRemovable language = true)) ∧
      (after = site.withDisk disk ∨ ∃ attempts reason made,
        (site.withDisk disk).Course language attempts (some reason) made ∧
          after = (site.withDisk disk).withHost made)) ∧
    ∀ name, name ≠ language.libraryName → ∀ content,
      after.host.disk.get? (site.place ++ [name]) = some (.file content) ↔
        site.host.disk.get? (site.place ++ [name]) = some (.file content) := by
  obtain ⟨disk, hspared, hcourse⟩ := exists_course_of_failed h
  have hcleared : ∀ content, disk.get? (site.place ++ [language.libraryName]) = some (.file content) ↔ _ := fun content =>
    ((hspared _).file_iff content).trans (library_cleared site language content)
  have hkept : after.host.disk.get? (site.place ++ [language.libraryName])
      = disk.get? (site.place ++ [language.libraryName]) := by
    rcases hcourse with rfl | ⟨attempts, reason, made, rfl, hcourse, rfl⟩
    · rfl
    · refine get?_of_failed_course ((sameSetting_withDisk site disk).confined hconfined) ?_ hcourse
      rintro ⟨errors, rfl⟩
      exact hquiet ⟨errors, rfl⟩
  refine ⟨fun content => ?_, ⟨disk, hcleared, hcourse.imp_right ?_⟩, fun name hname content => ?_⟩
  · rw [hkept]
    exact hcleared content
  · rintro ⟨attempts, reason, made, -, hcourse⟩
    exact ⟨attempts, reason, made, hcourse⟩
  · exact (sparedAt_of_failed h hconfined hname).file_iff content

/-! ## Losses -/

/-- A compiler that always fails. -/
def failingCompiler : Tool := fun _ _ disk => ⟨disk, .code 1, []⟩

/-- A directory with an outdated library of Go, with a copy of its repository, and with some tools. -/
def goSite (git? cc? : Option Tool) : Site where
  host := {
    disk := ⟨[(["g"], .directory), (["g", "libgo.so"], .file (.text "old")), (["g", "sources"], .directory),
      (["g", "sources", "tree-sitter__tree-sitter-go"], .directory),
      (["g", "sources", "tree-sitter__tree-sitter-go", "src"], .directory),
      (["g", "sources", "tree-sitter__tree-sitter-go", "src", "parser.c"], .file (.text ""))]⟩
    tools := fun tool => if tool = "git" then git? else if tool = "cc" then cc? else none
    current := []
    now := 0
    calls := [] }
  directory := "g"
  record := ⟨[("go", ⟨13, 0⟩)]⟩

theorem quietCompiler_goSite (git? : Option Tool) : (goSite git? (some failingCompiler)).QuietCompiler := by
  intro compiler hcompiler earlier call disk
  obtain rfl : failingCompiler = compiler := Option.some.inj hcompiler
  exact fun _ place => rfl

theorem confined_goSite : (goSite (some SharedDirectory.idleTool) (some failingCompiler)).Confined := by
  rintro language place found call tool - htool earlier disk hfound
  simp only [goSite] at htool
  split at htool
  · obtain rfl := Option.some.inj htool
    exact hfound
  · split at htool
    · obtain rfl := Option.some.inj htool
      exact hfound
    · cases htool

/-- Go is not compiled, and then its library is not there, and no library of Rust has come up. -/
theorem library_of_failed_ensure_goSite : ∃ fault after,
    ensure .go (goSite (some SharedDirectory.idleTool) (some failingCompiler)) = .error fault after ∧
      (goSite (some SharedDirectory.idleTool) (some failingCompiler)).Confined ∧
      (goSite (some SharedDirectory.idleTool) (some failingCompiler)).QuietCompiler ∧
      (∀ content, after.host.disk.get? ["g", "libgo.so"] ≠ some (.file content)) ∧
      ∀ content, after.host.disk.get? ["g", "librust.so"] ≠ some (.file content) := by
  obtain ⟨fault, h⟩ := exists_of_not_isDone (show
    isDone (ensure .go (goSite (some SharedDirectory.idleTool) (some failingCompiler))) = false by decide +kernel)
  obtain ⟨hlibrary, -, hothers⟩ := library_of_failed_ensure h confined_goSite (fun _ => quietCompiler_goSite _)
  have hplace : (goSite (some SharedDirectory.idleTool) (some failingCompiler)).place = ["g"] := by decide +kernel
  rw [hplace] at hlibrary hothers
  have hmissing : (goSite (some SharedDirectory.idleTool) (some failingCompiler)).host.disk.get? ["g", "librust.so"]
      = none := by decide +kernel
  refine ⟨fault, _, h, confined_goSite, quietCompiler_goSite _, fun content hcontent => ?_, fun content hcontent => ?_⟩
  · exact ((hlibrary content).mp hcontent).2 (by decide +kernel)
  · cases hmissing.symm.trans ((hothers "librust.so" (by decide) content).mp hcontent)

/-- A tool that ends badly after it has laid a library down where it had nothing to do. -/
def strayTool : Tool := fun _ _ disk => ⟨disk.put ["g", "librust.so"] (.file (.text "stray")), .code 1, []⟩

/-- **A library may be lost in a failed install, and may come up in one**, although the compiler is not to blame: an
outdated library is cleared away before anything can fail, and a tool that is not confined may put a library where none
was. -/
theorem library_lost_and_strayed :
    (∃ fault after, ensure .go (goSite none (some failingCompiler)) = .error fault after ∧
      (goSite none (some failingCompiler)).QuietCompiler ∧
      (goSite none (some failingCompiler)).host.disk.get? ["g", "libgo.so"] = some (.file (.text "old")) ∧
      after.host.disk.get? ["g", "libgo.so"] = none) ∧
    ∃ fault after, ensure .rust (goSite (some strayTool) (some failingCompiler)) = .error fault after ∧
      (goSite (some strayTool) (some failingCompiler)).QuietCompiler ∧
      (goSite (some strayTool) (some failingCompiler)).host.disk.get? ["g", "librust.so"] = none ∧
      after.host.disk.get? ["g", "librust.so"] = some (.file (.text "stray")) := by
  constructor
  · obtain ⟨fault, h⟩ := exists_of_not_isDone
      (show isDone (ensure .go (goSite none (some failingCompiler))) = false by decide +kernel)
    exact ⟨fault, _, h, quietCompiler_goSite _, by decide +kernel, by decide +kernel⟩
  · obtain ⟨fault, h⟩ := exists_of_not_isDone
      (show isDone (ensure .rust (goSite (some strayTool) (some failingCompiler))) = false by decide +kernel)
    exact ⟨fault, _, h, quietCompiler_goSite _, by decide +kernel, by decide +kernel⟩

end CodeMarkup.Site
