import CodeMarkup.Proofs.Install.Runs

/-!
# How an install goes

An install first makes its directories (`prepare`). What it does from then on is told by the tools it tries to run, in
order, and by what comes of each attempt (`Course`): the repository is fetched; if that went well, the parser is
generated, which may go as it will; if there is a parser then, it is compiled. Whatever an attempt comes to, no tool is
tried twice, and the attempt after which nothing more is tried decides how the install ends. Making sure of a grammar
does this and notes the install at the end, if the compiler has ended well (`ensure_course_cases`).
-/

namespace CodeMarkup

/-! ## Attempts -/

/-- An attempt to run a tool, and what came of it: it was not started, or it ended. -/
structure Attempt where
  /-- the tool's name -/
  tool : String
  /-- the path of the directory to start it in, if that is not the current one -/
  path? : Option String
  /-- its arguments -/
  arguments : List String
  /-- what came of it -/
  outcome : Except FileFault (ExitStatus × List UInt8)

/-- Whether a tool was started and ended well. -/
def Attempt.succeeded (attempt : Attempt) : Bool :=
  match attempt.outcome with
  | .ok (status, _) => status.isSuccess
  | .error _ => false

/-- Whether a tool was started. -/
def Attempt.started (attempt : Attempt) : Bool :=
  attempt.outcome.isOk

/-- The run that an attempt comes to if the tool is started. -/
def Attempt.call (attempt : Attempt) (current : Place) : Call :=
  ⟨attempt.tool, attempt.path?.elim current (Place.ofPath current), attempt.arguments⟩

/-- Attempts, made one after another, lead from a host to a host. -/
def Host.Tries : Host → List Attempt → Host → Prop
  | host, [], after => after = host
  | host, attempt :: rest, after => ∃ between,
    host.run attempt.tool attempt.path? attempt.arguments = (between, attempt.outcome) ∧ between.Tries rest after

theorem Host.tries_run (host : Host) (tool : String) (path? : Option String) (arguments : List String) :
    host.Tries [⟨tool, path?, arguments, (host.run tool path? arguments).2⟩] (host.run tool path? arguments).1 :=
  ⟨_, rfl, rfl⟩

theorem Host.Tries.append {host between after : Host} {first rest : List Attempt} (h₁ : host.Tries first between)
    (h₂ : between.Tries rest after) : host.Tries (first ++ rest) after := by
  induction first generalizing host with
  | nil =>
    obtain rfl := h₁
    exact h₂
  | cons attempt first ih =>
    obtain ⟨next, hrun, hrest⟩ := h₁
    exact ⟨next, hrun, ih hrest⟩

/-- A tool is not started, which leaves the host as it is, or it has run there. -/
theorem Host.run_cases (host : Host) (tool : String) (path? : Option String) (arguments : List String) :
    (∃ fault, host.run tool path? arguments = (host, .error fault)) ∨ ∃ program, host.tools tool = some program ∧
      let call : Call := ⟨tool, path?.elim host.current (Place.ofPath host.current), arguments⟩
      let ran := program host.calls call host.disk
      host.run tool path? arguments
        = ({ host with disk := ran.disk, calls := call :: host.calls }, .ok (ran.status, ran.errors)) := by
  unfold Host.run
  rcases hdirectory : host.startDirectory path? with fault | directory
  · exact Or.inl ⟨fault, rfl⟩
  · obtain rfl := eq_of_startDirectory hdirectory
    rcases htool : host.tools tool with _ | program
    · exact Or.inl ⟨.notFound, rfl⟩
    · exact Or.inr ⟨program, rfl, rfl⟩

/-- A host with the same tools, current directory and time as another. -/
structure Host.SameTools (host after : Host) : Prop where
  /-- the tools are the same -/
  tools : after.tools = host.tools
  /-- so is the current directory -/
  current : after.current = host.current
  /-- so is the time -/
  now : after.now = host.now

theorem Host.sameTools_run (host : Host) (tool : String) (path? : Option String) (arguments : List String) :
    host.SameTools (host.run tool path? arguments).1 := by
  rcases host.run_cases tool path? arguments with ⟨fault, hnone⟩ | ⟨program, -, hran⟩
  · rw [hnone]
    exact ⟨rfl, rfl, rfl⟩
  · rw [hran]
    exact ⟨rfl, rfl, rfl⟩

/-- The runs of the tools that were started are put on record. -/
theorem Host.Tries.calls {host after : Host} {attempts : List Attempt} (h : host.Tries attempts after) :
    after.calls = ((attempts.filter Attempt.started).map (·.call host.current)).reverse ++ host.calls := by
  induction attempts generalizing host with
  | nil =>
    obtain rfl := h
    rfl
  | cons attempt rest ih =>
    obtain ⟨between, hrun, hrest⟩ := h
    rw [ih hrest]
    rcases host.run_cases attempt.tool attempt.path? attempt.arguments with ⟨fault, hnone⟩ | ⟨program, -, hran⟩
    · obtain ⟨rfl, houtcome⟩ := Prod.mk.inj (hnone.symm.trans hrun)
      rw [List.filter_cons_of_neg (by rw [Attempt.started, ← houtcome]; exact Bool.false_ne_true)]
    · obtain ⟨rfl, houtcome⟩ := Prod.mk.inj (hran.symm.trans hrun)
      rw [List.filter_cons_of_pos (by rw [Attempt.started, ← houtcome]; rfl), List.map_cons, List.reverse_cons,
        List.append_assoc]
      rfl

/-- **What each attempt keeps, all of them keep**; each is made on a host with the tools of the first. -/
theorem Host.Tries.keep {host after : Host} {attempts : List Attempt} (h : host.Tries attempts after)
    (property : Host → Prop)
    (hkeep : ∀ attempt ∈ attempts, ∀ before next, host.SameTools before → property before →
      before.run attempt.tool attempt.path? attempt.arguments = (next, attempt.outcome) → property next)
    (hhost : property host) : host.SameTools after ∧ property after := by
  suffices ∀ (attempts : List Attempt) (before : Host), host.SameTools before → property before →
      (∀ attempt ∈ attempts, ∀ before next, host.SameTools before → property before →
        before.run attempt.tool attempt.path? attempt.arguments = (next, attempt.outcome) → property next) →
      before.Tries attempts after → host.SameTools after ∧ property after from
    this attempts host ⟨rfl, rfl, rfl⟩ hhost hkeep h
  intro attempts
  induction attempts with
  | nil =>
    rintro before hsame hproperty - rfl
    exact ⟨hsame, hproperty⟩
  | cons attempt rest ih =>
    rintro before hsame hproperty hkeep ⟨next, hrun, hrest⟩
    have hnext := before.sameTools_run attempt.tool attempt.path? attempt.arguments
    rw [hrun] at hnext
    have hsame' : host.SameTools next :=
      ⟨hnext.tools.trans hsame.tools, hnext.current.trans hsame.current, hnext.now.trans hsame.now⟩
    refine ih next hsame' ?_ (fun other hmem => hkeep other (List.mem_cons_of_mem _ hmem)) hrest
    exact hkeep attempt List.mem_cons_self before next hsame hproperty hrun

namespace Site

/-- The site on another host. -/
def withHost (site : Site) (host : Host) : Site :=
  { site with host := host }

/-! ## What is tried -/

/-- The attempt to fetch a grammar's repository: its copy is brought up to date if something is there, and made if
not. -/
def fetchAttempt (ready : Site) (language : Builtin) (outcome : Except FileFault (ExitStatus × List UInt8)) :
    Attempt :=
  if ready.contains (ready.copyPath language) then
    ⟨"git", some (ready.copyPath language), ["pull", "--depth=1"], outcome⟩
  else
    ⟨"git", none, ["clone", "--depth=1", repositoryAddress language, ready.copyPath language], outcome⟩

/-- The attempt to generate a grammar's parser. -/
def generateAttempt (ready : Site) (language : Builtin) (outcome : Except FileFault (ExitStatus × List UInt8)) :
    Attempt :=
  ⟨"tree-sitter", some (ready.grammarPath language), ["generate"], outcome⟩

/-- The attempt to compile the parser in a directory into a grammar's library. -/
def compileAttempt (late : Site) (language : Builtin) (source : String)
    (outcome : Except FileFault (ExitStatus × List UInt8)) : Attempt :=
  ⟨"cc", none, ["-shared", "-fPIC", "-O2", "-I", source, Path.join source "parser.c"]
    ++ late.scannerArguments source ++ ["-o", late.libraryPath language.grammarName], outcome⟩

/-- A directory of a grammar has its parser in the usual place. -/
def hasUsualParser (late : Site) (directory : String) : Bool :=
  late.contains (Path.join (Path.join directory "src") "parser.c")

/-- A directory of a grammar has a parser in the other place. -/
def hasNestedParser (late : Site) (directory : String) : Bool :=
  late.contains (Path.join (Path.join (Path.join directory "grammar") "src") "parser.c")

/-- The directory that a grammar's parser is compiled in: the usual one if there is a parser in it, and the other one
if only that has a parser. -/
inductive ParserIn (late : Site) (directory : String) : String → Prop where
  /-- the usual directory -/
  | usual (h : late.hasUsualParser directory = true) : ParserIn late directory (Path.join directory "src")
  /-- the other one -/
  | nested (hnone : late.hasUsualParser directory = false) (h : late.hasNestedParser directory = true) :
    ParserIn late directory (Path.join (Path.join directory "grammar") "src")

/-- What is wrong if the repository was not fetched. -/
def fetchFault? : Except FileFault (ExitStatus × List UInt8) → Option InstallFault
  | .error fault => some (.fetchNotStarted fault)
  | .ok (status, _) => if status.isSuccess then none else some (.fetchFailed status)

/-- What is wrong if the parser was not compiled. -/
def compileFault? : Except FileFault (ExitStatus × List UInt8) → Option InstallFault
  | .error fault => some (.compilerNotStarted fault)
  | .ok (status, errors) =>
    if status.isSuccess then none else some (.compilationFailed (Text.Utf8.decodeLossy errors))

/-- **How an install goes** at a site with its directories: what is tried, in order, what is wrong in the end, if
anything is, and the host that this leaves. -/
inductive Course (ready : Site) (language : Builtin) : List Attempt → Option InstallFault → Host → Prop where
  /-- the repository is not fetched -/
  | unfetched {outcome : Except FileFault (ExitStatus × List UInt8)} {fault : InstallFault} {made : Host}
      (fetch : ready.host.Tries [ready.fetchAttempt language outcome] made)
      (failed : fetchFault? outcome = some fault) :
      Course ready language [ready.fetchAttempt language outcome] (some fault) made
  /-- it is fetched, and whatever comes of generating the parser, there is none -/
  | parserless {fetched generated : Except FileFault (ExitStatus × List UInt8)} {made : Host}
      (tries : ready.host.Tries [ready.fetchAttempt language fetched, ready.generateAttempt language generated] made)
      (fine : fetchFault? fetched = none)
      (usual : (ready.withHost made).hasUsualParser (ready.grammarPath language) = false)
      (nested : (ready.withHost made).hasNestedParser (ready.grammarPath language) = false) :
      Course ready language [ready.fetchAttempt language fetched, ready.generateAttempt language generated]
        (some (.noParser (ready.grammarPath language))) made
  /-- there is one then, and it is compiled -/
  | compiled {fetched generated outcome : Except FileFault (ExitStatus × List UInt8)} {late made : Host}
      {source : String}
      (tries : ready.host.Tries [ready.fetchAttempt language fetched, ready.generateAttempt language generated] late)
      (fine : fetchFault? fetched = none)
      (parser : (ready.withHost late).ParserIn (ready.grammarPath language) source)
      (compile : late.Tries [(ready.withHost late).compileAttempt language source outcome] made) :
      Course ready language [ready.fetchAttempt language fetched, ready.generateAttempt language generated,
        (ready.withHost late).compileAttempt language source outcome] (compileFault? outcome) made

variable {ready : Site} {language : Builtin} {attempts : List Attempt} {fault? : Option InstallFault} {made : Host}

/-! ## What is read off a course -/

theorem fetchFault?_eq_none_iff {ready : Site} {outcome : Except FileFault (ExitStatus × List UInt8)} :
    fetchFault? outcome = none ↔ (ready.fetchAttempt language outcome).succeeded = true := by
  have hsame : (ready.fetchAttempt language outcome).outcome = outcome := by
    unfold fetchAttempt
    split
    · rfl
    · rfl
  rw [Attempt.succeeded, hsame]
  rcases outcome with fault | ⟨status, errors⟩
  · simp [fetchFault?]
  · simp [fetchFault?]

theorem compileFault?_eq_none_iff {late : Site} {source : String}
    {outcome : Except FileFault (ExitStatus × List UInt8)} :
    compileFault? outcome = none ↔ (late.compileAttempt language source outcome).succeeded = true := by
  rcases outcome with fault | ⟨status, errors⟩
  · simp [compileFault?, compileAttempt, Attempt.succeeded]
  · simp [compileFault?, compileAttempt, Attempt.succeeded]

theorem tool_fetchAttempt (ready : Site) (language : Builtin)
    (outcome : Except FileFault (ExitStatus × List UInt8)) : (ready.fetchAttempt language outcome).tool = "git" := by
  unfold fetchAttempt
  split
  · rfl
  · rfl

/-- The tools are tried in order, each at most once, and the first one is. -/
theorem Course.tools (h : ready.Course language attempts fault? made) :
    attempts ≠ [] ∧ attempts.map Attempt.tool <+: ["git", "tree-sitter", "cc"] := by
  cases h with
  | unfetched fetch failed =>
    refine ⟨List.cons_ne_nil _ _, ?_⟩
    rw [List.map_cons, tool_fetchAttempt]
    exact ⟨["tree-sitter", "cc"], rfl⟩
  | parserless tries fine usual nested =>
    refine ⟨List.cons_ne_nil _ _, ?_⟩
    rw [List.map_cons, tool_fetchAttempt]
    exact ⟨["cc"], rfl⟩
  | compiled tries fine parser compile =>
    refine ⟨List.cons_ne_nil _ _, ?_⟩
    rw [List.map_cons, tool_fetchAttempt]
    exact ⟨[], rfl⟩

/-- More is tried iff the repository was fetched. -/
theorem Course.later_ne_nil_iff {fetch : Attempt} {later : List Attempt}
    (h : ready.Course language (fetch :: later) fault? made) : later ≠ [] ↔ fetch.succeeded = true := by
  cases h with
  | unfetched tries failed =>
    rw [← fetchFault?_eq_none_iff, failed]
    exact iff_of_false (fun hne => hne rfl) nofun
  | parserless tries fine usual nested =>
    exact iff_of_true (List.cons_ne_nil _ _) (fetchFault?_eq_none_iff.mp fine)
  | compiled tries fine parser compile =>
    exact iff_of_true (List.cons_ne_nil _ _) (fetchFault?_eq_none_iff.mp fine)

/-- An attempt to run the compiler is the last one, which decides how the course ends. -/
theorem Course.compile_of_mem {attempt : Attempt} (h : ready.Course language attempts fault? made)
    (hmem : attempt ∈ attempts) (htool : attempt.tool = "cc") : ∃ late source outcome,
    attempt = compileAttempt late language source outcome ∧ fault? = compileFault? outcome := by
  have hfetch : ∀ outcome, attempt ≠ ready.fetchAttempt language outcome := by
    rintro outcome rfl
    rw [tool_fetchAttempt] at htool
    exact absurd htool (by decide)
  have hgenerate : ∀ outcome, attempt ≠ ready.generateAttempt language outcome := by
    rintro outcome rfl
    exact absurd htool (show "tree-sitter" ≠ "cc" by decide)
  cases h with
  | unfetched fetch failed => exact (hfetch _ (List.mem_singleton.mp hmem)).elim
  | parserless tries fine usual nested =>
    rcases List.mem_cons.mp hmem with hfirst | hmem
    · exact (hfetch _ hfirst).elim
    · exact (hgenerate _ (List.mem_singleton.mp hmem)).elim
  | compiled tries fine parser compile =>
    rcases List.mem_cons.mp hmem with hfirst | hmem
    · exact (hfetch _ hfirst).elim
    rcases List.mem_cons.mp hmem with hsecond | hmem
    · exact (hgenerate _ hsecond).elim
    · exact ⟨_, _, _, List.mem_singleton.mp hmem, rfl⟩

/-- Nothing is wrong in the end iff the compiler was tried and ended well. -/
theorem Course.compiled_iff (h : ready.Course language attempts fault? made) :
    (∃ compile ∈ attempts, compile.tool = "cc" ∧ compile.succeeded = true) ↔ fault? = none := by
  constructor
  · rintro ⟨compile, hmem, htool, hsucceeded⟩
    obtain ⟨late, source, outcome, rfl, rfl⟩ := h.compile_of_mem hmem htool
    exact compileFault?_eq_none_iff.mpr hsucceeded
  · intro hnone
    cases h with
    | unfetched fetch failed => cases hnone
    | parserless tries fine usual nested => cases hnone
    | compiled tries fine parser compile =>
      exact ⟨_, List.mem_cons_of_mem _ (List.mem_cons_of_mem _ List.mem_cons_self), rfl,
        compileFault?_eq_none_iff.mp hnone⟩

/-- If the compiler was started on a course that ended badly, that was because it failed. -/
theorem Course.compilationFailed {fault : InstallFault} {attempt : Attempt}
    (h : ready.Course language attempts (some fault) made) (hmem : attempt ∈ attempts) (htool : attempt.tool = "cc")
    (hstarted : attempt.started = true) : ∃ errors, fault = .compilationFailed errors := by
  obtain ⟨late, source, outcome, rfl, hfault⟩ := h.compile_of_mem hmem htool
  rcases outcome with notStarted | ⟨status, errors⟩
  · cases hstarted
  · rw [compileFault?] at hfault
    split at hfault
    · cases hfault
    · exact ⟨_, Option.some.inj hfault⟩

/-- A course makes its attempts one after another. -/
theorem Course.tries (h : ready.Course language attempts fault? made) : ready.host.Tries attempts made := by
  cases h with
  | unfetched fetch failed => exact fetch
  | parserless tries fine usual nested => exact tries
  | compiled tries fine parser compile => exact tries.append compile

/-- The runs of a course are runs of an install. -/
theorem Course.installCall (h : ready.Course language attempts fault? made) :
    ∀ attempt ∈ attempts, ready.InstallCall language (attempt.call ready.host.current) := by
  have hfetch : ∀ outcome,
      ready.InstallCall language ((ready.fetchAttempt language outcome).call ready.host.current) := by
    intro outcome
    unfold fetchAttempt
    split
    · exact .pull
    · exact .clone
  have hgenerate : ∀ outcome,
      ready.InstallCall language ((ready.generateAttempt language outcome).call ready.host.current) := fun _ =>
    .generate
  cases h with
  | unfetched tries failed => exact List.forall_mem_singleton.mpr (hfetch _)
  | parserless tries fine usual nested =>
    exact List.forall_mem_cons.mpr ⟨hfetch _, List.forall_mem_singleton.mpr (hgenerate _)⟩
  | compiled tries fine parser compile =>
    refine List.forall_mem_cons.mpr ⟨hfetch _, List.forall_mem_cons.mpr ⟨hgenerate _, ?_⟩⟩
    exact List.forall_mem_singleton.mpr (.compile _)

/-! ## Installs take their course -/

/-- Makes the directories of an install: that of the grammars, and in it the one for repositories. -/
def prepare : SiteM Unit := do
  let site ← get
  makeDirectories site.directory
  makeDirectories site.sourcesPath

/-- How work on a grammar ends that has found something wrong, or nothing. -/
def ended (language : Builtin) (fault? : Option InstallFault) (site : Site) : EStateM.Result EnsureFault Site Unit :=
  match fault? with
  | none => .ok () site
  | some fault => .error (.install language.grammarName fault) site

theorem exists_fetch (ready : Site) (language : Builtin) : ∃ outcome made,
    ready.host.Tries [ready.fetchAttempt language outcome] made ∧
      fetchRepository language (ready.copyPath language) ready
        = ended language (fetchFault? outcome) (ready.withHost made) := by
  have hended : ∀ (host : Host) (outcome : Except FileFault (ExitStatus × List UInt8)), (match outcome with
      | .error fault => throw (.install language.grammarName (.fetchNotStarted fault))
      | .ok (status, _) =>
        if status.isSuccess then pure () else throw (.install language.grammarName (.fetchFailed status)) :
      SiteM Unit) (ready.withHost host) = ended language (fetchFault? outcome) (ready.withHost host) := by
    intro host outcome
    rcases outcome with fault | ⟨status, errors⟩
    · rfl
    · rw [fetchFault?]
      dsimp only
      split
      · rfl
      · rfl
  rcases hcopy : ready.contains (ready.copyPath language) with _ | _
  · let run := ready.host.run "git" none ["clone", "--depth=1", repositoryAddress language, ready.copyPath language]
    refine ⟨run.2, run.1, ?_, ?_⟩
    · rw [fetchAttempt, hcopy]
      exact Host.tries_run _ _ _ _
    · rw [fetchRepository, get_bind_apply]
      dsimp only
      rw [hcopy, if_neg Bool.false_ne_true]
      exact hended _ _
  · let run := ready.host.run "git" (some (ready.copyPath language)) ["pull", "--depth=1"]
    refine ⟨run.2, run.1, ?_, ?_⟩
    · rw [fetchAttempt, hcopy]
      exact Host.tries_run _ _ _ _
    · rw [fetchRepository, get_bind_apply]
      dsimp only
      rw [hcopy, if_pos rfl]
      exact hended _ _

theorem exists_compile (late : Site) (language : Builtin) (source : String) : ∃ outcome made,
    late.host.Tries [late.compileAttempt language source outcome] made ∧
      compile language source late = ended language (compileFault? outcome) (late.withHost made) := by
  let run := late.host.run "cc" none (["-shared", "-fPIC", "-O2", "-I", source, Path.join source "parser.c"]
    ++ late.scannerArguments source ++ ["-o", late.libraryPath language.grammarName])
  refine ⟨run.2, run.1, Host.tries_run _ _ _ _, ?_⟩
  have hended : ∀ (host : Host) (outcome : Except FileFault (ExitStatus × List UInt8)), (match outcome with
      | .error fault => throw (.install language.grammarName (.compilerNotStarted fault))
      | .ok (status, errors) =>
        if status.isSuccess then pure ()
        else throw (.install language.grammarName (.compilationFailed (Text.Utf8.decodeLossy errors))) :
      SiteM Unit) (late.withHost host) = ended language (compileFault? outcome) (late.withHost host) := by
    intro host outcome
    rcases outcome with fault | ⟨status, errors⟩
    · rfl
    · rw [compileFault?]
      dsimp only
      split
      · rfl
      · rfl
  exact hended run.1 run.2

/-- Compiles the parser that is in a directory of a grammar, if there is one. -/
def compileFound (language : Builtin) (directory : String) : SiteM Unit := do
  let late ← get
  let source := late.parserDirectory directory
  if late.contains (Path.join source "parser.c") then compile language source
  else throw (.install language.grammarName (.noParser directory))

/-- Makes a library at a site with its directories. -/
def build (language : Builtin) : SiteM Unit := do
  let ready ← get
  fetchRepository language (ready.copyPath language)
  regenerate (ready.grammarPath language)
  compileFound language (ready.grammarPath language)

theorem makeDirectories_cases (path : String) (site : Site) :
    (∃ disk, site.host.disk.makeDirectories site.host.current path = .ok disk ∧
      makeDirectories path site = .ok () (site.withDisk disk)) ∨
    ∃ fault, makeDirectories path site = .error (.file fault) site := by
  unfold makeDirectories
  rcases site.host.disk.makeDirectories site.host.current path with fault | disk
  · exact Or.inr ⟨fault, rfl⟩
  · exact Or.inl ⟨disk, rfl, rfl⟩

/-- **To make a library** is to make its directories and to build it there. -/
theorem make_eq (language : Builtin) : make language = (do
    prepare
    build language) := by
  funext site
  rw [make, get_bind_apply, prepare, bind_assoc, get_bind_apply, bind_assoc]
  rcases makeDirectories_cases site.directory site with ⟨first, -, hfirst⟩ | ⟨fault, hfault⟩
  · rw [bind_apply_of_ok hfirst, bind_apply_of_ok hfirst]
    rcases makeDirectories_cases site.sourcesPath (site.withDisk first) with ⟨second, -, hsecond⟩ | ⟨fault, hfault⟩
    · rw [bind_apply_of_ok hsecond, bind_apply_of_ok hsecond]
      rfl
    · rw [bind_apply_of_error hfault, bind_apply_of_error hfault]
  · rw [bind_apply_of_error hfault, bind_apply_of_error hfault]

/-- A parser that is found is compiled where it was found. -/
theorem compileFound_cases (late : Site) (language : Builtin) (directory : String) :
    (∃ source, late.ParserIn directory source ∧ compileFound language directory late = compile language source late) ∨
    late.hasUsualParser directory = false ∧ late.hasNestedParser directory = false ∧
      compileFound language directory late = ended language (some (.noParser directory)) late := by
  rw [compileFound, get_bind_apply, parserDirectory]
  rcases husual : late.hasUsualParser directory with _ | _
  · rcases hnested : late.hasNestedParser directory with _ | _
    · refine Or.inr ⟨rfl, rfl, ?_⟩
      rw [hasUsualParser] at husual
      rw [hasNestedParser] at hnested
      rw [husual, hnested, if_neg Bool.false_ne_true, if_neg Bool.false_ne_true, husual, if_neg Bool.false_ne_true]
      rfl
    · refine Or.inl ⟨_, .nested husual hnested, ?_⟩
      rw [hasUsualParser] at husual
      rw [hasNestedParser] at hnested
      rw [husual, hnested, if_neg Bool.false_ne_true, if_pos rfl, hnested, if_pos rfl]
  · refine Or.inl ⟨_, .usual husual, ?_⟩
    rw [hasUsualParser] at husual
    rw [husual, if_pos rfl, husual, if_pos rfl]

/-- **Building a library takes its course.** -/
theorem course_of_build (ready : Site) (language : Builtin) : ∃ attempts fault? made,
    ready.Course language attempts fault? made ∧
      build language ready = ended language fault? (ready.withHost made) := by
  obtain ⟨fetched, host, hfetch, hfetched⟩ := exists_fetch ready language
  rw [build, get_bind_apply]
  rcases hfault : fetchFault? fetched with _ | fault
  · let run := host.run "tree-sitter" (some (ready.grammarPath language)) ["generate"]
    have htries : ready.host.Tries [ready.fetchAttempt language fetched, ready.generateAttempt language run.2] run.1 :=
      hfetch.append (Host.tries_run _ _ _ _)
    have hgenerated : regenerate (ready.grammarPath language) (ready.withHost host) = .ok () (ready.withHost run.1) :=
      rfl
    rw [hfault] at hfetched
    rw [bind_apply_of_ok hfetched, bind_apply_of_ok hgenerated]
    rcases compileFound_cases (ready.withHost run.1) language (ready.grammarPath language) with
      ⟨source, hsource, hfound⟩ | ⟨husual, hnested, hnone⟩
    · obtain ⟨outcome, made, hcompile, hcompiled⟩ := exists_compile (ready.withHost run.1) language source
      exact ⟨_, _, made, .compiled htries hfault hsource hcompile, hfound.trans hcompiled⟩
    · exact ⟨_, _, run.1, .parserless htries hfault husual hnested, hnone⟩
  · rw [hfault] at hfetched
    exact ⟨_, _, host, .unfetched hfetch hfault, bind_apply_of_error hfetched _⟩

/-- What making sure of a grammar comes to: nothing has to be done, or its directories cannot be made, or building its
library takes its course, and if nothing is wrong in the end, this is noted. -/
theorem ensure_course_cases (site : Site) (language : Builtin) :
    (site.isUsable language = true ∧ ensure language site = .ok .alreadyInstalled site) ∨
    (site.isUsable language = false ∧ ∃ fault after, prepare (site.cleared language) = .error fault after ∧
      ensure language site = .error fault after) ∨
    (site.isUsable language = false ∧ ∃ ready attempts fault? made, prepare (site.cleared language) = .ok () ready ∧
      ready.Course language attempts fault? made ∧
      ensure language site = match fault? with
        | none => .ok (site.installResult language) ((ready.withHost made).noted language)
        | some fault => .error (.install language.grammarName fault) (ready.withHost made)) := by
  rw [ensure_eq, make_eq]
  rcases husable : site.isUsable language with _ | _
  · rw [if_neg Bool.false_ne_true]
    rcases hprepare : prepare (site.cleared language) with ⟨_, ready⟩ | ⟨fault, after⟩
    · obtain ⟨attempts, fault?, made, hcourse, hbuild⟩ := course_of_build ready language
      refine Or.inr (Or.inr ⟨rfl, ready, attempts, fault?, made, rfl, hcourse, ?_⟩)
      rw [bind_apply_of_ok hprepare, hbuild]
      rcases fault? with _ | fault
      · rfl
      · rfl
    · refine Or.inr (Or.inl ⟨rfl, fault, after, rfl, ?_⟩)
      rw [bind_apply_of_error hprepare]
  · exact Or.inl ⟨rfl, if_pos rfl⟩

end Site

end CodeMarkup
