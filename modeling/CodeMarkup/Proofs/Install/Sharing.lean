import CodeMarkup.Proofs.Install.RecordText
import CodeMarkup.Proofs.Install.Runs

/-!
# One directory, several installers

Several parties may keep grammars in one directory, each with a record in memory that it read when it opened the
directory. An install writes the record of its own party over what is there, so it is the party that installed
last which decides what is on record in the directory: all that this party found when it opened the directory
and all that it has installed itself (`record_of_run`). What another party has installed since then is lost
(`record_lost`).
-/

namespace CodeMarkup

/-! ## One call -/

/-- The place of the record's file in a directory. -/
def recordPlace (directory : Place) : Place :=
  directory ++ ["metadata.json"]

namespace Site

/-- Whether making sure of a grammar is reported as an install, the first one or another. -/
def reportsInstall (site : Site) (language : Builtin) : Bool :=
  match ensure language site with
  | .ok result _ => result ≠ .alreadyInstalled
  | .error _ _ => false

/-- Whether the record can be saved if making sure of a grammar comes to an install. -/
def saves (site : Site) (language : Builtin) : Bool :=
  match make language (site.cleared language) with
  | .ok _ between => (saveRecord between.host.disk between.host.current between.directory
      (between.recorded language).record).isOk
  | .error _ _ => true

/-- A site of a directory whose tools leave the record's file alone. -/
structure Settled (directory : Place) (site : Site) : Prop where
  /-- it is a site of the directory -/
  place : site.place = directory
  /-- its record has one note to a name -/
  distinct : site.record.Distinct
  /-- no tool touches the record's file -/
  tools : ∀ name tool, site.host.tools name = some tool → ∀ earlier call disk,
    (tool earlier call disk).disk.get? (recordPlace directory) = disk.get? (recordPlace directory)

variable {site between : Site} {language : Builtin} {directory : Place}

theorem recordPlace_ne_library (directory : Place) (language : Builtin) :
    recordPlace directory ≠ directory ++ [language.libraryName] := by
  have hname : "metadata.json" ≠ language.libraryName := by cases language <;> decide
  simpa [recordPlace] using hname

/-- Up to the note, an install spares the record's file. -/
theorem sparedAt_of_make (language : Builtin) (h : site.Settled directory) :
    Since (site.cleared language) (site.host.disk.SparedAt · (recordPlace directory))
      (stateAfter (make language (site.cleared language))) := by
  have hcleared := sameSetting_cleared site language
  refine keeps_make (fun call tool _ htool earlier disk hspared => ?_)
    (fun disk after hspares hspared => hspared.trans (hspares _)) (site.cleared language) (Since.refl (Or.inl ?_))
  · rw [hcleared.tools] at htool
    exact hspared.trans (Or.inl (h.tools _ tool htool _ _ _))
  · refine get?_cleared site language ?_
    rw [h.place]
    exact recordPlace_ne_library directory language

theorem installResult_ne (site : Site) (language : Builtin) :
    site.installResult language ≠ .alreadyInstalled := by
  unfold installResult
  split
  · nofun
  · nofun

/-- A record that is saved is what the record's file holds. -/
theorem get?_of_saveRecord {disk after : Disk} {current : Place} {path : String} {record : InstallRecord}
    (h : saveRecord disk current path record = .ok after) :
    after.get? (recordPlace (Place.ofPath current path)) = some (.file (.text record.write)) := by
  obtain ⟨between, -, hwrite⟩ := ok_of_bind h
  exact (Disk.get?_of_writeText (by decide) hwrite _).trans (if_pos rfl)

/-- **What a call does to the record**: an install that can be saved puts its note on record, in memory and in the
directory; any other call leaves it as it is in memory, and spares its file. -/
theorem record_of_ensure (h : site.Settled directory) (hsaves : site.saves language = true) :
    (site.reportsInstall language = false ∧
      (stateAfter (ensure language site)).record = site.record ∧
      site.host.disk.SparedAt (stateAfter (ensure language site)).host.disk (recordPlace directory)) ∨
    (site.reportsInstall language = true ∧
      (stateAfter (ensure language site)).record
        = site.record.recordInstall language.grammarName site.host.now ∧
      (stateAfter (ensure language site)).host.disk.get? (recordPlace directory)
        = some (.file (.text (stateAfter (ensure language site)).record.write))) := by
  have hcleared := sameSetting_cleared site language
  rcases ensure_cases site language with ⟨-, hnone⟩ | ⟨between, hmake, hdone⟩ | ⟨fault, after, hmake, hfault⟩
  · rw [reportsInstall, hnone]
    exact Or.inl ⟨rfl, rfl, .refl _ _⟩
  · have hsince := since_of_make hmake
    have hrecord : (between.recorded language).record
        = site.record.recordInstall language.grammarName site.host.now := by
      rw [recorded, hsince.record, record_cleared, hsince.now, hcleared.now]
    simp only [saves, hmake] at hsaves
    rcases hsave : saveRecord between.host.disk between.host.current between.directory
      (between.recorded language).record with fault | disk
    · rw [hsave] at hsaves
      cases hsaves
    · have hnoted : between.noted language = (between.recorded language).withDisk disk := by
        rw [noted, hsave, tryDisk]
      rw [hsince.current, hsince.directory, hcleared.current, hcleared.directory] at hsave
      rw [reportsInstall, hdone, hnoted]
      refine Or.inr ⟨decide_eq_true (installResult_ne site language), hrecord, ?_⟩
      rw [← h.place]
      exact get?_of_saveRecord hsave
  · have hsince := since_make (site.cleared language) language
    rw [hmake] at hsince
    rw [reportsInstall, hfault]
    have hspared := sparedAt_of_make language h
    rw [hmake] at hspared
    exact Or.inl ⟨rfl, hsince.record.trans (record_cleared site language), hspared.disk⟩

theorem settled_of_ensure (h : site.Settled directory) (hsaves : site.saves language = true) :
    (stateAfter (ensure language site)).Settled directory := by
  have hsetting := sameSetting_ensure site language
  refine ⟨hsetting.place.trans h.place, ?_, ?_⟩
  · rcases record_of_ensure h hsaves with ⟨-, hrecord, -⟩ | ⟨-, hrecord, -⟩
    · rw [hrecord]
      exact h.distinct
    · rw [hrecord]
      exact h.distinct.set _ _
  · rw [hsetting.tools]
    exact h.tools

end Site

/-! ## Runs -/

/-- A directory of grammars that several parties keep. -/
structure SharedDirectory (Party : Type) where
  /-- the disk they share -/
  disk : Disk
  /-- the site of each, as it was left by its last call; the disk there is not looked at -/
  sites : Party → Site

/-- A call of one party. -/
structure EnsureCall (Party : Type) where
  /-- the party -/
  party : Party
  /-- the language it asks for -/
  language : Builtin
  /-- the time of the call -/
  now : Nat
  deriving DecidableEq

namespace SharedDirectory

variable {Party : Type} [DecidableEq Party]

/-- The site of a party at a call: its own record, and the shared disk as it is then. -/
def siteAt (shared : SharedDirectory Party) (call : EnsureCall Party) : Site :=
  let site := shared.sites call.party
  { site with host := { site.host with disk := shared.disk, now := call.now } }

/-- What a call leads to, however it ends. -/
def step (shared : SharedDirectory Party) (call : EnsureCall Party) : SharedDirectory Party :=
  let after := stateAfter (Site.ensure call.language (shared.siteAt call))
  ⟨after.host.disk, fun party => if party = call.party then after else shared.sites party⟩

/-- What calls lead to, one after another. -/
def run (shared : SharedDirectory Party) : List (EnsureCall Party) → SharedDirectory Party
  | [] => shared
  | call :: rest => (shared.step call).run rest

/-- The calls of a run that are reported as installs. -/
def installs (shared : SharedDirectory Party) : List (EnsureCall Party) → List (EnsureCall Party)
  | [] => []
  | call :: rest =>
    (if (shared.siteAt call).reportsInstall call.language then [call] else []) ++ (shared.step call).installs rest

/-- Whether every install of a run can save the record. -/
def saves (shared : SharedDirectory Party) : List (EnsureCall Party) → Bool
  | [] => true
  | call :: rest => (shared.siteAt call).saves call.language && (shared.step call).saves rest

variable {shared : SharedDirectory Party} {call : EnsureCall Party} {calls : List (EnsureCall Party)}
  {directory : Place} {party : Party}

/-- A record after some installs. -/
def recordAll (record : InstallRecord) (calls : List (EnsureCall Party)) : InstallRecord :=
  calls.foldl (fun record call => record.recordInstall call.language.grammarName call.now) record

omit [DecidableEq Party] in
theorem settled_siteAt (h : ∀ party, (shared.sites party).Settled directory) (call : EnsureCall Party) :
    (shared.siteAt call).Settled directory :=
  ⟨(h call.party).place, (h call.party).distinct, (h call.party).tools⟩

theorem sites_step (shared : SharedDirectory Party) (call : EnsureCall Party) (party : Party) :
    (shared.step call).sites party = if party = call.party then
      stateAfter (Site.ensure call.language (shared.siteAt call)) else shared.sites party :=
  rfl

theorem settled_step (h : ∀ party, (shared.sites party).Settled directory)
    (hsaves : (shared.siteAt call).saves call.language = true) (party : Party) :
    ((shared.step call).sites party).Settled directory := by
  rw [sites_step]
  split
  · exact Site.settled_of_ensure (settled_siteAt h call) hsaves
  · exact h party

/-- A call puts an install on the record of its own party, if it comes to one. -/
theorem record_step (h : ∀ party, (shared.sites party).Settled directory)
    (hsaves : (shared.siteAt call).saves call.language = true) (party : Party) :
    ((shared.step call).sites party).record = recordAll (shared.sites party).record
      ((if (shared.siteAt call).reportsInstall call.language then [call] else []).filter (·.party = party)) := by
  rw [sites_step]
  rcases Site.record_of_ensure (settled_siteAt h call) hsaves with ⟨hnone, hrecord, -⟩ | ⟨hinstall, hrecord, -⟩
  · rw [hnone]
    split
    · rename_i hparty
      rw [hrecord, hparty]
      rfl
    · rfl
  · rw [hinstall]
    split
    · rename_i hparty
      simp only [hrecord, hparty, if_true, List.filter_cons, decide_true]
      rfl
    · rename_i hparty
      simp only [if_true, List.filter_cons, Ne.symm hparty, decide_false]
      rfl

/-- **A party has on record what it had, and what it has installed.** -/
theorem record_run (h : ∀ party, (shared.sites party).Settled directory) (hsaves : shared.saves calls = true)
    (party : Party) : ((shared.run calls).sites party).record
      = recordAll (shared.sites party).record ((shared.installs calls).filter (·.party = party)) := by
  induction calls generalizing shared with
  | nil => rfl
  | cons call rest ih =>
    rw [saves, Bool.and_eq_true] at hsaves
    rw [run, ih (settled_step h hsaves.1) hsaves.2, record_step h hsaves.1, installs, List.filter_append,
      recordAll, recordAll, recordAll, List.foldl_append]

theorem settled_run (h : ∀ party, (shared.sites party).Settled directory) (hsaves : shared.saves calls = true)
    (party : Party) : ((shared.run calls).sites party).Settled directory := by
  induction calls generalizing shared with
  | nil => exact h party
  | cons call rest ih =>
    rw [saves, Bool.and_eq_true] at hsaves
    exact ih (settled_step h hsaves.1) hsaves.2

/-- **The record's file is what the last install has written**, and if there is no install at all, it is spared. -/
theorem file_run (h : ∀ party, (shared.sites party).Settled directory) (hsaves : shared.saves calls = true) :
    (shared.installs calls = [] → shared.disk.SparedAt (shared.run calls).disk (recordPlace directory)) ∧
    ∀ last, (shared.installs calls).getLast? = some last →
      (shared.run calls).disk.get? (recordPlace directory)
        = some (.file (.text ((shared.run calls).sites last.party).record.write)) := by
  induction calls generalizing shared with
  | nil => exact ⟨fun _ => .refl _ _, nofun⟩
  | cons call rest ih =>
    rw [saves, Bool.and_eq_true] at hsaves
    have hsettled := settled_step h hsaves.1
    obtain ⟨hkept, hwritten⟩ := ih hsettled hsaves.2
    have hcall := Site.record_of_ensure (settled_siteAt h call) hsaves.1
    rw [run, installs]
    refine ⟨fun hnone => ?_, fun last hlast => ?_⟩
    · obtain ⟨hfirst, hrest⟩ := List.append_eq_nil_iff.mp hnone
      rcases hcall with ⟨-, -, hspared⟩ | ⟨hinstall, -, -⟩
      · exact hspared.trans (hkept hrest)
      · rw [hinstall] at hfirst
        cases hfirst
    · rcases hrest : (shared.step call).installs rest with _ | ⟨next, others⟩
      · -- the call is the last install, and the rest leaves its record as it is
        rw [hrest, List.append_nil] at hlast
        rcases hcall with ⟨hnone, -, -⟩ | ⟨hinstall, -, hfile⟩
        · rw [hnone] at hlast
          cases hlast
        · rw [hinstall] at hlast
          obtain rfl : call = last := Option.some.inj hlast
          rw [record_run hsettled hsaves.2, hrest, sites_step, if_pos rfl]
          exact (hkept hrest).get?_eq_some hfile
      · refine hwritten last ?_
        rw [hrest] at hlast ⊢
        rwa [List.getLast?_append, List.getLast?_cons, Option.some_or, ← List.getLast?_cons] at hlast

/-! ## What is on record -/

omit [DecidableEq Party] in
/-- After some installs a grammar is on record as one of them left it, or as before if none is of it. -/
theorem note?_recordAll (record : InstallRecord) (calls : List (EnsureCall Party)) (name : String) :
    (∃ call ∈ calls, call.language.grammarName = name ∧
      (recordAll record calls).note? name = some (InstallRecord.freshNote call.now)) ∨
    (∀ call ∈ calls, call.language.grammarName ≠ name) ∧
      (recordAll record calls).note? name = record.note? name := by
  induction calls generalizing record with
  | nil => exact Or.inr ⟨fun _ h => (List.not_mem_nil h).elim, rfl⟩
  | cons first rest ih =>
    rcases ih (record.recordInstall first.language.grammarName first.now) with
      ⟨call, hmem, hname, hnote⟩ | ⟨hnone, hnote⟩
    · exact Or.inl ⟨call, List.mem_cons_of_mem _ hmem, hname, hnote⟩
    · rw [InstallRecord.recordInstall, InstallRecord.note?_set] at hnote
      by_cases hname : first.language.grammarName = name
      · rw [if_pos hname.symm] at hnote
        exact Or.inl ⟨first, List.mem_cons_self, hname, hnote⟩
      · rw [if_neg (Ne.symm hname)] at hnote
        exact Or.inr ⟨List.forall_mem_cons.mpr ⟨hname, hnone⟩, hnote⟩

/-- A party has opened a directory, at some time, and its tools leave the record's file alone. -/
structure Opened (shared : SharedDirectory Party) (directory : Place) (party : Party) : Prop where
  /-- it is this directory -/
  place : (shared.sites party).place = directory
  /-- the record was read from it, at that time -/
  record : ∃ disk, (shared.sites party).record
    = Site.loadRecord disk (shared.sites party).host.current (shared.sites party).directory
  /-- no tool touches the record's file -/
  tools : ∀ name tool, (shared.sites party).host.tools name = some tool → ∀ earlier call disk,
    (tool earlier call disk).disk.get? (recordPlace directory) = disk.get? (recordPlace directory)

omit [DecidableEq Party] in
theorem Opened.settled (h : shared.Opened directory party) : (shared.sites party).Settled directory := by
  refine ⟨h.place, ?_, h.tools⟩
  obtain ⟨disk, hrecord⟩ := h.record
  rw [hrecord, Site.loadRecord]
  split
  · rename_i text htext
    rcases hread : InstallRecord.read? text with _ | record
    · exact InstallRecord.distinct_empty
    · exact InstallRecord.distinct_of_read? hread
  · exact InstallRecord.distinct_empty

/-! ## Two parties -/

/-- A tool that does nothing and does it well. -/
def idleTool : Tool := fun _ _ disk => ⟨disk, .code 0, []⟩

/-- A disk with a directory of grammars in which two repositories are copied and nothing is compiled. -/
def copiesDisk : Disk :=
  ⟨[(["g"], .directory), (["g", "sources"], .directory),
    (["g", "sources", "tree-sitter__tree-sitter-c"], .directory),
    (["g", "sources", "tree-sitter__tree-sitter-c", "src"], .directory),
    (["g", "sources", "tree-sitter__tree-sitter-c", "src", "parser.c"], .file (.text "")),
    (["g", "sources", "tree-sitter__tree-sitter-go"], .directory),
    (["g", "sources", "tree-sitter__tree-sitter-go", "src"], .directory),
    (["g", "sources", "tree-sitter__tree-sitter-go", "src", "parser.c"], .file (.text ""))]⟩

/-- Two parties that have opened the directory before either has installed anything. -/
def twoParties : SharedDirectory Bool :=
  ⟨copiesDisk, fun _ => .ofDirectory ⟨copiesDisk, fun _ => some idleTool, [], 0, []⟩ "g"⟩

/-- Each of the two installs a grammar. -/
def oneEach : List (EnsureCall Bool) :=
  [⟨false, .c, 1⟩, ⟨true, .go, 2⟩]

theorem oneEach_installs : twoParties.installs oneEach = oneEach ∧ twoParties.saves oneEach = true := by
  decide +kernel

theorem twoParties_opened (party : Bool) : twoParties.Opened ["g"] party where
  place := by
    change Place.ofPath [] "g" = ["g"]
    decide +kernel
  record := ⟨copiesDisk, by simp only [twoParties, Site.ofDirectory]⟩
  tools := by
    rintro name tool htool earlier call disk
    obtain rfl := Option.some.inj htool
    rfl

/-- **The party that installed last decides what is on record in a shared directory.** If no call of a run is
reported as an install, the record's file stays as it is, and where there was none, none comes up. Otherwise it can be
read in the end, and it has an up-to-date entry for each grammar that this party has installed, and for every other
grammar the entry, if any, that this party found when it opened the directory. -/
theorem record_of_run (shared : SharedDirectory Party) (calls : List (EnsureCall Party)) (directory : Place)
    (hopened : ∀ party, shared.Opened directory party) (hsaves : shared.saves calls = true) :
    (shared.installs calls = [] →
      shared.disk.SparedAt (shared.run calls).disk (recordPlace directory) ∧
      ∀ content, (shared.run calls).disk.get? (recordPlace directory) = some (.file content) ↔
        shared.disk.get? (recordPlace directory) = some (.file content)) ∧
    ∀ last, (shared.installs calls).getLast? = some last → ∃ text record,
      (shared.run calls).disk.get? (recordPlace directory) = some (.file (.text text)) ∧
      InstallRecord.read? text = some record ∧
      (∀ call ∈ shared.installs calls, call.party = last.party →
        ∃ note, record.note? call.language.grammarName = some note ∧ note.abi.toNat = Grammar.currentAbi) ∧
      ∀ name, (∀ call ∈ shared.installs calls, call.party = last.party → call.language.grammarName ≠ name) →
        record.note? name = (shared.sites last.party).record.note? name := by
  have hsettled : ∀ party, (shared.sites party).Settled directory := fun party => (hopened party).settled
  obtain ⟨hkept, hwritten⟩ := file_run hsettled hsaves
  refine ⟨fun hnone => ⟨hkept hnone, (hkept hnone).file_iff⟩, fun last hlast => ?_⟩
  have hdistinct := (settled_run hsettled hsaves last.party).distinct
  refine ⟨_, _, hwritten last hlast, InstallRecord.read?_write hdistinct, ?_, ?_⟩
  · intro call hmem hparty
    rw [record_run hsettled hsaves]
    rcases note?_recordAll (shared.sites last.party).record
      ((shared.installs calls).filter (·.party = last.party)) call.language.grammarName with
        ⟨other, -, -, hnote⟩ | ⟨hnone, -⟩
    · exact ⟨_, hnote, rfl⟩
    · exact (hnone call (List.mem_filter.mpr ⟨hmem, decide_eq_true hparty⟩) rfl).elim
  · intro name hother
    rw [record_run hsettled hsaves]
    rcases note?_recordAll (shared.sites last.party).record
      ((shared.installs calls).filter (·.party = last.party)) name with ⟨call, hmem, hname, -⟩ | ⟨-, hnote⟩
    · obtain ⟨hmem, hparty⟩ := List.mem_filter.mp hmem
      exact (hother call hmem (of_decide_eq_true hparty) hname).elim
    · exact hnote

/-- A grammar that is asked for in vain, as its repository comes out empty. -/
def inVain : List (EnsureCall Bool) :=
  [⟨true, .rust, 1⟩]

/-- Of two parties that install a grammar each, the second has its own on record in the end. A grammar that is asked
for in vain leaves no record. -/
theorem record_of_run_oneEach : (∀ party, twoParties.Opened ["g"] party) ∧ twoParties.saves oneEach = true ∧
    (∃ text record, (twoParties.run oneEach).disk.get? (recordPlace ["g"]) = some (.file (.text text)) ∧
      InstallRecord.read? text = some record ∧
      ∃ note, record.note? "go" = some note ∧ note.abi.toNat = Grammar.currentAbi) ∧
    ∀ content, (twoParties.run inVain).disk.get? (recordPlace ["g"]) ≠ some (.file content) := by
  obtain ⟨hinstalls, hsaves⟩ := oneEach_installs
  have hvain : twoParties.installs inVain = [] ∧ twoParties.saves inVain = true := by decide +kernel
  have hnone := ((record_of_run twoParties inVain ["g"] twoParties_opened hvain.2).1 hvain.1).2
  have hrecord := (record_of_run twoParties oneEach ["g"] twoParties_opened hsaves).2 ⟨true, .go, 2⟩
  rw [hinstalls] at hrecord
  obtain ⟨text, record, hfile, hread, hcurrent, -⟩ := hrecord rfl
  refine ⟨twoParties_opened, hsaves, ⟨text, record, hfile, hread, hcurrent ⟨true, .go, 2⟩ (by decide) rfl⟩, ?_⟩
  have hmissing : twoParties.disk.get? (recordPlace ["g"]) = none := by decide +kernel
  intro content hcontent
  cases hmissing.symm.trans ((hnone content).mp hcontent)

/-- **An install of another party can be lost**: of two parties that install a grammar each, the first one's is not
on record in the end. -/
theorem record_lost : (∀ party, twoParties.Opened ["g"] party) ∧ twoParties.saves oneEach = true ∧
    ∃ call ∈ twoParties.installs oneEach, ∃ text record,
      (twoParties.run oneEach).disk.get? (recordPlace ["g"]) = some (.file (.text text)) ∧
      InstallRecord.read? text = some record ∧ record.note? call.language.grammarName = none := by
  obtain ⟨hinstalls, hsaves⟩ := oneEach_installs
  have hsettled : ∀ party, (twoParties.sites party).Settled ["g"] := fun party => (twoParties_opened party).settled
  have hfile := (file_run hsettled hsaves).2 ⟨true, .go, 2⟩ (by rw [hinstalls]; rfl)
  have hread := InstallRecord.read?_write (settled_run hsettled hsaves true).distinct
  refine ⟨twoParties_opened, hsaves, ⟨false, .c, 1⟩, by rw [hinstalls]; decide, _, _, hfile, hread, ?_⟩
  have hempty : (twoParties.sites true).record.note? "c" = none := by decide +kernel
  rw [record_run hsettled hsaves, hinstalls]
  rcases note?_recordAll (twoParties.sites true).record (oneEach.filter (·.party = true)) "c" with
    ⟨call, hmem, hname, -⟩ | ⟨-, hnote⟩
  · obtain rfl := List.mem_singleton.mp hmem
    exact absurd hname (by decide)
  · exact hnote.trans hempty

end SharedDirectory

end CodeMarkup
