import CodeMarkup.Proofs.Install.Confined

/-!
# Installing again

A grammar that was made sure of is usable (`isUsable_of_ensure`), and nothing is done for it again as long as it stays
so. With confined tools, a call for another grammar takes neither its library nor its note away (`stands_ensure`), and
it leaves the directory within reach, even if it fails (`reached_ensure`). So whatever is asked for in between, the
grammar counts as installed ever after (`ensure_idempotent`).
-/

namespace CodeMarkup.Site

variable {site after : Site} {language member : Builtin}

/-! ## One call -/

/-- Clearing the way for a library leaves the directory within reach, -/
theorem reached_cleared (h : site.Reached) (language : Builtin) : (site.cleared language).Reached := by
  have hsetting := sameSetting_cleared site language
  constructor
  rw [hsetting.current, hsetting.directory]
  refine h.path.mono fun place hplace => ?_
  unfold cleared
  split
  · simp only [discardLibrary, tryDisk]
    split
    · rename_i hremove
      exact Disk.directory_of_removeFile language.isEntry_libraryName hremove hplace
    · exact hplace
  · exact hplace

/-- so does work on it, -/
theorem Worked.reached {made : Site} (h : site.Worked made language) (hconfined : site.Confined)
    (hreached : site.Reached) : made.Reached := by
  have hcleared := (reached_cleared hreached language).path
  rw [(sameSetting_cleared site language).current, (sameSetting_cleared site language).directory] at hcleared
  constructor
  rw [h.setting.current, h.setting.directory]
  exact hcleared.of_way fun place hplace hentry =>
    (h.spares hconfined place fun call _ hmay => hmay.2 hplace).get?_eq_some hentry

/-- and so does a whole call, however it ends. -/
theorem reached_ensure (hconfined : site.Confined) (h : site.Reached) (language : Builtin) :
    (stateAfter (ensure language site)).Reached :=
  ensure_of_worked Reached (fun _ hmade => hmade.reached hconfined h) fun _ _ => reached_noted

/-- After a call for another grammar, a library stands that stood. -/
theorem stands_ensure (hconfined : site.Confined) (hne : member ≠ language) (h : site.Stands member) :
    (stateAfter (ensure language site)).Stands member := by
  refine ensure_of_worked (·.Stands member) (fun made hmade => ⟨?_, ?_⟩) fun made _ hstands => ?_
  · rw [hmade.setting.place]
    exact (hmade.library hconfined hne).isSome h.library
  · rw [isOutdated, hmade.record]
    exact h.upToDate
  · exact stands_noted hstands.library fun _ => hstands.upToDate

/-- **A call leaves a usable grammar usable**, whatever it is for and however it ends. -/
theorem isUsable_ensure (hconfined : site.Confined) (h : site.isUsable member = true) (language : Builtin) :
    (stateAfter (ensure language site)).isUsable member = true := by
  by_cases hmember : member = language
  · rw [ensure_eq, ← hmember, if_pos h]
    exact h
  · obtain ⟨hreached, hstands⟩ := isUsable_iff.mp h
    exact isUsable_iff.mpr ⟨reached_ensure hconfined hreached language, stands_ensure hconfined hmember hstands⟩

/-! ## Calls in between -/

/-- A later call: what it is for, and with which tools and at what time. -/
structure Visit where
  /-- the language asked for -/
  language : Builtin
  /-- the tools at the time -/
  tools : String → Option Tool
  /-- the time -/
  now : Nat

/-- The site when a call is made. -/
def arrive (site : Site) (visit : Visit) : Site :=
  site.withHost { site.host with tools := visit.tools, now := visit.now }

/-- What a call leads to, however it ends. -/
def visit (site : Site) (visit : Visit) : Site :=
  stateAfter (ensure visit.language (site.arrive visit))

theorem isUsable_arrive (site : Site) (visit : Visit) (member : Builtin) :
    (site.arrive visit).isUsable member = site.isUsable member :=
  rfl

/-- What a call leaves is the same to the next one as it was before, but for the disk and the record. -/
theorem sameSetting_arrive (site : Site) (first next : Visit) :
    SameSetting (site.arrive next) ((site.visit first).arrive next) := by
  have hsetting := sameSetting_ensure (site.arrive first) first.language
  exact ⟨hsetting.directory, hsetting.current, rfl, rfl⟩

/-- A usable grammar is usable after any calls. -/
theorem isUsable_foldl_visit {visits : List Visit} (hvisits : ∀ visit ∈ visits, (site.arrive visit).Confined)
    (h : site.isUsable member = true) : (visits.foldl Site.visit site).isUsable member = true := by
  induction visits generalizing site with
  | nil => exact h
  | cons first rest ih =>
    refine ih (fun next hmem => ?_) (isUsable_ensure (hvisits first List.mem_cons_self) h first.language)
    exact (sameSetting_arrive site first next).confined (hvisits next (List.mem_cons_of_mem _ hmem))

/-- **Installing is idempotent.** If a grammar was made sure of, its library is there and not outdated, and to make sure
of it again does nothing, runs no tool and changes nothing, whatever calls come in between and however they end: these
may be for any languages, with any confined tools and at any times. -/
theorem ensure_idempotent {site after : Site} {language : Builtin} {result : InstallResult}
    (hwrites : site.host.WritesOutput) (h : ensure language site = .ok result after) :
    after.isInstalled language = true ∧ after.isOutdated language = false ∧
      ∀ visits : List Visit, (∀ visit ∈ visits, (after.arrive visit).Confined) →
        ∀ again : Visit, again.language = language →
          let last := (visits.foldl Site.visit after).arrive again
          ensure again.language last = .ok .alreadyInstalled last := by
  have husable := isUsable_of_ensure hwrites h
  refine ⟨(isUsable_iff_contains.mp husable).1, (isUsable_iff_contains.mp husable).2, ?_⟩
  rintro visits hvisits again rfl
  have hlast := isUsable_foldl_visit hvisits husable
  rw [← isUsable_arrive _ again] at hlast
  exact ensure_of_isInstalled (isUsable_iff_contains.mp hlast).2 (isUsable_iff_contains.mp hlast).1

theorem writesOutput_of_layingTools (htools : site.host.tools = layingTools) : site.host.WritesOutput := by
  intro compiler hcompiler earlier current arguments target disk
  rw [htools] at hcompiler
  obtain rfl : layingCompiler = compiler := Option.some.inj hcompiler
  dsimp only
  unfold layingCompiler
  split
  · exact nofun
  · dsimp only
    split
    · rename_i hthere
      intro _
      simpa using hthere
    · exact nofun

/-- After TypeScript, Rust is asked for, which fails, and TSX, which is there. -/
def laterVisits : List Visit :=
  [⟨.rust, layingTools, 5⟩, ⟨.tsx, layingTools, 7⟩]

/-- TypeScript is not made again after that. -/
theorem ensure_idempotent_pairSite : pairSite.host.WritesOutput ∧ ∃ result after,
    ensure .typeScript pairSite = .ok result after ∧
      (∀ visit ∈ laterVisits, (after.arrive visit).Confined) ∧
      after.isInstalled .typeScript = true ∧
      let last := (laterVisits.foldl Site.visit after).arrive ⟨.typeScript, layingTools, 9⟩
      ensure .typeScript last = .ok .alreadyInstalled last := by
  have hwrites : pairSite.host.WritesOutput := writesOutput_of_layingTools rfl
  obtain ⟨result, after, h, -⟩ := exists_of_reportsInstall pairSite_reports
  have hvisits : ∀ visit ∈ laterVisits, (after.arrive visit).Confined := by
    have hup : ".." ∉ Path.names after.directory := by
      rw [(sameSetting_of_ensure h).directory]
      decide +kernel
    intro visit hmem
    refine confined_of_layingTools ?_ hup
    rcases List.mem_cons.mp hmem with rfl | hmem
    · rfl
    · obtain rfl := List.mem_singleton.mp hmem
      rfl
  obtain ⟨hinstalled, -, hagain⟩ := ensure_idempotent hwrites h
  exact ⟨hwrites, result, after, h, hvisits, hinstalled,
    hagain laterVisits hvisits ⟨.typeScript, layingTools, 9⟩ rfl⟩

end CodeMarkup.Site
