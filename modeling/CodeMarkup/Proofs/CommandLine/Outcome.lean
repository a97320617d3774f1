import CodeMarkup.CommandLine.Program
import CodeMarkup.Proofs.Install.Usable
import CodeMarkup.Proofs.Render.Fresh

/-!
# What a run comes to

A run that is to draw a file prints the markup of the file, or it prints nothing and has one of six faults
(`outcome_of_run`). Which it is depends on what the program meets with first: a script that fails, no file, a file
that cannot be read, a key that no language has, grammars that cannot be had, or grammars that do not load. No other
fault of a drawing can come up here, because the program has chosen the language and the theme from what there is, and
draws for the first time (`Renderer.ofGrammars_of_render`).

The markup is the one that a renderer with a fresh highlighter draws for the request that the script and the command
line make up together. Until then nothing has been changed, whatever went wrong. All this is so for any engine that
runs the scripts: what it makes of one is a `Draft`, or a fault of the configuration.

The markup need not be all of the output. What a script tells to whoever debugs it is there before, and so is what the
tool writes that fetches repositories (`not_only_markup`). It is all if the script tells nothing, and either that tool
writes nothing or nothing may be installed.
-/

namespace CodeMarkup

/-! ## Renderers that install nothing -/

/-- **A language that is not installed** when it is missing: it is not highlighted, or may only be looked for. -/
def Language.IsLookedFor (language : Language) : Prop :=
  language.supplier = none ∨ ∃ builtin, language.supplier = some (.installed builtin false)

theorem Renderer.keeps_site_resolve {language : Language} (h : language.IsLookedFor) (site : Site) :
    Keeps (fun renderer : Renderer => renderer.site = site) (resolve language) := by
  rintro renderer rfl
  rw [resolve]
  rcases h with hnone | ⟨builtin, hinstalled⟩
  · rw [hnone]
    rfl
  · have hsupply := Site.supply_off builtin renderer.site
    rw [hinstalled]
    simp only [Supplier.fetch]
    split at hsupply
    · obtain ⟨bundle, hsupply⟩ := hsupply
      simp only [hsupply]
      split <;> rfl
    · simp only [hsupply]
      split <;> rfl

theorem Renderer.keeps_site_ensureLoaded (resolution : Resolution) (site : Site) :
    Keeps (fun renderer : Renderer => renderer.site = site) (ensureLoaded resolution) := by
  rintro renderer rfl
  unfold ensureLoaded
  dsimp only
  split
  · rfl
  · split <;> rfl

/-- **Drawing leaves the site alone** if the language is not installed when it is missing. -/
theorem Renderer.keeps_site_render {request : Request} {language : Language} (hlanguage : request.language = some language)
    (h : language.IsLookedFor) (site : Site) :
    Keeps (fun renderer : Renderer => renderer.site = site) (render request) := by
  unfold render
  split
  · exact keeps_pure _
  · rename_i other hhighlighted
    obtain rfl := Option.some.inj (hlanguage.symm.trans (Option.filter_eq_some_iff.mp hhighlighted).1)
    refine (keeps_site_resolve h site).bind fun resolution => (keeps_site_ensureLoaded resolution site).bind fun _ =>
      keeps_get_bind fun renderer _ => ?_
    split
    · exact keeps_pure _
    · exact keeps_throw _

namespace Program

/-! ## What a run depends on -/

/-- The catalog to select from: its languages may be installed if neither the script nor the command line minds. -/
def catalog (settings : Settings) (arguments : Arguments) : Catalog :=
  .builtin (settings.autoInstall && !arguments.noInstall)

/-- **The language that a file is to be drawn in**: the one that was asked for, or else the one of its path. -/
inductive Selected (catalog : Catalog) (arguments : Arguments) (path : String) : Language → Prop where
  /-- a language was asked for -/
  | asked {key : String} {language : Language} (hasked : arguments.language = some key)
      (hget : catalog.get? key = some language) : Selected catalog arguments path language
  /-- none was -/
  | detected (hnone : arguments.language = none) :
      Selected catalog arguments path (catalog.detect (.ofString path))

/-- **The request for a file**: the command line decides what it says something about, and the settings the rest. -/
def request (settings : Settings) (arguments : Arguments) (code : String) (language : Language) : Request where
  code := code
  language := some language
  lines := arguments.lines.getD settings.lines
  theme := Theme.resolve (arguments.theme.getD settings.theme) (settings.dark || arguments.dark)

/-- The program as a script leaves it: nothing is changed, but something may be written. -/
def scripted (world : ProgramWorld) (draft : Draft) : ProgramState :=
  ⟨world, draft.written⟩

/-- The settings are configured and the file is read. -/
structure Ready (engine : Script.Engine) (arguments : Arguments) (world : ProgramWorld) (draft : Draft)
    (path code : String) : Prop where
  /-- this is what the script has made -/
  configured : configured engine arguments world = (draft, .ok ())
  /-- the file was given -/
  given : arguments.file = some path
  /-- it has this text -/
  read : world.host.disk.readText world.host.current path = .ok code

/-- **What a run that is to draw a file comes to.** -/
inductive Outcome (engine : Script.Engine) (arguments : Arguments) (world : ProgramWorld) :
    EStateM.Result ProgramFault ProgramState String → Prop where
  /-- the script has failed -/
  | config {draft : Draft} {fault : ConfigFault}
      (hconfigured : configured engine arguments world = (draft, .error fault)) :
      Outcome engine arguments world (.error (.config fault) (scripted world draft))
  /-- no file was given -/
  | missingInput {draft : Draft} (hconfigured : configured engine arguments world = (draft, .ok ()))
      (hnone : arguments.file = none) :
      Outcome engine arguments world (.error .missingInput (scripted world draft))
  /-- the file cannot be read -/
  | file {draft : Draft} {path : String} {fault : FileFault}
      (hconfigured : configured engine arguments world = (draft, .ok ())) (hgiven : arguments.file = some path)
      (hread : world.host.disk.readText world.host.current path = .error fault) :
      Outcome engine arguments world (.error (.file fault) (scripted world draft))
  /-- a language was asked for that there is not -/
  | unknownLanguage {draft : Draft} {path code key : String}
      (hready : Ready engine arguments world draft path code) (hasked : arguments.language = some key)
      (hget : (catalog draft.settings arguments).get? key = none) :
      Outcome engine arguments world (.error (.unknownLanguage key) (scripted world draft))
  /-- the grammars cannot be had, or do not load -/
  | grammars {draft : Draft} {path code : String} {language : Language} {fault : RenderFault}
      {renderer : Renderer} (hready : Ready engine arguments world draft path code)
      (hselected : Selected (catalog draft.settings arguments) arguments path language)
      (hrender : Renderer.render (request draft.settings arguments code language)
        (freshRenderer world draft.settings.grammarsDirectory) = .error fault renderer) (hfault : fault.OfGrammars) :
      Outcome engine arguments world (.error (.render fault) ((scripted world draft).withHost renderer.site.host))
  /-- the markup is printed -/
  | printed {draft : Draft} {path code : String} {language : Language} {markup : String}
      {renderer : Renderer} (hready : Ready engine arguments world draft path code)
      (hselected : Selected (catalog draft.settings arguments) arguments path language)
      (hrender : Renderer.render (request draft.settings arguments code language)
        (freshRenderer world draft.settings.grammarsDirectory) = .ok markup renderer) :
      Outcome engine arguments world (.ok (markup ++ "\n") ((scripted world draft).withHost renderer.site.host))

/-! ## Step by step -/

section Steps

variable {engine : Script.Engine} {arguments : Arguments} {world : ProgramWorld} {draft : Draft}
  {settings : Settings} {path code : String} {language : Language}

/-- The settings in force are those of the script, with the command line on top. -/
theorem settings_eq : Program.settings engine arguments (.start world) =
    match configured engine arguments world with
    | (draft, .ok ()) => .ok (draft.settings.override arguments) (scripted world draft)
    | (draft, .error fault) => .error (.config fault) (scripted world draft) := by
  rw [Program.settings, ProgramState.start]
  rcases configured engine arguments world with ⟨draft, fault | _⟩ <;>
    simp only [String.empty_append, scripted]

/-- A selected language is the one that the program chooses. -/
theorem Selected.chooseLanguage_eq {catalog : Catalog} (h : Selected catalog arguments path language)
    (state : ProgramState) : chooseLanguage catalog arguments path state = .ok language state := by
  cases h with
  | asked hasked hget =>
    simp only [chooseLanguage, hasked, hget]
    rfl
  | detected hnone =>
    simp only [chooseLanguage, hnone]
    rfl

/-- A language is selected from a catalog, or none has the key that was asked for. -/
theorem exists_selected (catalog : Catalog) (arguments : Arguments) (path : String) :
    (∃ language, Selected catalog arguments path language) ∨
      ∃ key, arguments.language = some key ∧ catalog.get? key = none := by
  rcases hasked : arguments.language with _ | key
  · exact Or.inl ⟨_, .detected hasked⟩
  · rcases hget : catalog.get? key with _ | language
    · exact Or.inr ⟨key, rfl, hget⟩
    · exact Or.inl ⟨language, .asked hasked hget⟩

/-- A selected language is built in, or not highlighted. -/
theorem Selected.builtin {auto : Bool} (h : Selected (.builtin auto) arguments path language) :
    language = .plaintext ∨ ∃ builtin, language = .ofBuiltin auto builtin := by
  cases h with
  | asked _ hget => exact Catalog.of_mem_builtin (Catalog.mem_of_get? hget)
  | detected => exact (Catalog.mem_or_eq_of_detect _ _).elim Or.inl Catalog.of_mem_builtin

/-- Drawing on a fresh display is drawing with its renderer, as the display has asked for no language before. -/
theorem draw_eq {request : Request} (hlanguage : request.language = some language) (directory : String)
    (state : ProgramState) :
    draw directory request state = match Renderer.render request (freshRenderer state.world directory) with
      | .ok markup renderer => .ok markup (state.withHost renderer.site.host)
      | .error fault renderer => .error (.render fault) (state.withHost renderer.site.host) := by
  have hdiffers : ((Change.request request).apply
      (Display.ofRenderer (freshRenderer state.world directory)).request).same
      (Display.ofRenderer (freshRenderer state.world directory)).request = false := by
    simp [Change.apply, Request.same, Request.sameLanguage, hlanguage, Display.ofRenderer, Request.initial]
  rw [draw, Display.change_of_differs hdiffers]
  simp only [Change.apply, Display.ofRenderer]
  rcases Renderer.render request (freshRenderer state.world directory) with ⟨markup, renderer⟩ | ⟨fault, renderer⟩
  · rfl
  · rfl

/-- **What is wrong with a drawing of the program is wrong with the grammars.** -/
theorem ofGrammars_of_draw {fault : RenderFault} {renderer : Renderer} {directory : String}
    (hparser : world.parser.Total) (hselected : Selected (catalog settings arguments) arguments path language)
    (h : Renderer.render (request settings arguments code language) (freshRenderer world directory)
      = .error fault renderer) : fault.OfGrammars :=
  Renderer.ofGrammars_of_render rfl hparser rfl hselected.builtin (Highlighter.exists_of_resolve _ _ _) h

/-- What is printed, once the settings are configured. -/
theorem output_of_configured (hconfigured : configured engine arguments world = (draft, .ok ()))
    (hlist : arguments.listLanguages = false) :
    output engine arguments (.start world) = (match arguments.file with
      | none => throw .missingInput
      | some path => do
        let code ← readFile path
        let language ← chooseLanguage (catalog draft.settings arguments) arguments path
        let markup ← draw draft.settings.grammarsDirectory (request draft.settings arguments code language)
        return markup ++ "\n" : ProgramM String) (scripted world draft) := by
  have hsettings : Program.settings engine arguments (.start world) =
      .ok (draft.settings.override arguments) (scripted world draft) := by
    rw [settings_eq, hconfigured]
  simp only [output, bind, EStateM.bind, hsettings, hlist]
  rfl

/-- What is printed, once the file is read. -/
theorem Ready.output_eq (h : Ready engine arguments world draft path code) (hlist : arguments.listLanguages = false) :
    output engine arguments (.start world) = (do
      let language ← chooseLanguage (catalog draft.settings arguments) arguments path
      let markup ← draw draft.settings.grammarsDirectory (request draft.settings arguments code language)
      return markup ++ "\n" : ProgramM String) (scripted world draft) := by
  have hread : readFile path (scripted world draft) = .ok code (scripted world draft) := by
    simp only [readFile, scripted, h.read]
  rw [output_of_configured h.configured hlist, h.given]
  exact bind_apply_of_ok hread _

/-- What is printed, once the language is selected. -/
theorem Selected.output_eq (hselected : Selected (catalog draft.settings arguments) arguments path language)
    (hready : Ready engine arguments world draft path code) (hlist : arguments.listLanguages = false) :
    output engine arguments (.start world) = match Renderer.render (request draft.settings arguments code language)
        (freshRenderer world draft.settings.grammarsDirectory) with
      | .ok markup renderer => .ok (markup ++ "\n") ((scripted world draft).withHost renderer.site.host)
      | .error fault renderer =>
        .error (.render fault) ((scripted world draft).withHost renderer.site.host) := by
  rw [hready.output_eq hlist]
  simp only [bind, EStateM.bind, hselected.chooseLanguage_eq,
    @draw_eq language (request draft.settings arguments code language) rfl, scripted]
  rcases Renderer.render (request draft.settings arguments code language)
    (freshRenderer world draft.settings.grammarsDirectory) with ⟨markup, renderer⟩ | ⟨fault, renderer⟩ <;> rfl

/-! ## Runs -/

/-- **A run comes to any outcome whose conditions are met.** -/
theorem Outcome.output_eq {result : EStateM.Result ProgramFault ProgramState String}
    (h : Outcome engine arguments world result) (hlist : arguments.listLanguages = false) :
    output engine arguments (.start world) = result := by
  cases h with
  | config hconfigured => simp only [output, bind, EStateM.bind, settings_eq, hconfigured]
  | missingInput hconfigured hnone =>
    rw [output_of_configured hconfigured hlist, hnone]
    rfl
  | @file draft path fault hconfigured hgiven hread =>
    have hfile : readFile path (scripted world draft) = .error (.file fault) (scripted world draft) := by
      simp only [readFile, scripted, hread]
    rw [output_of_configured hconfigured hlist, hgiven]
    exact bind_apply_of_error hfile _
  | unknownLanguage hready hasked hget =>
    rw [hready.output_eq hlist]
    simp only [bind, EStateM.bind, chooseLanguage, hasked, hget]
    rfl
  | grammars hready hselected hrender => rw [hselected.output_eq hready hlist, hrender]
  | printed hready hselected hrender => rw [hselected.output_eq hready hlist, hrender]

/-- **The conditions of some outcome are always met.** -/
theorem exists_outcome (hparser : world.parser.Total) (engine : Script.Engine) (arguments : Arguments) :
    ∃ result, Outcome engine arguments world result := by
  rcases hconfigured : configured engine arguments world with ⟨draft, fault | _⟩
  · exact ⟨_, .config hconfigured⟩
  rcases hgiven : arguments.file with _ | path
  · exact ⟨_, .missingInput hconfigured hgiven⟩
  rcases hread : world.host.disk.readText world.host.current path with fault | code
  · exact ⟨_, .file hconfigured hgiven hread⟩
  have hready : Ready engine arguments world draft path code := ⟨hconfigured, hgiven, hread⟩
  rcases exists_selected (catalog draft.settings arguments) arguments path with ⟨language, hselected⟩ |
    ⟨key, hasked, hget⟩
  · rcases hrender : Renderer.render (request draft.settings arguments code language)
      (freshRenderer world draft.settings.grammarsDirectory) with ⟨markup, renderer⟩ | ⟨fault, renderer⟩
    · exact ⟨_, .printed hready hselected hrender⟩
    · exact ⟨_, .grammars hready hselected hrender (ofGrammars_of_draw hparser hselected hrender)⟩
  · exact ⟨_, .unknownLanguage hready hasked hget⟩

/-! ## The whole output -/

/-- A tool that writes nothing when it fetches is not heard. -/
theorem heard_eq_nil {voice : Voice} (h : ∀ earlier call, Site.sharesOutput call = true → voice earlier call = [])
    (count : Nat) (calls : List Call) : Site.heard voice count calls = [] := by
  induction calls generalizing count with
  | nil => cases count <;> rfl
  | cons call earlier ih =>
    rcases count with _ | count
    · rfl
    · rw [Site.heard, ih, List.nil_append]
      split
      · exact h earlier call ‹_›
      · rfl

/-- A language of a catalog that may not install is only looked for. -/
theorem Selected.isLookedFor (h : Selected (catalog settings arguments) arguments path language)
    (hoff : (settings.autoInstall && !arguments.noInstall) = false) : language.IsLookedFor := by
  rw [catalog, hoff] at h
  rcases h.builtin with rfl | ⟨builtin, rfl⟩
  · exact Or.inl rfl
  · exact Or.inr ⟨builtin, rfl⟩

/-- **Nothing is changed, and no tool is run, where nothing may be installed.** -/
theorem Outcome.world_eq {text : String} {after : ProgramState} (h : Outcome engine arguments world (.ok text after))
    (hoff : ((configured engine arguments world).1.settings.autoInstall && !arguments.noInstall) = false) :
    after.world = world := by
  cases h with
  | @printed draft path code language markup renderer hready hselected hrender =>
    rw [hready.configured] at hoff
    have hsite := (Renderer.keeps_site_render rfl (hselected.isLookedFor hoff) _).done hrender rfl
    rw [ProgramState.withHost, hsite]
    rfl

/-- **A run prints the markup of its file, or has one of six faults.** A run that is not asked for a list of
languages comes to one of the outcomes, and to the one whose conditions are met; so no drawing is given up for want of
a supplier, a grammar in the table, a theme or a tree. The program writes the markup to its output, behind what the
script and the tool that fetches repositories have written there, and says nothing of a fault; or it says what the
fault is, and prints nothing. The markup is all of the output if the script has told nothing, and either nothing may be
installed or that tool writes nothing.

The parser is taken to give a tree for whatever can be driven. -/
theorem outcome_of_run (parts : ProgramParts) (hparser : world.parser.Total)
    (hlist : arguments.listLanguages = false) :
    (∀ result, output parts.engine arguments (.start world) = result ↔
      Outcome parts.engine arguments world result) ∧
    (∀ texts, CommandLine.read texts = .ok arguments → runWith parts texts world =
      match output parts.engine arguments (.start world) with
      | .ok text after => (⟨0, sharedOutput parts.voice world after, text, ""⟩, after.world)
      | .error fault after =>
        (⟨1, sharedOutput parts.voice world after, "", "lark-highlight: " ++ fault.message ++ "\n"⟩, after.world)) ∧
    ∀ texts text after, CommandLine.read texts = .ok arguments →
      output parts.engine arguments (.start world) = .ok text after →
      (configured parts.engine arguments world).1.written = "" →
      ((configured parts.engine arguments world).1.settings.autoInstall && !arguments.noInstall) = false ∨
        (∀ earlier call, Site.sharesOutput call = true → parts.voice earlier call = []) →
      (runWith parts texts world).1.bytes = Text.Utf8.encode text := by
  have houtcome : ∀ result, output parts.engine arguments (.start world) = result ↔
      Outcome parts.engine arguments world result := by
    intro result
    constructor
    · rintro rfl
      obtain ⟨result, houtcome⟩ := exists_outcome hparser parts.engine arguments
      exact houtcome.output_eq hlist ▸ houtcome
    · exact fun houtcome => houtcome.output_eq hlist
  refine ⟨houtcome, fun texts hread => ?_, fun texts text after hread hprinted hwritten hquiet => ?_⟩
  · rcases houtput : output parts.engine arguments (.start world) with ⟨text, after⟩ | ⟨fault, after⟩ <;>
      simp only [runWith, hread, houtput]
  · have hreached := (houtcome _).mp hprinted
    have hscript : after.written = "" := by
      cases hreached with
      | printed hready =>
        rw [hready.configured] at hwritten
        exact hwritten
    have hheard : Site.heard parts.voice (after.world.host.calls.length - world.host.calls.length)
        after.world.host.calls = [] := by
      rcases hquiet with hoff | hsilent
      · rw [hreached.world_eq hoff, Nat.sub_self]
        cases world.host.calls <;> rfl
      · exact heard_eq_nil hsilent _ _
    simp only [runWith, hread, hprinted, Ending.bytes, sharedOutput, hscript, hheard, Text.Utf8.encode_empty,
      List.nil_append]

end Steps

/-- A file, of which a line is to be marked, is to be drawn on a dark ground. -/
def darkArguments : Arguments :=
  { Arguments.none with file := some "a.ts", lines := some ⟨[⟨2, 2⟩]⟩, dark := true }

/-- A world in which the libraries of TypeScript and of what it depends on are installed. -/
def typedWorld : ProgramWorld where
  host := ⟨⟨[(["a.ts"], .file (.text "x\n")), (["h"], .directory), (["h", ".config"], .directory),
    (["h", ".config", "lark"], .directory), (["h", ".config", "lark", "grammars"], .directory),
    (["h", ".config", "lark", "grammars", "libtsx.so"],
      .file (.library [("tree_sitter_tsx", ⟨"tsx", 14⟩)])),
    (["h", ".config", "lark", "grammars", "libtypescript.so"],
      .file (.library [("tree_sitter_typescript", ⟨"typescript", 13⟩)]))]⟩, fun _ => none, [], 0, []⟩
  home := "/h"
  parser := fun _ _ => some ⟨⟨"identifier", true, 0, 1, 0, 0, none⟩, .empty⟩

/-- The script that counts without being named is not there, so nothing is changed. -/
theorem configured_typed : configured .basic darkArguments typedWorld = (⟨.initial "/h", ""⟩, .ok ()) := by
  have hmissing : typedWorld.host.disk.contains typedWorld.host.current
      (Settings.defaultScript typedWorld.home) = false := by decide +kernel
  rw [configured, darkArguments, Arguments.none]
  exact if_neg (Bool.not_eq_true _ ▸ hmissing)

/-- The file is drawn, and its markup is all of the output. -/
theorem outcome_of_run_typed : ∃ language markup renderer,
    Selected (.builtin true) darkArguments "a.ts" language ∧
      Renderer.render ⟨"x\n", some language, ⟨[⟨2, 2⟩]⟩, "tailwind-dark"⟩
        (freshRenderer typedWorld (Settings.initial "/h").grammarsDirectory) = .ok markup renderer ∧
      (run ["a.ts", "--dark", "--highlight", "2"] typedWorld).1.code = 0 ∧
      (run ["a.ts", "--dark", "--highlight", "2"] typedWorld).1.bytes = Text.Utf8.encode (markup ++ "\n") := by
  have hread : CommandLine.read ["a.ts", "--dark", "--highlight", "2"] = .ok darkArguments := by rfl
  have hdrawn : isDone (output .basic darkArguments (.start typedWorld)) = true := by decide +kernel
  obtain ⟨houtcome, hrun, hbytes⟩ := @outcome_of_run darkArguments typedWorld .basic (fun _ _ _ => ⟨_, rfl⟩) rfl
  have hrun := hrun _ hread
  obtain ⟨text, after, houtput⟩ := exists_of_isDone hdrawn
  have hbytes := hbytes _ _ _ hread houtput (congrArg (·.1.written) configured_typed) (Or.inr fun _ _ _ => rfl)
  simp only [ProgramParts.basic, houtput] at hrun
  cases (houtcome _).mp houtput with
  | @printed draft path code language markup renderer hready hselected hrender =>
    obtain rfl : draft = ⟨.initial "/h", ""⟩ := congrArg Prod.fst (hready.configured.symm.trans configured_typed)
    obtain rfl : path = "a.ts" := Option.some.inj hready.given.symm
    obtain rfl : code = "x\n" := Except.ok.inj (hready.read.symm.trans rfl)
    exact ⟨language, markup, renderer, hselected, hrender, congrArg (·.1.code) hrun, hbytes⟩

/-- A world with a script that tells something. -/
def toldWorld : ProgramWorld where
  host := ⟨⟨[(["a.txt"], .file (.text "x")), (["c.rhai"], .file (.text "debug(true);"))]⟩, fun _ => none, [], 0, []⟩
  home := "/h"
  parser := typedWorld.parser

/-- **The markup need not be all of the output.** What a script tells to whoever debugs it is written there before,
so that a run which succeeds need not have written its markup only. -/
theorem not_only_markup :
    ¬∀ (texts : List String) (arguments : Arguments) (world : ProgramWorld),
      world.parser.Total → CommandLine.read texts = .ok arguments → arguments.listLanguages = false →
      (run texts world).1.code = 0 → ∃ draft path code language markup renderer,
        Ready .basic arguments world draft path code ∧
        Selected (catalog draft.settings arguments) arguments path language ∧
        Renderer.render (request draft.settings arguments code language)
          (freshRenderer world draft.settings.grammarsDirectory) = .ok markup renderer ∧
        (run texts world).1.bytes = Text.Utf8.encode (markup ++ "\n") := by
  intro hall
  let texts := ["a.txt", "--config", "c.rhai"]
  let arguments : Arguments := { Arguments.none with file := some "a.txt", config := some "c.rhai" }
  have hread : CommandLine.read texts = .ok arguments := by rfl
  have hcode : (run texts toldWorld).1.code = 0 := by decide +kernel
  obtain ⟨draft, path, code, language, markup, renderer, hready, hselected, hrender, hbytes⟩ :=
    hall texts arguments toldWorld (fun _ _ _ => ⟨_, rfl⟩) hread rfl hcode
  have houtput := (Outcome.printed hready hselected hrender).output_eq rfl
  have hprinted : (run texts toldWorld).1.printed = markup ++ "\n" := by
    simp only [run, runWith, hread, ProgramParts.basic, houtput]
  rw [← hprinted] at hbytes
  exact absurd hbytes (by decide +kernel)

end CodeMarkup.Program
