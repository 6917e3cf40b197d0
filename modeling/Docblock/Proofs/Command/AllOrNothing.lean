import Docblock.Proofs.Command.Logging
import Docblock.Proofs.Files.Writing
import Docblock.Proofs.Run.Contract

namespace Docblock

/-! A command writes its whole document to one place, or nothing at all. -/

namespace Settings

/-- No file makes the run give up. -/
def GoesThrough (settings : Settings) (files : List SourceFile) : Prop :=
  settings.keepGoing = true ∨ ∀ file ∈ files, settings.statusOf file ≠ .malformed

theorem exists_failure_of_not_goesThrough {settings : Settings} {files : List SourceFile}
    (hstops : ¬ settings.GoesThrough files) :
    ∃ error, (settings.survey files).failure = some error := by
  obtain ⟨hkeep, hsome⟩ := not_or.mp hstops
  have hkeep : settings.keepGoing = false := Bool.eq_false_iff.mpr hkeep
  cases hfind : files.find? fun file => settings.statusOf file = .malformed with
  | none =>
      have hclean := List.find?_eq_none.mp hfind
      exact absurd (fun file hfile => by simpa using hclean file hfile) hsome
  | some file =>
      obtain ⟨hfile, before, after, hsplit, hbefore⟩ := List.find?_eq_some_iff_append.mp hfind
      have hclean : ∀ earlier ∈ before, settings.statusOf earlier ≠ .malformed := by
        simpa using hbefore
      obtain ⟨tags, contents, -, hsurvey⟩ :=
        survey_of_malformed hkeep hclean (by simpa using hfile) after
      rw [hsplit, hsurvey]
      exact ⟨_, rfl⟩

private theorem sections_eq_nil_iff (settings : Settings) (files : List SourceFile) :
    settings.sections files = [] ↔ settings.documented files = [] := by
  rw [← List.length_eq_zero_iff, length_sections, List.length_eq_zero_iff]

theorem plan_survey {settings : Settings} {files : List SourceFile}
    (hgoes : settings.GoesThrough files) :
    (settings.documented files = [] → settings.plan (settings.survey files) = .stop) ∧
    (settings.documented files ≠ [] → ∃ documented skipped,
      settings.plan (settings.survey files) =
        .deliver (settings.document files) documented skipped) := by
  rw [survey_eq hgoes, Ne, ← sections_eq_nil_iff]
  exact ⟨fun hnone => if_pos hnone, fun hsome => ⟨_, _, if_neg hsome⟩⟩

end Settings

namespace Command

def target (system : FileSystem) (format : Format) (path : Text) : Text :=
  if (system.view.kind? path).run = some .directory then
    Path.join path ("documentation.".toList ++ format.fileExtension)
  else path

/-- How the arguments set up a run, and the files that they select for it. -/
structure Selects (system : FileSystem) (arguments : Arguments) (settings : Settings)
    (files : List SourceFile) : Prop where
  table : (tableFor system.view arguments).run = .ok settings.table
  format : Format.ofName? (arguments.format.getD "markdown".toList) = some settings.format
  keepGoing : settings.keepGoing = arguments.keepGoing
  footer : settings.footer = !arguments.noFooter
  files : (Selection.files system.view settings.table.extensions arguments.inputName
    arguments.files).run = .ok files

/-- The files are selected, they go through, and a document that is to be kept can be. -/
def Succeeds (system : FileSystem) (arguments : Arguments) : Prop :=
  ∃ settings files, Selects system arguments settings files ∧ settings.GoesThrough files ∧
    (settings.documented files ≠ [] → ∀ path, arguments.output = some path → ∃ written,
      system.write (target system settings.format path) (settings.document files).encode =
        .ok written)

variable {system : FileSystem} {arguments : Arguments}

theorem Selects.unique {settings others : Settings} {files otherFiles : List SourceFile}
    (hselects : Selects system arguments settings files)
    (hothers : Selects system arguments others otherFiles) :
    settings = others ∧ files = otherFiles := by
  obtain ⟨table, format, keepGoing, footer⟩ := settings
  obtain ⟨otherTable, otherFormat, otherKeepGoing, otherFooter⟩ := others
  obtain rfl : table = otherTable := Except.ok.inj (hselects.table.symm.trans hothers.table)
  obtain rfl : format = otherFormat := Option.some.inj (hselects.format.symm.trans hothers.format)
  obtain rfl : keepGoing = otherKeepGoing := hselects.keepGoing.trans hothers.keepGoing.symm
  obtain rfl : footer = otherFooter := hselects.footer.trans hothers.footer.symm
  exact ⟨rfl, Except.ok.inj (hselects.files.symm.trans hothers.files)⟩

private theorem run_outputPath (format : Format) (output : Option Text) :
    (outputPath system.view format output).run = output.map (target system format) := by
  cases output with
  | none => rfl
  | some path =>
      simp only [outputPath, Id.run_bind, Option.map_some, target]
      split
      · rfl
      · rfl

theorem run_document (table : LanguageTable) (format : Format) :
    (document system.view arguments table format).run =
      match (Selection.files system.view table.extensions arguments.inputName
          arguments.files).run with
      | .error error => .answer (failure [] error.message error.causes)
      | .ok files =>
          let settings : Settings := ⟨table, format, arguments.keepGoing, !arguments.noFooter⟩
          conclude arguments settings (arguments.output.map (target system format))
            (settings.survey files) := by
  rw [document, Id.run_bind, run_outputPath]
  simp only [Id.run_bind]
  cases (Selection.files system.view table.extensions arguments.inputName arguments.files).run with
  | error error => rfl
  | ok files => rfl

theorem run_prepare_of_selects (hlist : arguments.listLanguages = false) {settings : Settings}
    {files : List SourceFile} (hselects : Selects system arguments settings files) :
    (prepare system.view arguments).run =
      conclude arguments settings (arguments.output.map (target system settings.format))
        (settings.survey files) := by
  obtain ⟨table, format, keepGoing, footer⟩ := settings
  obtain ⟨htable, hformat, rfl, rfl, hfiles⟩ := hselects
  have hdocument := @run_document system arguments table format
  rw [hfiles] at hdocument
  simp only [prepare, Id.run_bind, htable, hlist, hformat]
  exact hdocument

private theorem run_prepare_of_not_selects (hlist : arguments.listLanguages = false)
    (hnot : ∀ settings files, ¬ Selects system arguments settings files) :
    ∃ headline causes, (prepare system.view arguments).run =
      .answer (failure [] headline causes) := by
  cases htable : (tableFor system.view arguments).run with
  | error error =>
      simp only [prepare, Id.run_bind, htable]
      exact ⟨_, _, rfl⟩
  | ok table =>
      simp only [prepare, Id.run_bind, htable, hlist]
      cases hformat : Format.ofName? (arguments.format.getD "markdown".toList) with
      | none => exact ⟨_, _, rfl⟩
      | some format =>
          cases hfiles : (Selection.files system.view table.extensions arguments.inputName
              arguments.files).run with
          | error error =>
              have hdocument := @run_document system arguments table format
              rw [hfiles] at hdocument
              exact ⟨_, _, hdocument⟩
          | ok files =>
              have hselects : Selects system arguments
                  ⟨table, format, arguments.keepGoing, !arguments.noFooter⟩ files :=
                ⟨htable, hformat, rfl, rfl, hfiles⟩
              exact absurd hselects (hnot _ _)

/-- A command fails and leaves the files alone, has nothing to document, prints its document, or
keeps it in a file. -/
inductive Ends (system : FileSystem) (arguments : Arguments) : Ending → Prop where
  | fails (notices headline : Text) (causes : List Text) (warnings : List Warning)
      (hfails : ¬ Succeeds system arguments) :
      Ends system arguments ⟨failure notices headline causes, warnings, system.tree⟩
  | documentsNothing {settings : Settings} {files : List SourceFile} (diagnostics : Text)
      (warnings : List Warning) (hselects : Selects system arguments settings files)
      (hgoes : settings.GoesThrough files) (hnone : settings.documented files = []) :
      Ends system arguments ⟨⟨0, [], diagnostics⟩, warnings, system.tree⟩
  | prints {settings : Settings} {files : List SourceFile} (diagnostics : Text)
      (warnings : List Warning) (hselects : Selects system arguments settings files)
      (hgoes : settings.GoesThrough files) (hsome : settings.documented files ≠ [])
      (houtput : arguments.output = none) :
      Ends system arguments ⟨⟨0, settings.document files, diagnostics⟩, warnings, system.tree⟩
  | keeps {settings : Settings} {files : List SourceFile} {path : Text} {written : FileTree}
      (diagnostics : Text) (warnings : List Warning)
      (hselects : Selects system arguments settings files)
      (hgoes : settings.GoesThrough files) (hsome : settings.documented files ≠ [])
      (houtput : arguments.output = some path)
      (hwrite : system.write (target system settings.format path)
        (settings.document files).encode = .ok written) :
      Ends system arguments ⟨⟨0, [], diagnostics⟩, warnings, written⟩

private theorem ends_finish_of_selects {settings : Settings} {files : List SourceFile}
    (hselects : Selects system arguments settings files) (warnings : List Warning) :
    Ends system arguments
      (finish system warnings (conclude arguments settings
        (arguments.output.map (target system settings.format)) (settings.survey files))) := by
  by_cases hgoes : settings.GoesThrough files
  · obtain ⟨hstop, hdeliver⟩ := Settings.plan_survey hgoes
    by_cases hnone : settings.documented files = []
    · rw [conclude, hstop hnone]
      exact .documentsNothing _ warnings hselects hgoes hnone
    · obtain ⟨documented, skipped, hplan⟩ := hdeliver hnone
      rw [conclude, hplan]
      cases houtput : arguments.output with
      | none => exact .prints _ warnings hselects hgoes hnone houtput
      | some path =>
          simp only [Option.map_some, finish]
          cases hwrite : system.write (target system settings.format path)
              (settings.document files).encode with
          | ok written => exact .keeps _ warnings hselects hgoes hnone houtput hwrite
          | error fault =>
              simp only [saved]
              refine .fails _ _ _ warnings ?_
              rintro ⟨others, otherFiles, hothers, -, hkeeps⟩
              obtain ⟨rfl, rfl⟩ := hselects.unique hothers
              obtain ⟨written, hwritten⟩ := hkeeps hnone path houtput
              rw [hwrite] at hwritten
              contradiction
  · obtain ⟨error, hfailure⟩ := Settings.exists_failure_of_not_goesThrough hgoes
    have hplan : settings.plan (settings.survey files) = .fail error := by
      rw [Settings.plan, hfailure]
    rw [conclude, hplan]
    refine .fails _ _ _ warnings ?_
    rintro ⟨others, otherFiles, hothers, hothersGo, -⟩
    obtain ⟨rfl, rfl⟩ := hselects.unique hothers
    exact hgoes hothersGo

private theorem exists_execute_eq_finish {words : List Text}
    (hparse : Arguments.parse words = .ok arguments) (system : FileSystem) :
    ∃ warnings, execute system words =
      finish system warnings (prepare system.view arguments).run := by
  simp only [execute, hparse]
  exact ⟨_, congrArg (finish system _) (alike_prepare system.view arguments [])⟩

private theorem execute_ends {words : List Text} (hparse : Arguments.parse words = .ok arguments)
    (hlist : arguments.listLanguages = false) (system : FileSystem) :
    Ends system arguments (execute system words) := by
  obtain ⟨warnings, hending⟩ := exists_execute_eq_finish hparse system
  rw [hending]
  by_cases hselects : ∃ settings files, Selects system arguments settings files
  · obtain ⟨settings, files, hselects⟩ := hselects
    rw [run_prepare_of_selects hlist hselects]
    exact ends_finish_of_selects hselects warnings
  · obtain ⟨headline, causes, hprepare⟩ := run_prepare_of_not_selects hlist
      fun settings files hfiles => hselects ⟨settings, files, hfiles⟩
    rw [hprepare]
    refine .fails _ _ _ warnings ?_
    rintro ⟨settings, files, hfiles, -⟩
    exact hselects ⟨settings, files, hfiles⟩

/-- Whatever can be seen, read and written, a command exits with zero exactly when it can do all
that it is asked for.  If it cannot, or if no file is documented, it prints nothing and leaves
every file as it is.  Otherwise the whole document goes to one place: it is printed, or put in the
one file that its path stands for. -/
theorem run_writes_all_or_nothing {words : List Text} {arguments : Arguments}
    (hparse : Arguments.parse words = .ok arguments) (hlist : arguments.listLanguages = false)
    (system : FileSystem) :
    let ending := execute system words
    let response := ending.response
    (response.exitCode = 0 ↔ Succeeds system arguments) ∧
    (response.exitCode ≠ 0 → response.output = [] ∧ ending.tree = system.tree) ∧
    ∀ settings files, response.exitCode = 0 → Selects system arguments settings files →
      (settings.documented files = [] → response.output = [] ∧ ending.tree = system.tree) ∧
      (settings.documented files ≠ [] →
        match arguments.output with
        | none => response.output = settings.document files ∧ ending.tree = system.tree
        | some path =>
            response.output = [] ∧
              system.tree.Puts (target system settings.format path)
                (settings.document files).encode ending.tree) := by
  have hends := execute_ends hparse hlist system
  generalize execute system words = ending at hends
  cases hends with
  | fails notices headline causes warnings hfails =>
      refine ⟨⟨nofun, fun hsucceeds => absurd hsucceeds hfails⟩, fun _ => ⟨rfl, rfl⟩, ?_⟩
      exact fun settings files hzero => nomatch hzero
  | documentsNothing diagnostics warnings hselects hgoes hnone =>
      have hsucceeds : Succeeds system arguments :=
        ⟨_, _, hselects, hgoes, fun hsome => absurd hnone hsome⟩
      refine ⟨iff_of_true rfl hsucceeds, fun hzero => absurd rfl hzero, ?_⟩
      intro settings files _ hfiles
      obtain ⟨rfl, rfl⟩ := hselects.unique hfiles
      exact ⟨fun _ => ⟨rfl, rfl⟩, fun hsome => absurd hnone hsome⟩
  | prints diagnostics warnings hselects hgoes hsome houtput =>
      have hsucceeds : Succeeds system arguments :=
        ⟨_, _, hselects, hgoes, fun _ path hpath => by simp [houtput] at hpath⟩
      refine ⟨iff_of_true rfl hsucceeds, fun hzero => absurd rfl hzero, ?_⟩
      intro settings files _ hfiles
      obtain ⟨rfl, rfl⟩ := hselects.unique hfiles
      rw [houtput]
      exact ⟨fun hnone => absurd hnone hsome, fun _ => ⟨rfl, rfl⟩⟩
  | keeps diagnostics warnings hselects hgoes hsome houtput hwrite =>
      have hsucceeds : Succeeds system arguments := by
        refine ⟨_, _, hselects, hgoes, fun _ path hpath => ?_⟩
        obtain rfl := Option.some.inj (houtput.symm.trans hpath)
        exact ⟨_, hwrite⟩
      refine ⟨iff_of_true rfl hsucceeds, fun hzero => absurd rfl hzero, ?_⟩
      intro settings files _ hfiles
      obtain ⟨rfl, rfl⟩ := hselects.unique hfiles
      rw [houtput]
      exact ⟨fun hnone => absurd hnone hsome, fun _ => ⟨rfl, FileSystem.puts_of_write hwrite⟩⟩

def scriptsAndDirectory : FileTree :=
  ⟨["w".toList], [["w".toList, "docs".toList]],
    [(["w".toList, "a.py".toList], Text.encode "#@ @x: y @#".toList),
      (["w".toList, "b.py".toList], Text.encode "#@ @x: z @#".toList)]⟩

def lockedScript : FileSystem :=
  { FileSystem.ofTree scriptsAndDirectory [] with
    view :=
      { scriptsAndDirectory.view [] with
        read := fun path =>
          if path = "b.py".toList then .error (.other 13 "Permission denied".toList)
          else scriptsAndDirectory.read path } }

def scriptSettings : Settings :=
  ⟨.builtin, .markdown, false, true⟩

def scriptFile : SourceFile :=
  ⟨"a.py".toList, "#@ @x: y @#".toList⟩

def keepScript : List Text :=
  ["-o".toList, "docs".toList, "a.py".toList]

def keepBoth : List Text :=
  keepScript ++ ["b.py".toList]

theorem run_keeps_document_unless_unreadable :
    let kept := execute lockedScript keepScript
    let failed := execute lockedScript keepBoth
    (kept.response.exitCode = 0 ∧ kept.response.output = [] ∧
      scriptsAndDirectory.Puts "docs/documentation.md".toList
        (scriptSettings.document [scriptFile]).encode kept.tree) ∧
    failed.response.exitCode = 1 ∧ failed.response.output = [] ∧
      failed.tree = scriptsAndDirectory := by
  constructor
  · have hparse : Arguments.parse keepScript =
        .ok { files := ["a.py".toList], output := some "docs".toList } := by
      decide +kernel
    have hselects : Selects lockedScript
        { files := ["a.py".toList], output := some "docs".toList } scriptSettings [scriptFile] :=
      ⟨rfl, rfl, rfl, rfl, rfl⟩
    have hzero : (execute lockedScript keepScript).response.exitCode = 0 := by decide +kernel
    have htarget : target lockedScript .markdown "docs".toList =
        "docs/documentation.md".toList := by
      decide +kernel
    obtain ⟨-, -, hall⟩ := run_writes_all_or_nothing hparse rfl lockedScript
    rw [← htarget]
    exact ⟨hzero, (hall _ _ hzero hselects).2 (by decide +kernel)⟩
  · have hparse : Arguments.parse keepBoth =
        .ok { files := ["a.py".toList, "b.py".toList], output := some "docs".toList } := by
      decide +kernel
    have hone : (execute lockedScript keepBoth).response.exitCode = 1 := by decide +kernel
    obtain ⟨-, hnothing, -⟩ := run_writes_all_or_nothing hparse rfl lockedScript
    exact ⟨hone, hnothing (by rw [hone]; decide)⟩

/-- A pattern that matches nothing is worth a warning, but is no failure. -/
example : execute (.ofTree scriptsAndDirectory []) ["*.js".toList] =
    ⟨⟨0, [], "❌ Nothing to document\n".toList⟩, [.nothingMatched "*.js".toList],
      scriptsAndDirectory⟩ := by
  decide +kernel

end Command
end Docblock
