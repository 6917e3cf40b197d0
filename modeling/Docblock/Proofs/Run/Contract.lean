import Docblock.Proofs.DocFile.Shape
import Docblock.Run

namespace Docblock

/-! What a run reports and delivers, from what each of its files gives by itself. -/

namespace FileName

theorem extension?_ne_some_nil (name : Text) : extension? name ≠ some [] := by
  rw [extension?]
  split
  · split
    · exact nofun
    · rename_i hne
      exact fun hnil => hne (Option.some.inj hnil)
  · exact nofun

end FileName

namespace FileStatus

/-- The status that the documentation of a file, or the error in place of it, stands for. -/
def ofResult : Except Error DocFile → FileStatus
  | .ok file => if file.blocks = [] then .noDocumentation else .documented file.blocks.length
  | .error (.unsupportedExtension _ extension) =>
      .unsupported (if extension = [] then none else some extension)
  | .error _ => .malformed

end FileStatus

namespace Settings

variable (settings : Settings)

def statusOf (file : SourceFile) : FileStatus :=
  .ofResult (DocFile.ofSource settings.table file)

def reportOf (file : SourceFile) : Report :=
  ⟨file.name, settings.statusOf file⟩

def documented (files : List SourceFile) : List SourceFile :=
  files.filter fun file => (settings.statusOf file).isDocumented

def sections (files : List SourceFile) : List Text :=
  (settings.documented files).filterMap fun file =>
    (DocFile.ofSource settings.table file).toOption.map settings.format.renderFile

def document (files : List SourceFile) : Text :=
  settings.format.assemble (settings.sections files)
    (if settings.footer then some footerLine else none)

theorem sections_append (before after : List SourceFile) :
    settings.sections (before ++ after) = settings.sections before ++ settings.sections after := by
  rw [sections, documented, List.filter_append, List.filterMap_append]
  rfl

variable {settings}

theorem sections_of_not_documented {file : SourceFile}
    (hstatus : (settings.statusOf file).isDocumented = false) :
    settings.sections [file] = [] := by
  rw [sections, documented, List.filter_cons_of_neg (by simp [hstatus])]
  rfl

private theorem sections_of_documented {file : SourceFile} {parsed : DocFile}
    (hsource : DocFile.ofSource settings.table file = .ok parsed)
    (hstatus : (settings.statusOf file).isDocumented = true) :
    settings.sections [file] = [settings.format.renderFile parsed] := by
  simp [sections, documented, hstatus, hsource, Except.toOption]

theorem statusOf_of_forFile?_none {file : SourceFile}
    (hlanguage : settings.table.forFile? file.name = none) :
    settings.statusOf file = .unsupported (FileName.extension? file.name) := by
  rw [statusOf, DocFile.ofSource, hlanguage]
  cases hextension : FileName.extension? file.name with
  | none => rfl
  | some extension =>
      have hne : extension ≠ [] := fun hnil =>
        FileName.extension?_ne_some_nil file.name (hnil ▸ hextension)
      simp [FileStatus.ofResult, hne]

variable (settings)

private theorem inspect_of_parse_ok {file : SourceFile} {language : Language} {parsed : DocFile}
    (hlanguage : settings.table.forFile? file.name = some language)
    (hparse : DocFile.parse .standard language file.name file.text = .ok parsed) :
    settings.statusOf file ≠ .malformed ∧
      settings.inspect file = .ok (settings.statusOf file, settings.sections [file]) := by
  have hsource : DocFile.ofSource settings.table file = .ok parsed := by
    rw [DocFile.ofSource, hlanguage]
    exact congrArg (Except.mapError _) hparse
  have hinspect : settings.inspect file =
      if parsed.blocks = [] then .ok (.noDocumentation, [])
      else .ok (.documented parsed.blocks.length, [settings.format.renderFile parsed]) := by
    rw [inspect, hlanguage]
    simp only [hparse, bind, Except.bind]
  by_cases hblocks : parsed.blocks = []
  · have hstatus : settings.statusOf file = .noDocumentation := by
      rw [statusOf, hsource, FileStatus.ofResult, if_pos hblocks]
    rw [hinspect, if_pos hblocks, sections_of_not_documented (by rw [hstatus]; rfl), hstatus]
    exact ⟨FileStatus.noConfusion, rfl⟩
  · have hstatus : settings.statusOf file = .documented parsed.blocks.length := by
      rw [statusOf, hsource, FileStatus.ofResult, if_neg hblocks]
    rw [hinspect, if_neg hblocks, sections_of_documented hsource (by rw [hstatus]; rfl), hstatus]
    exact ⟨FileStatus.noConfusion, rfl⟩

private theorem inspect_of_parse_error {file : SourceFile} {language : Language}
    {fault : TagFault} (hlanguage : settings.table.forFile? file.name = some language)
    (hparse : DocFile.parse .standard language file.name file.text = .error fault) :
    settings.statusOf file = .malformed ∧
      DocFile.ofSource settings.table file = .error (.malformed file.name fault) ∧
      settings.inspect file = .error fault := by
  have hsource : DocFile.ofSource settings.table file = .error (.malformed file.name fault) := by
    rw [DocFile.ofSource, hlanguage]
    exact congrArg (Except.mapError _) hparse
  refine ⟨?_, hsource, ?_⟩
  · rw [statusOf, hsource]
    rfl
  · rw [inspect, hlanguage]
    simp only [hparse, bind, Except.bind]

theorem inspect_cases (file : SourceFile) :
    (∃ tags contents, settings.statusOf file = .malformed ∧
      DocFile.ofSource settings.table file =
        .error (.malformed file.name (.misaligned tags contents)) ∧
      settings.inspect file = .error (.misaligned tags contents)) ∨
    (settings.statusOf file ≠ .malformed ∧
      settings.inspect file = .ok (settings.statusOf file, settings.sections [file])) := by
  cases hlanguage : settings.table.forFile? file.name with
  | none =>
      right
      have hstatus := statusOf_of_forFile?_none hlanguage
      rw [inspect, hlanguage, sections_of_not_documented (by rw [hstatus]; rfl), hstatus]
      exact ⟨FileStatus.noConfusion, rfl⟩
  | some language =>
      cases hparse : DocFile.parse .standard language file.name file.text with
      | error fault =>
          obtain ⟨tags, contents, rfl⟩ := DocFile.exists_misaligned_of_parse hparse
          exact .inl ⟨tags, contents, inspect_of_parse_error settings hlanguage hparse⟩
      | ok parsed => exact .inr (inspect_of_parse_ok settings hlanguage hparse)

variable {settings}

theorem survey_cons_of_ne_malformed {file : SourceFile}
    (hstatus : settings.statusOf file ≠ .malformed) (rest : List SourceFile) :
    settings.survey (file :: rest) =
      (settings.survey rest).add (settings.reportOf file) (settings.sections [file]) := by
  rcases settings.inspect_cases file with ⟨_, _, hmalformed, -⟩ | ⟨-, hinspect⟩
  · contradiction
  · rw [survey, hinspect]
    rfl

private theorem survey_cons_of_keepGoing (hkeep : settings.keepGoing = true) (file : SourceFile)
    (rest : List SourceFile) :
    settings.survey (file :: rest) =
      (settings.survey rest).add (settings.reportOf file) (settings.sections [file]) := by
  rcases settings.inspect_cases file with
    ⟨tags, contents, hmalformed, -, hinspect⟩ | ⟨hstatus, -⟩
  · rw [survey, hinspect, reportOf, hmalformed,
      sections_of_not_documented (by rw [hmalformed]; rfl)]
    simp only [hkeep, if_true]
  · exact survey_cons_of_ne_malformed hstatus rest

/-- Where nothing stops it, a survey goes through all files. -/
theorem survey_eq {files : List SourceFile}
    (hgoes : settings.keepGoing = true ∨ ∀ file ∈ files, settings.statusOf file ≠ .malformed) :
    settings.survey files = ⟨files.map settings.reportOf, settings.sections files, none⟩ := by
  induction files with
  | nil => rfl
  | cons file rest ih =>
      have hrest : settings.keepGoing = true ∨
          ∀ file ∈ rest, settings.statusOf file ≠ .malformed :=
        hgoes.imp_right fun hclean => (List.forall_mem_cons.mp hclean).2
      have hcons : settings.survey (file :: rest) =
          (settings.survey rest).add (settings.reportOf file) (settings.sections [file]) := by
        rcases hgoes with hkeep | hclean
        · exact survey_cons_of_keepGoing hkeep file rest
        · exact survey_cons_of_ne_malformed (List.forall_mem_cons.mp hclean).1 rest
      rw [hcons, ih hrest, Survey.add, ← sections_append]
      rfl

/-- A survey that gives up stops behind the first malformed file. -/
theorem survey_of_malformed {before : List SourceFile} {file : SourceFile}
    (hkeep : settings.keepGoing = false)
    (hbefore : ∀ earlier ∈ before, settings.statusOf earlier ≠ .malformed)
    (hfile : settings.statusOf file = .malformed) (after : List SourceFile) :
    ∃ tags contents,
      DocFile.ofSource settings.table file =
        .error (.malformed file.name (.misaligned tags contents)) ∧
      settings.survey (before ++ file :: after) =
        ⟨(before ++ [file]).map settings.reportOf, settings.sections before,
          some (.malformed file.name (.misaligned tags contents))⟩ := by
  induction before with
  | nil =>
      rcases settings.inspect_cases file with
        ⟨tags, contents, -, hsource, hinspect⟩ | ⟨hstatus, -⟩
      · refine ⟨tags, contents, hsource, ?_⟩
        rw [List.nil_append, survey, hinspect]
        simp only [hkeep, List.nil_append, List.map_cons, List.map_nil, reportOf, hfile]
        rfl
      · contradiction
  | cons earlier before ih =>
      rw [List.forall_mem_cons] at hbefore
      obtain ⟨tags, contents, hsource, hsurvey⟩ := ih hbefore.2
      refine ⟨tags, contents, hsource, ?_⟩
      rw [List.cons_append, survey_cons_of_ne_malformed hbefore.1, hsurvey, Survey.add,
        ← sections_append]
      rfl

private theorem exists_ok_of_documented {file : SourceFile}
    (hstatus : (settings.statusOf file).isDocumented = true) :
    ∃ parsed, DocFile.ofSource settings.table file = .ok parsed := by
  cases hsource : DocFile.ofSource settings.table file with
  | ok parsed => exact ⟨parsed, rfl⟩
  | error error =>
      rw [statusOf, hsource] at hstatus
      cases error <;> contradiction

theorem length_sections (files : List SourceFile) :
    (settings.sections files).length = (settings.documented files).length := by
  refine List.filterMap_length_eq_length.mpr fun file hfile => ?_
  obtain ⟨parsed, hsource⟩ := exists_ok_of_documented (List.mem_filter.mp hfile).2
  rw [hsource]
  rfl

private theorem length_documented_add_skipped (files : List SourceFile) (sections : List Text)
    (failure : Option Error) :
    (settings.documented files).length +
      (Survey.mk (files.map settings.reportOf) sections failure).skipped = files.length := by
  rw [Survey.skipped, List.countP_map, documented, ← List.countP_eq_length_filter,
    List.length_eq_countP_add_countP fun file => (settings.statusOf file).isDocumented]
  congr 2
  funext file
  simp [reportOf]

private theorem run_of_failure {files : List SourceFile} {reports : List Report}
    {sections : List Text}
    {error : Error} (hsurvey : settings.survey files = ⟨reports, sections, some error⟩)
    (deliver : Text → Except Error Unit) :
    settings.run ⟨.ok files, deliver⟩ = ⟨reports.map Call.report, .error error⟩ := by
  simp only [run, hsurvey, plan]

private theorem run_of_nothing {files : List SourceFile} {reports : List Report}
    (hsurvey : settings.survey files = ⟨reports, [], none⟩)
    (deliver : Text → Except Error Unit) :
    settings.run ⟨.ok files, deliver⟩ = ⟨reports.map Call.report, .ok .empty⟩ := by
  simp only [run, hsurvey, plan, if_true]

private theorem run_of_sections {files : List SourceFile} {reports : List Report}
    (hsurvey : settings.survey files = ⟨reports, settings.sections files, none⟩)
    (hne : settings.sections files ≠ []) (deliver : Text → Except Error Unit) :
    settings.run ⟨.ok files, deliver⟩ =
      ⟨reports.map Call.report ++ [.deliver (settings.document files)],
        (deliver (settings.document files)).map fun _ =>
          .delivered (settings.sections files).length
            (Survey.mk reports (settings.sections files) none).skipped⟩ := by
  simp only [run, hsurvey, plan, if_neg hne, document]

variable (settings)

/-- Every report gives the status that its file has by itself.  A run that gives up reports up
to the first malformed file, delivers nothing and fails with the error of that file.  Any other
run reports every file in order and then, if some file is documented, delivers their sections
once. -/
theorem run_reports_then_delivers (deliver : Text → Except Error Unit)
    (files : List SourceFile) :
    let trace := settings.run ⟨.ok files, deliver⟩
    let reports := fun files : List SourceFile =>
      files.map fun file => Call.report ⟨file.name, settings.statusOf file⟩
    (∀ before file after, files = before ++ file :: after →
      settings.keepGoing = false →
      (∀ earlier ∈ before, settings.statusOf earlier ≠ .malformed) →
      settings.statusOf file = .malformed →
        trace.calls = reports (before ++ [file]) ∧
          ∃ tags contents,
            DocFile.ofSource settings.table file =
              .error (.malformed file.name (.misaligned tags contents)) ∧
            trace.outcome = .error (.malformed file.name (.misaligned tags contents))) ∧
    ((settings.keepGoing = true ∨ ∀ file ∈ files, settings.statusOf file ≠ .malformed) →
      (settings.documented files = [] →
        trace.calls = reports files ∧ trace.outcome = .ok .empty) ∧
      (settings.documented files ≠ [] →
        trace.calls = reports files ++ [.deliver (settings.document files)] ∧
          ∃ skipped, (settings.documented files).length + skipped = files.length ∧
            trace.outcome = (deliver (settings.document files)).map fun _ =>
              .delivered (settings.documented files).length skipped)) := by
  intro trace reports
  have hreports : ∀ files, (files.map settings.reportOf).map Call.report = reports files :=
    fun _ => List.map_map
  constructor
  · intro before file after hsplit hkeep hbefore hfile
    obtain ⟨tags, contents, hsource, hsurvey⟩ := survey_of_malformed hkeep hbefore hfile after
    rw [← hsplit] at hsurvey
    have htrace := run_of_failure hsurvey deliver
    rw [hreports] at htrace
    exact ⟨congrArg Trace.calls htrace, tags, contents, hsource, congrArg Trace.outcome htrace⟩
  · intro hgoes
    have hsurvey := survey_eq hgoes
    constructor
    · intro hnone
      have hsections : settings.sections files = [] := by
        rw [sections, hnone]
        rfl
      rw [hsections] at hsurvey
      have htrace := run_of_nothing hsurvey deliver
      rw [hreports] at htrace
      exact ⟨congrArg Trace.calls htrace, congrArg Trace.outcome htrace⟩
    · intro hsome
      have hsections : settings.sections files ≠ [] := by
        rwa [← List.length_pos_iff, length_sections, List.length_pos_iff]
      have htrace := run_of_sections hsurvey hsections deliver
      rw [hreports, length_sections] at htrace
      exact ⟨congrArg Trace.calls htrace, _,
        length_documented_add_skipped files (settings.sections files) none,
        congrArg Trace.outcome htrace⟩

def ofPolicy (keepGoing : Bool) : Settings :=
  ⟨.builtin, .markdown, keepGoing, false⟩

/-- A file of an unknown kind, one with a tag without content, and one with a block. -/
def threeFiles : List SourceFile :=
  [⟨"a.zz".toList, []⟩, ⟨"b.py".toList, "#@ @x: @#".toList⟩,
    ⟨"c.py".toList, "#@ @x: y @#".toList⟩]

theorem run_threeFiles :
    ((ofPolicy false).run ⟨.ok threeFiles, fun _ => .ok ()⟩).calls =
        [.report ⟨"a.zz".toList, .unsupported (some "zz".toList)⟩,
          .report ⟨"b.py".toList, .malformed⟩] ∧
      ((ofPolicy true).run ⟨.ok threeFiles, fun _ => .ok ()⟩).calls =
        [.report ⟨"a.zz".toList, .unsupported (some "zz".toList)⟩,
          .report ⟨"b.py".toList, .malformed⟩, .report ⟨"c.py".toList, .documented 1⟩,
          .deliver ((ofPolicy true).document threeFiles)] ∧
      ((ofPolicy true).run ⟨.ok threeFiles, fun _ => .ok ()⟩).outcome = .ok (.delivered 1 2) := by
  obtain ⟨hgivesUp, -⟩ :=
    run_reports_then_delivers (ofPolicy false) (fun _ => .ok ()) threeFiles
  obtain ⟨hcalls, -⟩ := hgivesUp [⟨"a.zz".toList, []⟩] ⟨"b.py".toList, "#@ @x: @#".toList⟩
    [⟨"c.py".toList, "#@ @x: y @#".toList⟩] rfl rfl (by decide +kernel) (by decide +kernel)
  obtain ⟨-, hgoesOn⟩ :=
    run_reports_then_delivers (ofPolicy true) (fun _ => .ok ()) threeFiles
  obtain ⟨hdelivers, skipped, hcount, houtcome⟩ := (hgoesOn (.inl rfl)).2 (by decide +kernel)
  have hdocumented : ((ofPolicy true).documented threeFiles).length = 1 := by decide +kernel
  rw [hdocumented] at hcount houtcome
  obtain rfl : skipped = 2 := Nat.add_left_cancel (n := 1) hcount
  exact ⟨hcalls.trans (by decide +kernel), hdelivers.trans (by decide +kernel), houtcome⟩

end Settings
end Docblock
