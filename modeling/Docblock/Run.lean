import Docblock.Document.Format
import Docblock.Error

namespace Docblock

namespace DocFile

def ofSource (table : LanguageTable) (file : SourceFile) : Except Error DocFile :=
  match table.forFile? file.name with
  | none =>
      .error (.unsupportedExtension file.name ((FileName.extension? file.name).getD []))
  | some language =>
      (parse .standard language file.name file.text).mapError (.malformed file.name)

end DocFile

inductive FileStatus where
  | documented (blocks : Nat)
  | noDocumentation
  | unsupported (extension : Option Text)
  | malformed
  deriving DecidableEq, Repr

namespace FileStatus

def isDocumented : FileStatus → Bool
  | .documented _ => true
  | _ => false

def message : FileStatus → Text
  | .documented blocks =>
      if blocks = 1 then "1 block".toList
      else Nat.toDigits 10 blocks ++ " blocks".toList
  | .noDocumentation => "no documentation found".toList
  | .unsupported (some extension) =>
      "'.".toList ++ extension ++ "' is not supported".toList
  | .unsupported none => "not supported".toList
  | .malformed => "malformed documentation block".toList

end FileStatus

structure Report where
  name : Text
  status : FileStatus
  deriving DecidableEq, Repr

inductive Outcome where
  | delivered (documented skipped : Nat)
  | empty
  deriving DecidableEq, Repr

structure Settings where
  table : LanguageTable
  format : Format
  /-- Leave out a file with a malformed block instead of giving up. -/
  keepGoing : Bool
  footer : Bool
  deriving DecidableEq, Repr

/-- What a run finds before anything is delivered. -/
structure Survey where
  reports : List Report
  sections : List Text
  failure : Option Error
  deriving DecidableEq, Repr

namespace Survey

def nothing : Survey :=
  ⟨[], [], none⟩

def add (survey : Survey) (report : Report) (sections : List Text) : Survey :=
  ⟨report :: survey.reports, sections ++ survey.sections, survey.failure⟩

def skipped (survey : Survey) : Nat :=
  survey.reports.countP fun report => !report.status.isDocumented

end Survey

inductive Plan where
  | fail (error : Error)
  | stop
  | deliver (document : Text) (documented skipped : Nat)
  deriving DecidableEq, Repr

namespace Settings

def inspect (settings : Settings) (file : SourceFile) :
    Except TagFault (FileStatus × List Text) :=
  match settings.table.forFile? file.name with
  | none => .ok (.unsupported (FileName.extension? file.name), [])
  | some language => do
      let parsed ← DocFile.parse .standard language file.name file.text
      if parsed.blocks = [] then .ok (.noDocumentation, [])
      else .ok (.documented parsed.blocks.length, [settings.format.renderFile parsed])

/-- Looks at files in order, up to the first malformed one unless it goes on. -/
def survey (settings : Settings) : List SourceFile → Survey
  | [] => .nothing
  | file :: rest =>
      match settings.inspect file with
      | .ok (status, sections) => (settings.survey rest).add ⟨file.name, status⟩ sections
      | .error fault =>
          if settings.keepGoing then (settings.survey rest).add ⟨file.name, .malformed⟩ []
          else ⟨[⟨file.name, .malformed⟩], [], some (.malformed file.name fault)⟩

/-- A word about each malformed file that is left out. -/
def warnings (settings : Settings) (files : List SourceFile) : List Warning :=
  if settings.keepGoing then
    files.filterMap fun file =>
      match settings.inspect file with
      | .ok _ => none
      | .error fault => some (.skipped file.name (.malformed file.name fault))
  else []

/-- A document is delivered when some file is documented. -/
def plan (settings : Settings) (survey : Survey) : Plan :=
  match survey.failure with
  | some error => .fail error
  | none =>
      if survey.sections = [] then .stop
      else
        .deliver
          (settings.format.assemble survey.sections
            (if settings.footer then some footerLine else none))
          survey.sections.length survey.skipped

end Settings

structure Host where
  select : Except Error (List SourceFile)
  deliver : Text → Except Error Unit

/-- What a run asks of its host once it has the files. -/
inductive Call where
  | report (report : Report)
  | deliver (document : Text)
  deriving DecidableEq, Repr

/-- A whole run as its host sees it: the calls in the order in which they are made. -/
structure Trace where
  calls : List Call
  outcome : Except Error Outcome

namespace Trace

def reports (trace : Trace) : List Report :=
  trace.calls.filterMap fun
    | .report report => some report
    | .deliver _ => none

def delivered (trace : Trace) : Option Text :=
  trace.calls.findSome? fun
    | .report _ => none
    | .deliver document => some document

end Trace

namespace Settings

def run (settings : Settings) (host : Host) : Trace :=
  match host.select with
  | .error error => ⟨[], .error error⟩
  | .ok files =>
      let survey := settings.survey files
      let reported := survey.reports.map Call.report
      match settings.plan survey with
      | .fail error => ⟨reported, .error error⟩
      | .stop => ⟨reported, .ok .empty⟩
      | .deliver document documented skipped =>
          ⟨reported ++ [.deliver document],
            (host.deliver document).map fun _ => .delivered documented skipped⟩

end Settings
end Docblock
