import Docblock.Command.Arguments
import Docblock.Files.Selection
import Docblock.Files.Tree
import Docblock.Run

namespace Docblock

structure Response where
  exitCode : Nat
  output : Text
  diagnostics : Text
  deriving DecidableEq, Repr

namespace Command

/-! A command reads all it needs, and then either answers or has one file left to
write. -/

inductive Step where
  | answer (response : Response)
  | save (path document : Text) (notices : Text) (success : Text)
  deriving DecidableEq, Repr

def line (text : Text) : Text :=
  text ++ ['\n']

/-- A text with something before its first line and something before the others. -/
def hang (first others text : Text) : Text :=
  first ++ List.intercalate ('\n' :: others) text.lines

/-- The causes of an error on lines of their own, with numbers if there are several. -/
def causeLines : List Text → List Text
  | [] => []
  | [cause] => [hang "    ".toList "    ".toList cause]
  | causes =>
      causes.zipIdx.map fun (cause, index) =>
        hang ("    ".toList ++ Nat.toDigits 10 index ++ ": ".toList) "       ".toList cause

/-- What is said when a command fails: the headline, and below it the causes. -/
def failure (notices headline : Text) (causes : List Text) : Response :=
  let below :=
    match causeLines causes with
    | [] => []
    | lines => "\n\nCaused by:\n".toList ++ Text.unlines lines
  ⟨1, [], notices ++ line ("Error: ".toList ++ headline ++ below)⟩

def checkMark : Text := "✔️".toList

def crossMark : Text := "❌".toList

def notice (report : Report) : Text :=
  line ((if report.status.isDocumented then checkMark else crossMark) ++ [' '] ++
    report.name ++ " (".toList ++ report.status.message ++ [')'])

def notices (quiet : Bool) (reports : List Report) : Text :=
  if quiet then [] else reports.flatMap notice

def summary (quiet : Bool) : Outcome → Text
  | .delivered documented skipped =>
      if quiet then []
      else
        line (checkMark ++ " Your docs are ready! (".toList ++ Nat.toDigits 10 documented ++
          " documented, ".toList ++ Nat.toDigits 10 skipped ++ " skipped)".toList)
  | .empty => if quiet then [] else line (crossMark ++ " Nothing to document".toList)

def languageLine (language : Language) : Text :=
  line (language.extension ++ ['\t'] ++ language.blockStart ++ [' '] ++ language.blockEnd ++
    ['\t'] ++ language.lineComment.getD ['-'])

def versionText : Text :=
  line "easygen 0.1.0".toList

def usageLine : Text :=
  line "Usage: easygen [OPTIONS] [FILES]...".toList

def helpText : Text :=
  [
    "Generate Markdown documentation from #@ ... @# comment blocks\n\n".toList,
    usageLine,
    "\nArguments:\n".toList,
    "  [FILES]...  Input files, directories or glob patterns, documented in this order\n".toList,
    "\nOptions:\n".toList,
    "  -o, --output <OUTPUT>   Write the document here instead of stdout; ".toList,
    "a directory gets documentation.<format extension>\n".toList,
    "      --stdin <NAME>      Read one file from stdin and show it under NAME ".toList,
    "(its extension picks the language)\n".toList,
    "  -f, --format <FORMAT>   Output format: markdown (default), json ".toList,
    "[default: markdown]\n".toList,
    "  -l, --languages <FILE>  JSON file with extra or overriding language delimiters\n".toList,
    "      --keep-going        Skip files with malformed blocks instead of aborting\n".toList,
    "      --no-footer         Omit the \"generated with\" footer\n".toList,
    "      --list-languages    Print the supported languages and exit\n".toList,
    "  -v, --verbose           Debug logging\n".toList,
    "  -q, --quiet             Errors only, no per-file status\n".toList,
    "  -h, --help              Print help\n".toList,
    "  -V, --version           Print version\n".toList
  ].flatten

def halted : Arguments.Halt → Response
  | .usage => ⟨2, [], line "error: the arguments are not understood\n".toList ++ usageLine⟩
  | .help => ⟨0, helpText, []⟩
  | .version => ⟨0, versionText, []⟩

variable {m : Type → Type} [Monad m]

def loadError (path : Text) : LanguageTable.LoadFault → Error
  | .notDescription => .notDescription path
  | .language extension fault => .invalidLanguage extension fault

/-- Adds the languages of a described file to a table: how many there are, and the table that is
there afterwards. -/
def loadLanguages (view : FileView m) (table : LanguageTable) (path : Text) :
    m (Except Error Nat × LanguageTable) := do
  match ← view.read path with
  | .error fault => pure (.error (.fileSystem path fault), table)
  | .ok bytes =>
      match Text.decode? bytes with
      | none => pure (.error (.fileSystem path .notText), table)
      | some description =>
          let (answer, edited) := (LanguageTable.Edit.load description).on table
          pure (answer.mapError (loadError path), edited)

/-- The builtin languages, and those of the file that the arguments name. -/
def tableFor (view : FileView m) (arguments : Arguments) : m (Except Error LanguageTable) :=
  match arguments.languages with
  | none => pure (.ok .builtin)
  | some path => do
      let (answer, table) ← loadLanguages view .builtin path
      pure (answer.map fun _ => table)

/-- The file that a document goes to, if a path is given: in a directory it gets a name. -/
def outputPath (view : FileView m) (format : Format) : Option Text → m (Option Text)
  | none => pure none
  | some path => do
      if (← view.kind? path) = some .directory then
        pure (some (Path.join path ("documentation.".toList ++ format.fileExtension)))
      else pure (some path)

def conclude (arguments : Arguments) (settings : Settings) (output : Option Text)
    (survey : Survey) : Step :=
  let notices := notices arguments.quiet survey.reports
  match settings.plan survey with
  | .fail error => .answer (failure notices error.message error.causes)
  | .stop => .answer ⟨0, [], notices ++ summary arguments.quiet .empty⟩
  | .deliver document documented skipped =>
      let success := notices ++ summary arguments.quiet (.delivered documented skipped)
      match output with
      | none => .answer ⟨0, document, success⟩
      | some path => .save path document notices success

def document (view : FileView m) (arguments : Arguments) (table : LanguageTable)
    (format : Format) : m Step := do
  let output ← outputPath view format arguments.output
  let settings : Settings :=
    { table, format, keepGoing := arguments.keepGoing, footer := !arguments.noFooter }
  match ← Selection.files view table.extensions arguments.inputName arguments.files with
  | .error error => pure (.answer (failure [] error.message error.causes))
  | .ok files => do
      forM (settings.warnings files) view.warn
      pure (conclude arguments settings output (settings.survey files))

/-- All of a command but the writing of its file. -/
def prepare (view : FileView m) (arguments : Arguments) : m Step := do
  match ← tableFor view arguments with
  | .error error =>
      pure (.answer (failure []
        ("failed to load languages from ".toList ++ arguments.languages.getD [])
        (error.message :: error.causes)))
  | .ok table =>
      if arguments.listLanguages then
        pure (.answer ⟨0, table.languages.flatMap languageLine, []⟩)
      else
        let name := arguments.format.getD "markdown".toList
        match Format.ofName? name with
        | none => pure (.answer (failure [] (Error.message (.unknownFormat name)) []))
        | some format => document view arguments table format

/-- The answer once the file has been written, or could not be. -/
def saved (path notices success : Text) : Except FileFault Unit → Response
  | .ok _ => ⟨0, [], success⟩
  | .error fault =>
      failure notices (Error.message (.fileSystem path fault)) [fault.message]

structure Ending where
  response : Response
  /-- What the log shows, without the times. -/
  warnings : List Warning
  tree : FileTree
  deriving DecidableEq, Repr

/-- Answers, or writes the one file that is left to write. -/
def finish (system : FileSystem) (warnings : List Warning) : Step → Ending
  | .answer response => ⟨response, warnings, system.tree⟩
  | .save path document notices success =>
      match system.write path document.encode with
      | .ok written => ⟨saved path notices success (.ok ()), warnings, written⟩
      | .error fault => ⟨saved path notices success (.error fault), warnings, system.tree⟩

/-- A whole command on files held as a value. -/
def execute (system : FileSystem) (words : List Text) : Ending :=
  match Arguments.parse words with
  | .error halt => ⟨halted halt, [], system.tree⟩
  | .ok arguments =>
      let (step, log) := (prepare system.view.logging arguments).run []
      finish system (if arguments.quiet then [] else log) step

/-- A command on files that can all be read. -/
def run (tree : FileTree) (standardInput : List UInt8) (arguments : List Text) :
    Response × FileTree :=
  let ending := execute (.ofTree tree standardInput) arguments
  (ending.response, ending.tree)

end Command
end Docblock
