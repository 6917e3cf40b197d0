import Docblock.Text.Basic

namespace Docblock

structure Arguments where
  files : List Text := []
  output : Option Text := none
  inputName : Option Text := none
  format : Option Text := none
  languages : Option Text := none
  keepGoing : Bool := false
  noFooter : Bool := false
  listLanguages : Bool := false
  verbose : Bool := false
  quiet : Bool := false
  deriving DecidableEq, Repr

namespace Arguments

inductive Halt where
  | usage
  | help
  | version
  deriving DecidableEq, Repr

inductive Setting where
  | output
  | inputName
  | format
  | languages
  deriving DecidableEq, Repr

inductive Switch where
  | keepGoing
  | noFooter
  | listLanguages
  | verbose
  | quiet
  | help
  | version
  deriving DecidableEq, Repr

abbrev Flag := Setting ⊕ Switch

def longFlags : List (Text × Flag) :=
  [("output".toList, .inl .output), ("stdin".toList, .inl .inputName),
    ("format".toList, .inl .format), ("languages".toList, .inl .languages),
    ("keep-going".toList, .inr .keepGoing), ("no-footer".toList, .inr .noFooter),
    ("list-languages".toList, .inr .listLanguages), ("verbose".toList, .inr .verbose),
    ("quiet".toList, .inr .quiet), ("help".toList, .inr .help),
    ("version".toList, .inr .version)]

def shortFlags : List (Char × Flag) :=
  [('o', .inl .output), ('f', .inl .format), ('l', .inl .languages), ('v', .inr .verbose),
    ('q', .inr .quiet), ('h', .inr .help), ('V', .inr .version)]

def once (place : Option Text) (value : Text) : Except Halt (Option Text) :=
  match place with
  | none => .ok (some value)
  | some _ => .error .usage

/-- Gives an option its value; a path is not empty. -/
def assign (arguments : Arguments) (setting : Setting) (value : Text) :
    Except Halt Arguments :=
  match setting with
  | .output => do
      if value = [] then .error .usage
      else .ok { arguments with output := ← once arguments.output value }
  | .languages => do
      if value = [] then .error .usage
      else .ok { arguments with languages := ← once arguments.languages value }
  | .inputName => do .ok { arguments with inputName := ← once arguments.inputName value }
  | .format => do .ok { arguments with format := ← once arguments.format value }

def activate (arguments : Arguments) (switch : Switch) : Except Halt Arguments :=
  match switch with
  | .keepGoing =>
      if arguments.keepGoing then .error .usage else .ok { arguments with keepGoing := true }
  | .noFooter =>
      if arguments.noFooter then .error .usage else .ok { arguments with noFooter := true }
  | .listLanguages =>
      if arguments.listLanguages then .error .usage
      else .ok { arguments with listLanguages := true }
  | .verbose =>
      if arguments.verbose then .error .usage else .ok { arguments with verbose := true }
  | .quiet =>
      if arguments.quiet then .error .usage else .ok { arguments with quiet := true }
  | .help => .error .help
  | .version => .error .version

/-- Whether an argument is an option rather than a value; a single hyphen is a value. -/
def isFlag (argument : Text) : Bool :=
  argument.head? = some '-' && argument ≠ ['-']

/-- An argument that was read: the option whose value comes next, if there is one. -/
abbrev Progress := Arguments × Option Setting

/-- A long option without its hyphens, possibly with its value behind an equals sign. -/
def readLong (arguments : Arguments) (body : Text) : Except Halt Progress :=
  let name := body.takeWhile (· ≠ '=')
  let value := (body.dropWhile (· ≠ '=')).tail?
  match longFlags.lookup name, value with
  | some (.inl setting), some value => do
      .ok (← arguments.assign setting value, none)
  | some (.inl setting), none => .ok (arguments, some setting)
  | some (.inr switch), none => do .ok (← arguments.activate switch, none)
  | _, _ => .error .usage

/-- Short options in one argument: switches, and at the end an option with its value. -/
def readShort (arguments : Arguments) : Text → Except Halt Progress
  | [] => .ok (arguments, none)
  | letter :: rest =>
      match shortFlags.lookup letter with
      | none => .error .usage
      | some (.inr switch) => do readShort (← arguments.activate switch) rest
      | some (.inl setting) =>
          match rest with
          | [] => .ok (arguments, some setting)
          | '=' :: value => do .ok (← arguments.assign setting value, none)
          | value => do .ok (← arguments.assign setting value, none)

/-- The arguments from some point on.  After two hyphens all others are files. -/
def readFrom : Progress → List Text → Except Halt Arguments
  | (arguments, none), [] => .ok arguments
  | (_, some _), [] => .error .usage
  | (arguments, some setting), argument :: rest =>
      if isFlag argument then .error .usage
      else do readFrom (← arguments.assign setting argument, none) rest
  | (arguments, none), argument :: rest =>
      if argument = ['-', '-'] then .ok { arguments with files := arguments.files ++ rest }
      else if isFlag argument then
        match argument with
        | '-' :: '-' :: body => do readFrom (← readLong arguments body) rest
        | _ => do readFrom (← readShort arguments argument.tail) rest
      else readFrom ({ arguments with files := arguments.files ++ [argument] }, none) rest

/-- A command line is not both verbose and quiet. -/
def parse (arguments : List Text) : Except Halt Arguments := do
  let parsed ← readFrom ({}, none) arguments
  if parsed.verbose && parsed.quiet then .error .usage else .ok parsed

end Arguments
end Docblock
