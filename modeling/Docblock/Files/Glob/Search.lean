import Docblock.Files.Glob.Pattern
import Docblock.Files.Path
import Docblock.Files.View

namespace Docblock.Glob

/-- A component of a pattern, below any number of directories when it is deep. -/
structure Step where
  deep : Bool
  pieces : List Piece
  deriving DecidableEq, Repr

/-- A pattern for paths.  One that ends in a slash or in a component for any depth stands
for directories only. -/
structure Pattern where
  absolute : Bool
  steps : List Step
  directoriesOnly : Bool
  deriving DecidableEq, Repr

namespace Pattern

/-- The steps of components, after one for any depth or not.  Steps for any depth follow
one another without effect, and none is left over but at the end. -/
def stepsOf (deep : Bool) : List (List Piece) → List Step × Bool
  | [] => ([], deep)
  | component :: rest =>
      if component = [.anyDepth] then stepsOf true rest
      else
        let later := stepsOf false rest
        (⟨deep, component⟩ :: later.1, later.2)

/-- A pattern has to be right as a whole, and so has each of its components. -/
def parse (text : Text) : Except Fault Pattern := do
  let _ ← Glob.pieces text
  let absolute := text.head? = some '/'
  let relative := if absolute then text.drop 1 else text
  let components ← (relative.splitOn '/').mapM Glob.pieces
  let (steps, endsDeep) := stepsOf false components
  .ok ⟨absolute, steps, endsDeep || text.getLast? = some '/'⟩

end Pattern

variable {m : Type → Type} [Monad m]

def isCurrent (path : Text) : Bool :=
  Path.same path ['.']

def below (directory name : Text) : Text :=
  if isCurrent directory then name else Path.join directory name

/-- The names in a directory with their paths; none if it cannot be read. -/
def children (view : FileView m) (directory : Text) : m (List (Text × Text)) := do
  match ← view.entries directory with
  | .ok names => pure (names.map fun name => (name, below directory name))
  | .error _ => pure []

/-- Everything below a directory, at most so many levels deep. -/
def descendants (view : FileView m) : Nat → Text → m (List (Text × Text))
  | 0, _ => pure []
  | levels + 1, directory => do
      let entries ← children view directory
      let deeper ← entries.flatMapM fun (_, path) => do
        if (← view.kind? path) = some .directory then descendants view levels path
        else pure []
      pure (entries ++ deeper)

/-- No path has more components. -/
def deepest : Nat := 4096

/-- The single and the double dot, as far as a component that begins with a dot matches
them. -/
def dotNames (pieces : List Piece) : List Text :=
  if pieces.head? = some (.char '.') then
    [['.'], ['.', '.']].filter (matchesName pieces)
  else []

def advance (view : FileView m) (step : Step) (directory : Text) : m (List Text) := do
  if step.deep then
    let entries ← descendants view deepest directory
    pure ((entries.filter fun entry => matchesName step.pieces entry.1).map (·.2))
  else
    match literal? step.pieces with
    | some name =>
        let path := below directory name
        pure (if (← view.kind? path).isSome then [path] else [])
    | none =>
        let entries ← children view directory
        pure ((entries.filter fun entry => matchesName step.pieces entry.1).map (·.2) ++
          (dotNames step.pieces).map (Path.join directory))

def search (view : FileView m) : List Step → Text → m (List Text)
  | [], path => do
      pure (if (← view.kind? path) = some .file then [path] else [])
  | step :: rest, path => do
      if (← view.kind? path) = some .directory then
        let paths ← advance view step path
        paths.flatMapM (search view rest)
      else pure []

/-- The files that a pattern matches, in any order. -/
def files (view : FileView m) (pattern : Pattern) : m (List Text) :=
  if pattern.directoriesOnly then pure []
  else search view pattern.steps (if pattern.absolute then ['/'] else ['.'])

end Docblock.Glob
