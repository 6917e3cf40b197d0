import Docblock.Command.Basic

namespace Docblock

/-! A log takes words and gives none back, so a command does the same with it as without. -/

/-- Whatever is in the log, an action gives what another one gives without a log. -/
def Alike {α : Type} (logged : StateM (List Warning) α) (plain : Id α) : Prop :=
  ∀ log, (logged.run log).run.1 = plain.run

namespace Alike

variable {α β : Type} {logged : StateM (List Warning) α} {plain : Id α}
  {next : α → StateM (List Warning) β} {plainNext : α → Id β}

theorem pure (result : α) : Alike (Pure.pure result) (Pure.pure result) :=
  fun _ => rfl

theorem bind (hfirst : Alike logged plain)
    (hnext : ∀ result, Alike (next result) (plainNext result)) :
    Alike (logged >>= next) (plain >>= plainNext) := by
  intro log
  rw [StateT.run_bind, Id.run_bind, Id.run_bind, ← hfirst log]
  exact hnext _ _

theorem ite {condition : Prop} [Decidable condition] {other : StateM (List Warning) α}
    {plainOther : Id α} (hthen : Alike logged plain) (helse : Alike other plainOther) :
    Alike (if condition then logged else other) (if condition then plain else plainOther) := by
  split
  · exact hthen
  · exact helse

theorem flatMapM {action : α → StateM (List Warning) (List β)} {plainAction : α → Id (List β)}
    (haction : ∀ item, Alike (action item) (plainAction item)) (items : List α) :
    Alike (items.flatMapM action) (items.flatMapM plainAction) := by
  induction items with
  | nil => exact .pure []
  | cons item rest ih =>
      rw [List.flatMapM_cons, List.flatMapM_cons]
      exact .bind (haction item) fun _ => .bind ih fun _ => .pure _

theorem filterMapM {action : α → StateM (List Warning) (Option β)} {plainAction : α → Id (Option β)}
    (haction : ∀ item, Alike (action item) (plainAction item)) (items : List α) :
    Alike (items.filterMapM action) (items.filterMapM plainAction) := by
  induction items with
  | nil => exact .pure []
  | cons item rest ih =>
      rw [List.filterMapM_cons, List.filterMapM_cons]
      refine .bind (haction item) fun found => ?_
      cases found with
      | none => exact ih
      | some result => exact .bind ih fun _ => .pure _

end Alike

variable (view : FileView Id)

namespace Glob

theorem alike_children (directory : Text) :
    Alike (children view.logging directory) (children view directory) := by
  refine .bind (.pure (view.entries directory)) fun names => ?_
  cases names with
  | error fault => exact .pure _
  | ok names => exact .pure _

private theorem alike_descendants (levels : Nat) (directory : Text) :
    Alike (descendants view.logging levels directory) (descendants view levels directory) := by
  induction levels generalizing directory with
  | zero => exact .pure _
  | succ levels ih =>
      refine .bind (alike_children view directory) fun entries => ?_
      refine .bind (.flatMapM (fun entry => ?_) entries) fun _ => .pure _
      exact .bind (.pure (view.kind? entry.2)) fun _ => .ite (ih entry.2) (.pure _)

private theorem alike_advance (step : Step) (directory : Text) :
    Alike (advance view.logging step directory) (advance view step directory) := by
  unfold advance
  refine .ite (.bind (alike_descendants view deepest directory) fun _ => .pure _) ?_
  cases literal? step.pieces with
  | some name => exact .bind (.pure (view.kind? (below directory name))) fun _ => .pure _
  | none => exact .bind (alike_children view directory) fun _ => .pure _

private theorem alike_search (steps : List Step) (path : Text) :
    Alike (search view.logging steps path) (search view steps path) := by
  induction steps generalizing path with
  | nil => exact .bind (.pure (view.kind? path)) fun _ => .pure _
  | cons step rest ih =>
      refine .bind (.pure (view.kind? path)) fun _ => .ite ?_ (.pure _)
      exact .bind (alike_advance view step path) fun paths => .flatMapM ih paths

private theorem alike_files (pattern : Pattern) :
    Alike (files view.logging pattern) (files view pattern) :=
  .ite (.pure _) (alike_search view pattern.steps _)

end Glob

namespace Selection

theorem alike_warnWhen (condition : Bool) (warning : Warning) :
    Alike (view.logging.warnWhen condition warning) (view.warnWhen condition warning) :=
  fun _ => rfl

private theorem alike_inDirectory (extensions : List Text) (directory : Text) :
    Alike (inDirectory view.logging extensions directory)
      (inDirectory view extensions directory) := by
  refine .bind (.pure (view.entries directory)) fun names => ?_
  cases names with
  | error fault => exact .pure _
  | ok names =>
      refine .bind (.filterMapM (fun name => ?_) names) fun _ => .pure _
      exact .bind (.pure (view.kind? (Path.join directory name))) fun _ => .ite (.pure _) (.pure _)

private theorem alike_matching (pattern : Text) :
    Alike (matching view.logging pattern) (matching view pattern) := by
  unfold matching
  cases Glob.Pattern.parse pattern with
  | error fault => exact .pure _
  | ok parsed =>
      exact .bind (Glob.alike_files view parsed) fun _ =>
        .bind (alike_warnWhen view _ _) fun _ => .pure _

private theorem alike_ofArgument (extensions : List Text) (argument : Text) :
    Alike (ofArgument view.logging extensions argument) (ofArgument view extensions argument) := by
  refine .bind (.pure (view.kind? argument)) fun kind => ?_
  match kind with
  | some .file => exact .pure _
  | some .directory => exact alike_inDirectory view extensions argument
  | none => exact alike_matching view argument

theorem alike_inOrder {α β : Type} {action : α → StateM (List Warning) (Except Error β)}
    {plainAction : α → Id (Except Error β)}
    (haction : ∀ item, Alike (action item) (plainAction item)) (items : List α) :
    Alike (inOrder action items) (inOrder plainAction items) := by
  induction items with
  | nil => exact .pure _
  | cons item rest ih =>
      refine .bind (haction item) fun first => ?_
      cases first with
      | error error => exact .pure _
      | ok result =>
          refine .bind ih fun others => ?_
          cases others with
          | error error => exact .pure _
          | ok results => exact .pure _

private theorem alike_paths (extensions arguments : List Text) :
    Alike (paths view.logging extensions arguments) (paths view extensions arguments) := by
  refine .bind (alike_inOrder (alike_ofArgument view extensions) arguments) fun selected => ?_
  cases selected with
  | error error => exact .pure _
  | ok selected => exact .pure _

theorem alike_decoded (name : Text) (bytes : List UInt8) :
    Alike (decoded view.logging name bytes) (decoded view name bytes) :=
  .bind (alike_warnWhen view _ _) fun _ => .pure _

private theorem alike_readFile (path : Text) :
    Alike (readFile view.logging path) (readFile view path) := by
  refine .bind (.pure (view.read path)) fun found => ?_
  cases found with
  | error fault => exact .pure _
  | ok bytes => exact .bind (alike_decoded view path bytes) fun _ => .pure _

private theorem alike_readInput (inputName : Option Text) :
    Alike (readInput view.logging inputName) (readInput view inputName) := by
  cases inputName with
  | none => exact .pure _
  | some name =>
      refine .bind (.pure view.standardInput) fun found => ?_
      cases found with
      | error fault => exact .pure _
      | ok bytes => exact .bind (alike_decoded view name bytes) fun _ => .pure _

private theorem alike_files (extensions : List Text) (inputName : Option Text)
    (arguments : List Text) :
    Alike (files view.logging extensions inputName arguments)
      (files view extensions inputName arguments) := by
  refine .bind (alike_readInput view inputName) fun input => ?_
  cases input with
  | error error => exact .pure _
  | ok input =>
      refine .bind (alike_paths view extensions arguments) fun selected => ?_
      cases selected with
      | error error => exact .pure _
      | ok selected =>
          refine .bind (alike_inOrder (alike_readFile view) selected) fun found => ?_
          cases found with
          | error error => exact .pure _
          | ok files => exact .pure _

end Selection

namespace Command

private theorem alike_loadLanguages (table : LanguageTable) (path : Text) :
    Alike (loadLanguages view.logging table path) (loadLanguages view table path) := by
  refine .bind (.pure (view.read path)) fun found => ?_
  cases found with
  | error fault => exact .pure _
  | ok bytes =>
      dsimp only
      cases Text.decode? bytes with
      | none => exact .pure _
      | some description => exact .pure _

private theorem alike_tableFor (arguments : Arguments) :
    Alike (tableFor view.logging arguments) (tableFor view arguments) := by
  unfold tableFor
  cases arguments.languages with
  | none => exact .pure _
  | some path => exact .bind (alike_loadLanguages view .builtin path) fun _ => .pure _

private theorem alike_outputPath (format : Format) (output : Option Text) :
    Alike (outputPath view.logging format output) (outputPath view format output) := by
  cases output with
  | none => exact .pure _
  | some path => exact .bind (.pure (view.kind? path)) fun _ => .ite (.pure _) (.pure _)

private theorem alike_document (arguments : Arguments) (table : LanguageTable) (format : Format) :
    Alike (document view.logging arguments table format)
      (document view arguments table format) := by
  refine .bind (alike_outputPath view format arguments.output) fun output => ?_
  refine .bind (Selection.alike_files view _ _ _) fun selected => ?_
  cases selected with
  | error error => exact .pure _
  | ok files => exact .bind (fun _ => rfl) fun _ => .pure _

/-- The log has no part in what a command does. -/
theorem alike_prepare (arguments : Arguments) :
    Alike (prepare view.logging arguments) (prepare view arguments) := by
  refine .bind (alike_tableFor view arguments) fun table => ?_
  cases table with
  | error error => exact .pure _
  | ok table =>
      refine .ite (.pure _) ?_
      dsimp only
      cases Format.ofName? (arguments.format.getD "markdown".toList) with
      | none => exact .pure _
      | some format => exact alike_document view arguments table format

end Command
end Docblock
