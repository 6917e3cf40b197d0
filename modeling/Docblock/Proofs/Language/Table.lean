import Docblock.Command.Basic
import Docblock.Proofs.FileName
import Docblock.Proofs.Text.Lowercase

namespace Docblock

/-! The language table through any history of updates.  Main statement: its entries stay valid,
lowercase and in order, an update is taken as a whole or not at all, and a file name finds the
entry of its extension. -/

namespace Language

theorem extension_of_fault?_eq_none {language : Language} (hvalid : language.fault? = none) :
    language.extension ≠ [] ∧ '.' ∉ language.extension := by
  unfold fault? at hvalid
  split at hvalid
  · contradiction
  · rename_i hextension
    exact not_or.mp hextension

end Language

namespace LanguageTable

theorem mem_of_mem_put {key : Text} {language : Language} {entries : List (Text × Language)}
    {entry : Text × Language} (hmem : entry ∈ put key language entries) :
    entry = (key, language) ∨ entry ∈ entries := by
  induction entries with
  | nil => exact .inl (List.mem_singleton.mp hmem)
  | cons first rest ih =>
      unfold put at hmem
      split at hmem
      · exact List.mem_cons.mp hmem
      · split at hmem
        · exact (List.mem_cons.mp hmem).imp_right (List.mem_cons_of_mem first)
        · rcases List.mem_cons.mp hmem with rfl | hrest
          · exact .inr List.mem_cons_self
          · exact (ih hrest).imp_right (List.mem_cons_of_mem first)

theorem pairwise_put {entries : List (Text × Language)}
    (hordered : entries.Pairwise (·.1 < ·.1)) (key : Text) (language : Language) :
    (put key language entries).Pairwise (·.1 < ·.1) := by
  induction entries with
  | nil => exact List.pairwise_singleton _ _
  | cons first rest ih =>
      have hfirst := (List.pairwise_cons.mp hordered).1
      have hrest := (List.pairwise_cons.mp hordered).2
      unfold put
      split
      · rename_i hbefore
        refine List.pairwise_cons.mpr ⟨List.forall_mem_cons.mpr ⟨hbefore, ?_⟩, hordered⟩
        exact fun later hlater => List.lt_trans hbefore (hfirst later hlater)
      · rename_i hnotBefore
        split
        · rename_i hsame
          exact List.pairwise_cons.mpr ⟨hsame ▸ hfirst, hrest⟩
        · rename_i hne
          have horder : key < first.1 ∨ key = first.1 ∨ first.1 < key :=
            Std.Trichotomous.rel_or_eq_or_rel_swap
          have hbehind : first.1 < key := (horder.resolve_left hnotBefore).resolve_left hne
          refine List.pairwise_cons.mpr ⟨fun later hlater => ?_, ih hrest⟩
          rcases mem_of_mem_put hlater with rfl | hkept
          · exact hbehind
          · exact hfirst later hkept

theorem lookup_eq_some_iff_mem {entries : List (Text × Language)}
    (hordered : entries.Pairwise (·.1 < ·.1)) {key : Text} {language : Language} :
    entries.lookup key = some language ↔ (key, language) ∈ entries := by
  induction entries with
  | nil => exact ⟨nofun, nofun⟩
  | cons first rest ih =>
      obtain ⟨other, kept⟩ := first
      have hfirst := (List.pairwise_cons.mp hordered).1
      rw [List.mem_cons, Prod.mk.injEq]
      by_cases hkey : key = other
      · subst hkey
        have hrest : (key, language) ∉ rest := fun hmem =>
          List.lt_irrefl key (hfirst _ hmem)
        rw [List.lookup_cons_self]
        simp [hrest, eq_comm]
      · rw [List.lookup_cons, beq_false_of_ne hkey]
        simp [hkey, ih (List.pairwise_cons.mp hordered).2]

/-- What every table is that was made by updates. -/
structure Kept (table : LanguageTable) : Prop where
  extension_eq : ∀ key language, (key, language) ∈ table.entries → language.extension = key
  valid : ∀ key language, (key, language) ∈ table.entries → language.fault? = none
  lower_eq : ∀ key language, (key, language) ∈ table.entries → key.lower = key
  ordered : table.entries.Pairwise (·.1 < ·.1)

theorem kept_empty : empty.Kept :=
  ⟨nofun, nofun, nofun, .nil⟩

theorem kept_builtin : builtin.Kept where
  extension_eq := by
    intro key language hmem
    obtain ⟨_, -, heq⟩ := List.mem_map.mp hmem
    cases heq
    rfl
  valid := by
    have hvalid : ∀ entry ∈ builtin.entries, entry.2.fault? = none := by decide
    exact fun key language => hvalid (key, language)
  lower_eq := by
    have hlower : ∀ entry ∈ builtin.entries, entry.1.lower = entry.1 := by decide +kernel
    exact fun key language => hlower (key, language)
  ordered := by decide

def place (table : LanguageTable) (language : Language) : LanguageTable :=
  ⟨put (entryOf language).extension (entryOf language) table.entries⟩

theorem Kept.place {table : LanguageTable} (hkept : table.Kept) {language : Language}
    (hvalid : (entryOf language).fault? = none) : (table.place language).Kept where
  extension_eq := by
    intro key kept hmem
    rcases mem_of_mem_put hmem with heq | hold
    · cases heq
      rfl
    · exact hkept.extension_eq key kept hold
  valid := by
    intro key kept hmem
    rcases mem_of_mem_put hmem with heq | hold
    · cases heq
      exact hvalid
    · exact hkept.valid key kept hold
  lower_eq := by
    intro key kept hmem
    rcases mem_of_mem_put hmem with heq | hold
    · cases heq
      exact Text.lower_lower _
    · exact hkept.lower_eq key kept hold
  ordered := pairwise_put hkept.ordered _ _

theorem Kept.places {table : LanguageTable} (hkept : table.Kept) {languages : List Language}
    (hvalid : ∀ language ∈ languages, (entryOf language).fault? = none) :
    (languages.foldl LanguageTable.place table).Kept := by
  induction languages generalizing table with
  | nil => exact hkept
  | cons language rest ih =>
      rw [List.forall_mem_cons] at hvalid
      exact ih (hkept.place hvalid.1) hvalid.2

namespace Edit

variable {ε α β : Type} {edit : Edit ε α} {table edited : LanguageTable}

theorem on_bind_of_ok {answer : α} (hfirst : edit.on table = (.ok answer, edited))
    (next : α → Edit ε β) : (edit >>= next).on table = (next answer).on edited := by
  simp only [on, ExceptT.run_bind, StateT.run_bind] at *
  rw [hfirst]
  rfl

theorem on_bind_of_error {fault : ε} (hfirst : edit.on table = (.error fault, edited))
    (next : α → Edit ε β) : (edit >>= next).on table = (.error fault, edited) := by
  simp only [on, ExceptT.run_bind, StateT.run_bind] at *
  rw [hfirst]
  rfl

theorem on_adapt {ε δ α : Type} (edit : Edit ε α) (adjust : ε → δ) (table : LanguageTable) :
    Edit.on (edit.adapt adjust) table =
      ((edit.on table).1.mapError adjust, (edit.on table).2) :=
  rfl

end Edit

theorem on_insert_of_valid (table : LanguageTable) {language : Language}
    (hvalid : (entryOf language).fault? = none) :
    (Edit.insert language).on table = (.ok (), table.place language) := by
  simp only [Edit.insert, hvalid]
  rfl

theorem on_insert_of_fault (table : LanguageTable) {language : Language} {fault : Language.Fault}
    (hfault : (entryOf language).fault? = some fault) :
    (Edit.insert language).on table =
      (.error ((entryOf language).extension, fault), table) := by
  simp only [Edit.insert, hfault]
  rfl

private theorem on_forM_of_valid (table : LanguageTable) {languages : List Language}
    (hvalid : ∀ language ∈ languages, (entryOf language).fault? = none) :
    Edit.on (forM languages Edit.insert) table = (.ok (), languages.foldl place table) := by
  induction languages generalizing table with
  | nil => rfl
  | cons language rest ih =>
      rw [List.forall_mem_cons] at hvalid
      rw [List.forM_cons, Edit.on_bind_of_ok (on_insert_of_valid table hvalid.1)]
      exact ih (table.place language) hvalid.2

private theorem exists_on_forM_of_invalid (table : LanguageTable) {languages : List Language}
    (hinvalid : ∃ language ∈ languages, (entryOf language).fault? ≠ none) :
    ∃ refused staged, Edit.on (forM languages Edit.insert) table = (.error refused, staged) := by
  induction languages generalizing table with
  | nil =>
      obtain ⟨language, hmem, -⟩ := hinvalid
      contradiction
  | cons language rest ih =>
      rw [List.forM_cons]
      cases hfault : (entryOf language).fault? with
      | some fault => exact ⟨_, _, Edit.on_bind_of_error (on_insert_of_fault table hfault) _⟩
      | none =>
          obtain ⟨other, hother, hne⟩ := hinvalid
          rcases List.mem_cons.mp hother with rfl | hrest
          · contradiction
          · rw [Edit.on_bind_of_ok (on_insert_of_valid table hfault)]
            exact ih (table.place language) ⟨other, hrest, hne⟩

/-- A loop over a copy of the table: what it leaves behind is taken when it goes through. -/
theorem on_insertAll (table : LanguageTable) (languages : List Language) :
    (Edit.insertAll languages).on table =
      match Edit.on (forM languages Edit.insert) table with
      | (.error refused, _) => (.error refused, table)
      | (.ok (), staged) => (.ok (), staged) := by
  have hget : Edit.on (get : Edit (Text × Language.Fault) LanguageTable) table =
      (.ok table, table) := rfl
  rw [Edit.insertAll, Edit.on_bind_of_ok hget]
  rcases Edit.on (forM languages Edit.insert) table with ⟨refused | answer, staged⟩
  · rfl
  · rfl

theorem on_insertAll_of_valid (table : LanguageTable) {languages : List Language}
    (hvalid : ∀ language ∈ languages, (entryOf language).fault? = none) :
    (Edit.insertAll languages).on table = (.ok (), languages.foldl place table) := by
  rw [on_insertAll, on_forM_of_valid table hvalid]

theorem exists_on_insertAll_of_invalid (table : LanguageTable) {languages : List Language}
    (hinvalid : ∃ language ∈ languages, (entryOf language).fault? ≠ none) :
    ∃ refused, (Edit.insertAll languages).on table = (.error refused, table) := by
  obtain ⟨refused, staged, hloop⟩ := exists_on_forM_of_invalid table hinvalid
  exact ⟨refused, by rw [on_insertAll, hloop]⟩

/-- The loop has added a language when it fails at the next one, but to the copy only. -/
example :
    let languages := [python, { python with extension := "..".toList }]
    (Edit.on (forM languages Edit.insert) empty).2 = ⟨[("py".toList, python)]⟩ ∧
      (Edit.insertAll languages).on empty = (.error ([], .extension), empty) :=
  ⟨rfl, rfl⟩

inductive Update where
  | insert (language : Language)
  | load (view : FileView Id) (path : Text)

/-- The text of a file that can be read and is one. -/
def descriptionAt (view : FileView Id) (path : Text) : Option Text :=
  match (view.read path).run with
  | .ok bytes => Text.decode? bytes
  | .error _ => none

def described (description : Text) : Option (List Language) :=
  (Json.read description).bind Language.listOfJson

def Update.languages? : Update → Option (List Language)
  | .insert language => some [language]
  | .load view path => (descriptionAt view path).bind described

/-- What an update answers, and the table that is there once it has been tried. -/
def update (table : LanguageTable) : Update → Except Error Unit × LanguageTable
  | .insert language =>
      let (answer, edited) := (Edit.insert language).on table
      (answer.mapError fun (extension, fault) => .invalidLanguage extension fault, edited)
  | .load view path =>
      let (answer, edited) := (Command.loadLanguages view table path).run
      (answer.map fun _ => (), edited)

def after (table : LanguageTable) (update : Update) : LanguageTable :=
  (table.update update).2

theorem exists_loadLanguages_of_not_text (table : LanguageTable) {view : FileView Id} {path : Text}
    (hnone : descriptionAt view path = none) :
    ∃ error, (Command.loadLanguages view table path).run = (.error error, table) := by
  unfold descriptionAt at hnone
  cases hread : (view.read path).run with
  | error fault =>
      refine ⟨.fileSystem path fault, ?_⟩
      simp only [Command.loadLanguages, Id.run_bind, hread]
      rfl
  | ok bytes =>
      rw [hread] at hnone
      refine ⟨.fileSystem path .notText, ?_⟩
      simp only [Command.loadLanguages, Id.run_bind, hread,
        show Text.decode? bytes = none from hnone]
      rfl

theorem loadLanguages_of_text (table : LanguageTable) {view : FileView Id}
    {path description : Text} (htext : descriptionAt view path = some description) :
    (Command.loadLanguages view table path).run =
      (((Edit.load description).on table).1.mapError (Command.loadError path),
        ((Edit.load description).on table).2) := by
  unfold descriptionAt at htext
  cases hread : (view.read path).run with
  | error fault =>
      rw [hread] at htext
      contradiction
  | ok bytes =>
      rw [hread] at htext
      simp only [Command.loadLanguages, Id.run_bind, hread,
        show Text.decode? bytes = some description from htext]
      rfl

theorem on_load_of_described (table : LanguageTable) {description : Text}
    {languages : List Language} (hdescribed : described description = some languages) :
    (Edit.load description).on table =
      match (Edit.insertAll languages).on table with
      | (.error (extension, fault), edited) => (.error (.language extension fault), edited)
      | (.ok (), edited) => (.ok languages.length, edited) := by
  have hlisted : (Json.read description).bind Language.listOfJson = some languages := hdescribed
  simp only [Edit.load, hlisted]
  rcases hadded : (Edit.insertAll languages).on table with ⟨refused | answer, edited⟩
  · refine Edit.on_bind_of_error ?_ _
    rw [Edit.on_adapt, hadded]
    rfl
  · rw [@Edit.on_bind_of_ok _ _ _ _ table edited () (by rw [Edit.on_adapt, hadded]; rfl)]
    rfl

theorem on_load_of_valid (table : LanguageTable) {description : Text} {languages : List Language}
    (hdescribed : described description = some languages)
    (hvalid : ∀ language ∈ languages, (entryOf language).fault? = none) :
    (Edit.load description).on table = (.ok languages.length, languages.foldl place table) := by
  rw [on_load_of_described table hdescribed, on_insertAll_of_valid table hvalid]

theorem loadLanguages_of_valid (table : LanguageTable) {view : FileView Id} {path : Text}
    {languages : List Language} (hlanguages : (Update.load view path).languages? = some languages)
    (hvalid : ∀ language ∈ languages, (entryOf language).fault? = none) :
    (Command.loadLanguages view table path).run =
      (.ok languages.length, languages.foldl place table) := by
  obtain ⟨description, htext, hdescribed⟩ := Option.bind_eq_some_iff.mp hlanguages
  rw [loadLanguages_of_text table htext, on_load_of_valid table hdescribed hvalid]
  rfl

theorem update_of_valid (table : LanguageTable) {update : Update} {languages : List Language}
    (hlanguages : update.languages? = some languages)
    (hvalid : ∀ language ∈ languages, (entryOf language).fault? = none) :
    table.update update = (.ok (), languages.foldl place table) := by
  cases update with
  | insert language =>
      obtain rfl := Option.some.inj hlanguages
      rw [LanguageTable.update, on_insert_of_valid table (hvalid language List.mem_cons_self)]
      rfl
  | load view path =>
      rw [LanguageTable.update, loadLanguages_of_valid table hlanguages hvalid]
      rfl

/-- Whether an update can be taken: it has languages, and each of them is valid as an entry. -/
def Update.Acceptable (update : Update) : Prop :=
  ∃ languages, update.languages? = some languages ∧
    ∀ language ∈ languages, (entryOf language).fault? = none

private theorem exists_on_load_of_not_acceptable (table : LanguageTable) {view : FileView Id}
    {path description : Text} (htext : descriptionAt view path = some description)
    (hnot : ¬ (Update.load view path).Acceptable) :
    ∃ fault, (Edit.load description).on table = (.error fault, table) := by
  cases hdescribed : described description with
  | none =>
      have hlisted : (Json.read description).bind Language.listOfJson = none := hdescribed
      refine ⟨.notDescription, ?_⟩
      simp only [Edit.load, hlisted]
      rfl
  | some languages =>
      have hlanguages : (Update.load view path).languages? = some languages := by
        rw [Update.languages?, htext, Option.bind_some, hdescribed]
      have hinvalid : ∃ language ∈ languages, (entryOf language).fault? ≠ none := by
        simpa using fun hvalid => hnot ⟨languages, hlanguages, hvalid⟩
      obtain ⟨⟨extension, fault⟩, hadded⟩ := exists_on_insertAll_of_invalid table hinvalid
      exact ⟨.language extension fault, by rw [on_load_of_described table hdescribed, hadded]⟩

/-- One invalid language refuses the whole update, wherever it stands. -/
theorem update_of_not_acceptable (table : LanguageTable) {update : Update}
    (hnot : ¬ update.Acceptable) : ∃ error, table.update update = (.error error, table) := by
  cases update with
  | insert language =>
      cases hfault : (entryOf language).fault? with
      | none => exact absurd ⟨[language], rfl, by simpa using hfault⟩ hnot
      | some fault =>
          refine ⟨.invalidLanguage (entryOf language).extension fault, ?_⟩
          rw [LanguageTable.update, on_insert_of_fault table hfault]
          rfl
  | load view path =>
      rw [LanguageTable.update]
      cases htext : descriptionAt view path with
      | none =>
          obtain ⟨error, hload⟩ := exists_loadLanguages_of_not_text table htext
          exact ⟨error, by rw [hload]; rfl⟩
      | some description =>
          obtain ⟨fault, hload⟩ := exists_on_load_of_not_acceptable table htext hnot
          refine ⟨Command.loadError path fault, ?_⟩
          rw [loadLanguages_of_text table htext, hload]
          rfl

theorem Kept.after {table : LanguageTable} (hkept : table.Kept) (update : Update) :
    (table.after update).Kept := by
  by_cases hacceptable : update.Acceptable
  · obtain ⟨languages, hlanguages, hvalid⟩ := hacceptable
    rw [LanguageTable.after, update_of_valid table hlanguages hvalid]
    exact hkept.places hvalid
  · obtain ⟨error, herror⟩ := update_of_not_acceptable table hacceptable
    rw [LanguageTable.after, herror]
    exact hkept

theorem Kept.history {table : LanguageTable} (hkept : table.Kept) (history : List Update) :
    (history.foldl LanguageTable.after table).Kept := by
  induction history generalizing table with
  | nil => exact hkept
  | cons update rest ih => exact ih (hkept.after update)

theorem kept_of_history {start : LanguageTable} (hstart : start = builtin ∨ start = empty)
    (history : List Update) : (history.foldl after start).Kept := by
  rcases hstart with rfl | rfl
  · exact kept_builtin.history history
  · exact kept_empty.history history

theorem Kept.forFile?_eq_some_iff {table : LanguageTable} (hkept : table.Kept) {name : Text}
    {language : Language} :
    table.forFile? name = some language ↔
      ∃ before extension : Text, name = before ++ '.' :: extension ∧ extension ≠ [] ∧
        (∀ c ∈ extension, c ≠ '.' ∧ c ≠ '/' ∧ c ≠ '\\') ∧
        (extension.lower, language) ∈ table.entries := by
  rw [forFile?, Option.bind_eq_some_iff]
  constructor
  · rintro ⟨extension, hextension, hget⟩
    obtain ⟨before, hname, hne, hchars⟩ := FileName.extension?_eq_some_iff.mp hextension
    exact ⟨before, extension, hname, hne, hchars,
      (lookup_eq_some_iff_mem hkept.ordered).mp hget⟩
  · rintro ⟨before, extension, hname, hne, hchars, hmem⟩
    exact ⟨extension, FileName.extension?_eq_some_iff.mpr ⟨before, hname, hne, hchars⟩,
      (lookup_eq_some_iff_mem hkept.ordered).mpr hmem⟩

def kotlin : Language :=
  ⟨".KT".toList, "/*".toList, "*/".toList, none, []⟩

/-- A file that is not there, a language without an extension, and one that is taken. -/
def mixedHistory : List Update :=
  [.load (FileTree.view ⟨[], [], []⟩ []) "languages.json".toList,
    .insert ⟨"..".toList, "/*".toList, "*/".toList, none, []⟩, .insert kotlin]

end LanguageTable
end Docblock
