import Docblock.Files.Tree

namespace Docblock.FileTree

/-- A tree is another with one file put in: a path leads to the file, which holds some bytes,
and everything else is as it was. -/
structure Puts (tree : FileTree) (path : Text) (bytes : List UInt8) (written : FileTree) :
    Prop where
  read_path : written.read path = .ok bytes
  files_elsewhere : ∃ place, written.resolve path = .ok place ∧
    ∀ other, other ≠ place → written.files.lookup other = tree.files.lookup other
  directories : written.directories = tree.directories
  workingDirectory : written.workingDirectory = tree.workingDirectory

theorem lookup_put_self (place : List Text) (bytes : List UInt8)
    (files : List (List Text × List UInt8)) :
    (put place bytes files).lookup place = some bytes := by
  induction files with
  | nil => exact List.lookup_cons_self
  | cons file files ih =>
      obtain ⟨other, old⟩ := file
      by_cases hother : other = place
      · rw [put, if_pos hother, List.lookup_cons_self]
      · rw [put, if_neg hother, List.lookup_cons, beq_false_of_ne (Ne.symm hother)]
        exact ih

theorem lookup_put_of_ne {place other : List Text} (hne : other ≠ place) (bytes : List UInt8)
    (files : List (List Text × List UInt8)) :
    (put place bytes files).lookup other = files.lookup other := by
  induction files with
  | nil => simp [put, List.lookup_cons, beq_false_of_ne hne]
  | cons file files ih =>
      obtain ⟨first, old⟩ := file
      by_cases hfirst : first = place
      · subst hfirst
        rw [put, if_pos rfl, List.lookup_cons, List.lookup_cons, beq_false_of_ne hne]
      · rw [put, if_neg hfirst, List.lookup_cons, List.lookup_cons, ih]

private theorem exists_mem_put {file : List Text × List UInt8}
    {files : List (List Text × List UInt8)}
    (hfile : file ∈ files) (place : List Text) (bytes : List UInt8) :
    ∃ other ∈ put place bytes files, other.1 = file.1 := by
  induction files with
  | nil => contradiction
  | cons first files ih =>
      by_cases hfirst : first.1 = place
      · rw [put, if_pos hfirst]
        rcases List.mem_cons.mp hfile with rfl | hrest
        · exact ⟨_, List.mem_cons_self, hfirst.symm⟩
        · exact ⟨file, List.mem_cons_of_mem _ hrest, rfl⟩
      · rw [put, if_neg hfirst]
        rcases List.mem_cons.mp hfile with rfl | hrest
        · exact ⟨file, List.mem_cons_self, rfl⟩
        · obtain ⟨other, hother, hplace⟩ := ih hrest
          exact ⟨other, List.mem_cons_of_mem _ hother, hplace⟩

structure Extends (larger smaller : FileTree) : Prop where
  directory : ∀ place, smaller.kindAt place = some .directory →
    larger.kindAt place = some .directory
  something : ∀ place, smaller.kindAt place ≠ none → larger.kindAt place ≠ none

theorem kindAt_ne_none_iff (tree : FileTree) (place : List Text) :
    tree.kindAt place ≠ none ↔ tree.files.lookup place ≠ none ∨ tree.isDirectory place = true := by
  unfold kindAt
  cases tree.files.lookup place with
  | some bytes => simp
  | none => cases tree.isDirectory place <;> simp

private theorem kindAt_eq_directory_iff (tree : FileTree) (place : List Text) :
    tree.kindAt place = some .directory ↔
      tree.files.lookup place = none ∧ tree.isDirectory place = true := by
  unfold kindAt
  cases tree.files.lookup place with
  | some bytes => simp
  | none => cases tree.isDirectory place <;> simp

private theorem isDirectory_put {tree : FileTree} {place : List Text}
    (hplace : tree.isDirectory place = true) (target : List Text) (bytes : List UInt8) :
    isDirectory { tree with files := put target bytes tree.files } place = true := by
  simp only [isDirectory, Bool.or_eq_true, List.any_eq_true] at hplace ⊢
  refine hplace.imp_right fun hfile => ?_
  obtain ⟨file, hfile, hbelow⟩ := hfile
  obtain ⟨other, hother, hsame⟩ := exists_mem_put hfile target bytes
  exact ⟨other, hother, hsame ▸ hbelow⟩

theorem extends_put {tree : FileTree} {target : List Text}
    (htarget : tree.kindAt target ≠ some .directory) (bytes : List UInt8) :
    Extends { tree with files := put target bytes tree.files } tree where
  directory place hplace := by
    -- The file hides no directory, since its place was none.
    have hne : place ≠ target := fun heq => htarget (heq ▸ hplace)
    rw [kindAt_eq_directory_iff] at hplace ⊢
    exact ⟨(lookup_put_of_ne hne bytes tree.files).trans hplace.1,
      isDirectory_put hplace.2 target bytes⟩
  something place hplace := by
    rw [kindAt_ne_none_iff] at hplace ⊢
    refine hplace.imp (fun hfile => ?_) fun hdirectory => isDirectory_put hdirectory target bytes
    by_cases heq : place = target
    · rw [heq, lookup_put_self]
      exact nofun
    · rwa [lookup_put_of_ne heq]

theorem follow_cons (tree : FileTree) (place : List Text) (part : Text) (rest : List Text) :
    tree.follow place (part :: rest) =
      (tree.follow place [part]).bind fun next => tree.follow next rest := by
  simp only [follow]
  repeat' split
  all_goals rfl

theorem follow_append (tree : FileTree) (start parts more : List Text) :
    tree.follow start (parts ++ more) =
      (tree.follow start parts).bind fun place => tree.follow place more := by
  induction parts generalizing start with
  | nil => rfl
  | cons part rest ih =>
      rw [List.cons_append, follow_cons, follow_cons tree start part rest]
      cases tree.follow start [part] with
      | error fault => rfl
      | ok next => exact ih next

private theorem Extends.follow_part {larger smaller : FileTree} (hextends : larger.Extends smaller)
    {start next : List Text} {part : Text} (hfollow : smaller.follow start [part] = .ok next) :
    larger.follow start [part] = .ok next := by
  simp only [follow] at hfollow ⊢
  by_cases hstart : smaller.kindAt start = some .directory
  · rw [if_neg (not_not_intro hstart)] at hfollow
    rw [if_neg (not_not_intro (hextends.directory start hstart))]
    by_cases hstay : part = [] ∨ part = ['.']
    · rwa [if_pos hstay] at hfollow ⊢
    · rw [if_neg hstay] at hfollow ⊢
      by_cases hup : part = ['.', '.']
      · rwa [if_pos hup] at hfollow ⊢
      · rw [if_neg hup] at hfollow ⊢
        -- Only a name asks what stands at the next place, and only for something to be there.
        by_cases hnext : smaller.kindAt (start ++ [part]) = none
        · rw [if_pos hnext] at hfollow
          split at hfollow <;> contradiction
        · rw [if_neg hnext] at hfollow
          rwa [if_neg (hextends.something _ hnext)]
  · rw [if_pos hstart] at hfollow
    contradiction

theorem Extends.follow_eq_ok {larger smaller : FileTree} (hextends : larger.Extends smaller)
    {start place parts : List Text} (hfollow : smaller.follow start parts = .ok place) :
    larger.follow start parts = .ok place := by
  induction parts generalizing start with
  | nil => exact hfollow
  | cons part rest ih =>
      rw [follow_cons] at hfollow ⊢
      cases hpart : smaller.follow start [part] with
      | error fault =>
          rw [hpart] at hfollow
          contradiction
      | ok next =>
          rw [hpart] at hfollow
          rw [hextends.follow_part hpart]
          exact ih hfollow

private theorem splitOn_eq_parentAndName {path : Text} (hslash : path.getLast? ≠ some '/') :
    path.splitOn '/' = (parentAndName path).1 ++ [(parentAndName path).2] := by
  have hpath : (path.reverse.dropWhile (· = '/')).reverse = path := by
    cases hreverse : path.reverse with
    | nil => simpa using hreverse.symm
    | cons c rest =>
        have hc : c ≠ '/' := by
          rintro rfl
          exact hslash (by rw [← List.head?_reverse, hreverse]; rfl)
        rw [List.dropWhile_cons_of_neg (by simp [hc]), ← hreverse, List.reverse_reverse]
  have hparts := List.splitOn_ne_nil '/' path
  rw [parentAndName, hpath, List.getLastD_eq_getLast?, List.getLast?_eq_some_getLast hparts]
  exact (List.dropLast_concat_getLast hparts).symm

private theorem follow_name {tree : FileTree} {place : List Text} {name : Text}
    (hplace : tree.kindAt place = some .directory)
    (hname : ¬ (name = [] ∨ name = ['.'] ∨ name = ['.', '.']))
    (hshort : ¬ longestName < name.byteLength) (hsome : tree.kindAt (place ++ [name]) ≠ none) :
    tree.follow place [name] = .ok (place ++ [name]) := by
  simp only [not_or] at hname
  obtain ⟨hempty, hdot, hdots⟩ := hname
  simp only [follow]
  rw [if_neg (not_not_intro hplace), if_neg (not_or.mpr ⟨hempty, hdot⟩), if_neg hdots,
    if_neg hshort, if_neg hsome]

/-- A path leads to a directory, and by a name to a place in it where a file may be put. -/
structure Leads (tree : FileTree) (path : Text) (directory : List Text) (name : Text) : Prop where
  path_ne_nil : path ≠ []
  path_short : ¬ longestPath ≤ path.byteLength
  parts : ∃ parent, path.splitOn '/' = parent ++ [name] ∧
    tree.follow (tree.origin path) parent = .ok directory
  isDirectory : tree.kindAt directory = some .directory
  isName : ¬ (name = [] ∨ name = ['.'] ∨ name = ['.', '.'])
  name_short : ¬ longestName < name.byteLength
  free : tree.kindAt (directory ++ [name]) ≠ some .directory

private theorem exists_put_of_write {tree written : FileTree} {path : Text} {bytes : List UInt8}
    (hwrite : tree.write path bytes = .ok written) :
    ∃ directory name, tree.Leads path directory name ∧
      written = { tree with files := put (directory ++ [name]) bytes tree.files } := by
  rw [write] at hwrite
  split at hwrite
  · contradiction
  rename_i hnil
  split at hwrite
  · contradiction
  rename_i hlength
  dsimp only at hwrite
  split at hwrite
  · cases hresolve : tree.resolve path <;> rw [hresolve] at hwrite <;> contradiction
  rename_i hname
  cases hparent : tree.follow (tree.origin path) (parentAndName path).1 with
  | error fault =>
      rw [hparent] at hwrite
      contradiction
  | ok directory =>
      rw [hparent] at hwrite
      simp only [bind, Except.bind] at hwrite
      split at hwrite
      · contradiction
      rename_i hdirectory
      split at hwrite
      · contradiction
      rename_i hslash
      split at hwrite
      · contradiction
      rename_i hshort
      split at hwrite
      · contradiction
      rename_i hfree
      refine ⟨directory, (parentAndName path).2, ?_, (Except.ok.inj hwrite).symm⟩
      exact ⟨hnil, hlength, ⟨_, splitOn_eq_parentAndName hslash, hparent⟩,
        Decidable.not_not.mp hdirectory, hname, hshort, hfree⟩

private theorem Leads.resolve_put {tree : FileTree} {path : Text} {directory : List Text}
    {name : Text}
    (hleads : tree.Leads path directory name) (bytes : List UInt8) :
    resolve { tree with files := put (directory ++ [name]) bytes tree.files } path =
      .ok (directory ++ [name]) := by
  have hextends := extends_put hleads.free bytes
  have hfile : kindAt { tree with files := put (directory ++ [name]) bytes tree.files }
      (directory ++ [name]) ≠ none := by
    rw [kindAt_ne_none_iff, lookup_put_self]
    exact .inl nofun
  obtain ⟨parent, hparts, hparent⟩ := hleads.parts
  rw [resolve, if_neg hleads.path_ne_nil, if_neg hleads.path_short, hparts, follow_append]
  change (follow _ (tree.origin path) parent).bind _ = _
  rw [hextends.follow_eq_ok hparent]
  exact follow_name (hextends.directory _ hleads.isDirectory) hleads.isName hleads.name_short hfile

/-- A write that succeeds puts one file in, where its path leads, and changes nothing else. -/
theorem puts_of_write {tree written : FileTree} {path : Text} {bytes : List UInt8}
    (hwrite : tree.write path bytes = .ok written) : tree.Puts path bytes written := by
  obtain ⟨directory, name, hleads, rfl⟩ := exists_put_of_write hwrite
  have hresolve := hleads.resolve_put bytes
  refine ⟨?_, ⟨_, hresolve, fun other hne => lookup_put_of_ne hne bytes tree.files⟩, rfl, rfl⟩
  rw [read, hresolve]
  simp only [bind, Except.bind, lookup_put_self]

end Docblock.FileTree

namespace Docblock.FileSystem

theorem puts_of_write {system : FileSystem} {written : FileTree} {path : Text} {bytes : List UInt8}
    (hwrite : system.write path bytes = .ok written) : system.tree.Puts path bytes written := by
  unfold write at hwrite
  split at hwrite
  · contradiction
  · exact FileTree.puts_of_write hwrite

end Docblock.FileSystem
