import Docblock.Proofs.Snippet.Normalization
import Docblock.Proofs.Text.Dropping

namespace Docblock.Snippet

open Text

def escapable (markers : Markers) : List Text :=
  [markers.codeStart, markers.codeEnd, markers.openBlock, markers.closeBlock]

def escaped? (markers : Markers) : Text → Option Text
  | [] => none
  | c :: rest =>
      if c = markers.escape then (escapable markers).find? (·.isPrefixOf rest) else none

def unescapeAfter (markers : Markers) : Nat → Text → Text
  | _, [] => []
  | count + 1, c :: rest => c :: unescapeAfter markers count rest
  | 0, c :: rest =>
      match escaped? markers (c :: rest) with
      | some marker => unescapeAfter markers marker.length rest
      | none => c :: unescapeAfter markers 0 rest

/-- Drops the escape in front of every marker in one pass from left to right, which copies
the marker and goes on behind it. -/
def unescapeOnce (markers : Markers) (text : Text) : Text :=
  unescapeAfter markers 0 text

def beginsMarker (rest : Text) : Bool :=
  (escapable Markers.standard).any (·.isPrefixOf rest)

theorem beginsMarker_iff {rest : Text} :
    beginsMarker rest = true ↔ ∃ marker ∈ escapable Markers.standard, marker <+: rest := by
  simp [beginsMarker, List.isPrefixOf_iff_prefix]

theorem escape_not_mem_escapable :
    ∀ marker ∈ escapable Markers.standard, '\\' ∉ marker := by
  decide

private theorem unescapeAfter_eq_dropBefore {count : Nat} {text : Text}
    (hcopied : '\\' ∉ text.take count) :
    unescapeAfter Markers.standard count text = dropBefore '\\' beginsMarker text := by
  induction text generalizing count with
  | nil => cases count <;> rfl
  | cons c rest ih =>
      cases count with
      | succ count =>
          rw [List.take_succ_cons, List.mem_cons, not_or] at hcopied
          rw [unescapeAfter, ih hcopied.2, dropBefore_of_ne (Ne.symm hcopied.1)]
      | zero =>
          rw [unescapeAfter]
          cases hescaped : escaped? Markers.standard (c :: rest) with
          | none =>
              rcases dropBefore_cons_cases '\\' beginsMarker c rest with
                ⟨rfl, hbegins, -⟩ | ⟨-, hstays⟩
              · obtain ⟨marker, hmem, hmarker⟩ := beginsMarker_iff.mp hbegins
                have hnone := List.find?_eq_none.mp hescaped marker hmem
                exact absurd (List.isPrefixOf_iff_prefix.mpr hmarker) hnone
              · rw [hstays]
                exact congrArg (c :: ·) (ih List.not_mem_nil)
          | some marker =>
              rw [escaped?, Option.ite_none_right_eq_some] at hescaped
              obtain ⟨rfl, hfind⟩ := hescaped
              have hmem := List.mem_of_find?_eq_some hfind
              have hmarker : marker <+: rest := by
                simpa [List.isPrefixOf_iff_prefix] using List.find?_some hfind
              have hcopied : '\\' ∉ rest.take marker.length := by
                rw [← List.prefix_iff_eq_take.mp hmarker]
                exact escape_not_mem_escapable marker hmem
              have hbegins := beginsMarker_iff.mpr ⟨marker, hmem, hmarker⟩
              exact (ih hcopied).trans (dropBefore_of_meets hbegins).symm

theorem unescapeOnce_eq_dropBefore (text : Text) :
    unescapeOnce Markers.standard text = dropBefore '\\' beginsMarker text :=
  unescapeAfter_eq_dropBefore List.not_mem_nil

def startPass (rest : Text) : Bool :=
  Markers.standard.codeStart.isPrefixOf rest

def codePasses : Text → Bool :=
  alsoBefore '\\' startPass Markers.standard.codeEnd

def openPasses : Text → Bool :=
  alsoBefore '\\' codePasses Markers.standard.openBlock

def allPasses : Text → Bool :=
  alsoBefore '\\' openPasses Markers.standard.closeBlock

theorem unescape_eq_dropBefore (text : Text) :
    unescape Markers.standard text = dropBefore '\\' allPasses text := by
  rw [unescape_eq, replace_eq_dropBefore (by decide) text, replace_dropBefore (by decide),
    replace_dropBefore (by decide), replace_dropBefore (by decide)]
  rfl

def codeMarks : List Text :=
  [Markers.standard.codeStart, Markers.standard.codeEnd, "#@codeend@\\#@codestart@#".toList]

theorem startPass_iff {rest : Text} :
    startPass rest = true ↔ Markers.standard.codeStart <+: rest :=
  List.isPrefixOf_iff_prefix

private theorem head?_dropBefore_startPass (rest : Text) (hmeets : startPass rest = true) :
    (dropBefore '\\' startPass rest).head? = some '#' := by
  obtain ⟨behind, rfl⟩ := startPass_iff.mp hmeets
  rw [dropBefore_append (by decide)]
  rfl

private theorem exists_codeMark_of_codeEnd {rest : Text}
    (hend : Markers.standard.codeEnd <+: dropBefore '\\' startPass rest) :
    ∃ mark ∈ codeMarks, mark <+: rest := by
  have hcodeEnd : Markers.standard.codeEnd = '#' :: ("@codeend@".toList ++ ['#']) := by decide
  rw [hcodeEnd] at hend
  rcases cons_prefix_dropBefore hend with
    ⟨behind, rfl, hbehind⟩ | ⟨behind, rfl, hmeets, hbehind⟩
  · obtain ⟨behind, rfl, hlast⟩ :=
      append_prefix_dropBefore head?_dropBefore_startPass (by decide) hbehind
    rcases cons_prefix_dropBefore hlast with ⟨behind, rfl, -⟩ | ⟨behind, rfl, hmeets, -⟩
    · exact ⟨Markers.standard.codeEnd, by decide, behind, rfl⟩
    · obtain ⟨behind, rfl⟩ := startPass_iff.mp hmeets
      exact ⟨"#@codeend@\\#@codestart@#".toList, by decide, behind, rfl⟩
  · -- What stands behind the dropped escape is another marker.
    obtain ⟨behind, rfl⟩ := startPass_iff.mp hmeets
    rw [← hcodeEnd, dropBefore_append (by decide)] at hbehind
    have hstart := List.prefix_append Markers.standard.codeStart
      (dropBefore '\\' startPass behind)
    rcases List.prefix_or_prefix_of_prefix hbehind hstart with hshorter | hshorter
    · exact absurd hshorter (by decide)
    · exact absurd hshorter (by decide)

theorem codePasses_iff {rest : Text} :
    codePasses rest = true ↔ ∃ mark ∈ codeMarks, mark <+: rest := by
  rw [codePasses, alsoBefore_iff]
  constructor
  · rintro (hmeets | hend)
    · exact ⟨Markers.standard.codeStart, by decide, startPass_iff.mp hmeets⟩
    · exact exists_codeMark_of_codeEnd hend
  · rintro ⟨mark, hmem, hmark⟩
    obtain ⟨behind, rfl⟩ := hmark
    simp only [codeMarks, List.mem_cons, List.not_mem_nil, or_false] at hmem
    rcases hmem with rfl | rfl | rfl
    · exact .inl (startPass_iff.mpr (List.prefix_append _ _))
    · right
      rw [dropBefore_append (by decide)]
      exact List.prefix_append _ _
    · right
      have hstart : startPass (Markers.standard.codeStart ++ behind) = true :=
        startPass_iff.mpr (List.prefix_append _ _)
      have hsplit : "#@codeend@\\#@codestart@#".toList ++ behind =
          "#@codeend@".toList ++ '\\' :: (Markers.standard.codeStart ++ behind) := rfl
      rw [hsplit, dropBefore_append (by decide), dropBefore_of_meets hstart,
        dropBefore_append (by decide), ← List.append_assoc]
      exact (List.IsPrefix.trans (by decide) (List.prefix_append _ _))

theorem openBlock_prefix_of_codePasses {rest : Text} (hmeets : codePasses rest = true) :
    Markers.standard.openBlock <+: rest := by
  obtain ⟨mark, hmem, hmark⟩ := codePasses_iff.mp hmeets
  have hopen : ∀ mark ∈ codeMarks, Markers.standard.openBlock <+: mark := by decide
  exact (hopen mark hmem).trans hmark

private theorem head?_dropBefore_codePasses (rest : Text) (hmeets : codePasses rest = true) :
    (dropBefore '\\' codePasses rest).head? = some '#' := by
  obtain ⟨behind, rfl⟩ := openBlock_prefix_of_codePasses hmeets
  rw [dropBefore_append (by decide)]
  rfl

theorem openPasses_iff {rest : Text} :
    openPasses rest = true ↔
      Markers.standard.openBlock <+: rest ∨ ∃ mark ∈ codeMarks, '\\' :: mark <+: rest := by
  rw [openPasses, alsoBefore_iff]
  constructor
  · rintro (hmeets | hopen)
    · exact .inl (openBlock_prefix_of_codePasses hmeets)
    · rcases cons_prefix_dropBefore hopen with
        ⟨behind, rfl, hbehind⟩ | ⟨behind, rfl, hmeets, -⟩
      · obtain ⟨behind, rfl, -⟩ :=
          cons_prefix_dropBefore_of_ne head?_dropBefore_codePasses (by decide) hbehind
        exact .inl ⟨behind, rfl⟩
      · obtain ⟨mark, hmem, hmark⟩ := codePasses_iff.mp hmeets
        exact .inr ⟨mark, hmem, List.cons_prefix_cons.mpr ⟨rfl, hmark⟩⟩
  · rintro (hopen | ⟨mark, hmem, behind, rfl⟩)
    · obtain ⟨behind, rfl⟩ := hopen
      right
      rw [dropBefore_append (by decide)]
      exact List.prefix_append _ _
    · right
      have hmeets : codePasses (mark ++ behind) = true :=
        codePasses_iff.mpr ⟨mark, hmem, List.prefix_append mark behind⟩
      obtain ⟨inner, hinner⟩ := openBlock_prefix_of_codePasses hmeets
      rw [List.cons_append, dropBefore_of_meets hmeets, ← hinner, dropBefore_append (by decide)]
      exact List.prefix_append _ _

private theorem head?_dropBefore_openPasses (rest : Text) (hmeets : openPasses rest = true) :
    (dropBefore '\\' openPasses rest).head? = some '#' := by
  rcases openPasses_iff.mp hmeets with ⟨behind, rfl⟩ | ⟨mark, hmem, behind, rfl⟩
  · rw [dropBefore_append (by decide)]
    rfl
  · have hcode : codePasses (mark ++ behind) = true :=
      codePasses_iff.mpr ⟨mark, hmem, List.prefix_append mark behind⟩
    have hopens : openPasses (mark ++ behind) = true :=
      openPasses_iff.mpr (.inl (openBlock_prefix_of_codePasses hcode))
    obtain ⟨inner, hinner⟩ := openBlock_prefix_of_codePasses hcode
    rw [List.cons_append, dropBefore_of_meets hopens, ← hinner, dropBefore_append (by decide)]
    rfl

theorem allPasses_iff {rest : Text} :
    allPasses rest = true ↔
      openPasses rest = true ∨ Markers.standard.closeBlock <+: rest ∨
        ∃ behind, rest = '@' :: '\\' :: behind ∧ openPasses behind = true := by
  rw [allPasses, alsoBefore_iff]
  apply or_congr_right
  constructor
  · intro hclose
    obtain ⟨behind, rfl, hbehind⟩ :=
      cons_prefix_dropBefore_of_ne head?_dropBefore_openPasses (by decide) hclose
    rcases cons_prefix_dropBefore hbehind with ⟨behind, rfl, -⟩ | ⟨behind, rfl, hmeets, -⟩
    · exact .inl ⟨behind, rfl⟩
    · exact .inr ⟨behind, rfl, hmeets⟩
  · rintro (⟨behind, rfl⟩ | ⟨behind, rfl, hmeets⟩)
    · rw [dropBefore_append (by decide)]
      exact List.prefix_append _ _
    · have hhead := head?_dropBefore_openPasses behind hmeets
      obtain ⟨inner, hinner⟩ := List.head?_eq_some_iff.mp hhead
      rw [dropBefore_of_ne (by decide), dropBefore_of_meets hmeets, hinner]
      exact List.prefix_append ['@', '#'] inner

theorem allPasses_of_beginsMarker {rest : Text} (hbegins : beginsMarker rest = true) :
    allPasses rest = true := by
  obtain ⟨marker, hmem, hmarker⟩ := beginsMarker_iff.mp hbegins
  have hshort : ∀ marker ∈ escapable Markers.standard,
      Markers.standard.openBlock <+: marker ∨ Markers.standard.closeBlock <+: marker := by
    decide
  rcases hshort marker hmem with hopen | hclose
  · exact allPasses_iff.mpr (.inl (openPasses_iff.mpr (.inl (hopen.trans hmarker))))
  · exact allPasses_iff.mpr (.inr (.inl (hclose.trans hmarker)))

/-- The texts that lose more than one pass takes off them. -/
def tangles : List Text :=
  "\\@\\#@".toList :: codeMarks.map ("\\\\".toList ++ ·)

private theorem exists_tangle {rest : Text} (hpasses : allPasses rest = true)
    (hbegins : beginsMarker rest = false) : ∃ tangle ∈ tangles, tangle <:+: '\\' :: rest := by
  have hmarker : ∀ marker ∈ escapable Markers.standard, ¬ marker <+: rest := by
    intro marker hmem hmarker
    rw [beginsMarker_iff.mpr ⟨marker, hmem, hmarker⟩] at hbegins
    contradiction
  have hdoubled : ∀ mark ∈ codeMarks, ∀ behind, '\\' :: mark <+: behind →
      ∃ tangle ∈ tangles, tangle <:+: '\\' :: behind := by
    intro mark hmem behind hmark
    refine ⟨"\\\\".toList ++ mark, List.mem_cons_of_mem _ (List.mem_map_of_mem hmem), ?_⟩
    exact (List.cons_prefix_cons.mpr ⟨rfl, hmark⟩).isInfix
  rcases allPasses_iff.mp hpasses with hopens | hclose | ⟨behind, rfl, hopens⟩
  · rcases openPasses_iff.mp hopens with hopen | ⟨mark, hmem, hmark⟩
    · exact absurd hopen (hmarker _ (by decide))
    · exact hdoubled mark hmem rest hmark
  · exact absurd hclose (hmarker _ (by decide))
  · rcases openPasses_iff.mp hopens with ⟨inner, rfl⟩ | ⟨mark, hmem, hmark⟩
    · exact ⟨"\\@\\#@".toList, List.mem_cons_self, [], inner, rfl⟩
    · obtain ⟨tangle, htangle, hwithin⟩ := hdoubled mark hmem behind hmark
      have hsuffix : '\\' :: behind <:+ '\\' :: '@' :: '\\' :: behind :=
        List.suffix_append ['\\', '@'] _
      exact ⟨tangle, htangle, hwithin.trans hsuffix.isInfix⟩

private theorem passes_of_tangle {tangle rest : Text} (hmem : tangle ∈ tangles)
    (htangle : tangle <+: '\\' :: rest) :
    allPasses rest = true ∧ beginsMarker rest = false := by
  have hapart : ∀ tangle ∈ tangles, ∀ marker ∈ escapable Markers.standard,
      ¬ marker <+: tangle.tail ∧ ¬ tangle.tail <+: marker := by
    decide
  have htail : tangle.tail <+: rest := by
    cases tangle with
    | nil => exact List.nil_prefix
    | cons c part => exact (List.cons_prefix_cons.mp htangle).2
  constructor
  · obtain ⟨behind, rfl⟩ := htail
    rcases List.mem_cons.mp hmem with rfl | hmem
    · have hopens : openPasses ("#@".toList ++ behind) = true :=
        openPasses_iff.mpr (.inl (List.prefix_append _ _))
      exact allPasses_iff.mpr (.inr (.inr ⟨"#@".toList ++ behind, rfl, hopens⟩))
    · obtain ⟨mark, hmark, rfl⟩ := List.mem_map.mp hmem
      have hopens : openPasses ('\\' :: (mark ++ behind)) = true :=
        openPasses_iff.mpr (.inr ⟨mark, hmark, behind, rfl⟩)
      exact allPasses_iff.mpr (.inl hopens)
  · rw [Bool.eq_false_iff]
    intro hbegins
    obtain ⟨marker, hmarker, hprefix⟩ := beginsMarker_iff.mp hbegins
    have hneither := hapart tangle hmem marker hmarker
    exact (List.prefix_or_prefix_of_prefix hprefix htail).elim hneither.1 hneither.2

private theorem eq_once_iff_no_tangle (text : Text) :
    unescape Markers.standard text = unescapeOnce Markers.standard text ↔
      ∀ tangle ∈ tangles, ¬ tangle <:+: text := by
  rw [unescape_eq_dropBefore, unescapeOnce_eq_dropBefore,
    dropBefore_eq_iff (fun _ => allPasses_of_beginsMarker)]
  constructor
  · intro hagree tangle hmem hwithin
    obtain ⟨part, hpart, hsuffix⟩ := List.infix_iff_prefix_suffix.mp hwithin
    have hescape : ∀ tangle ∈ tangles, tangle.head? = some '\\' := by decide
    obtain ⟨inner, rfl⟩ := List.head?_eq_some_iff.mp (hescape tangle hmem)
    obtain ⟨behind, rfl⟩ := hpart
    have hpasses : allPasses (inner ++ behind) = true ∧ beginsMarker (inner ++ behind) = false :=
      passes_of_tangle hmem (List.prefix_append _ behind)
    rw [hagree (inner ++ behind) hsuffix hpasses.1] at hpasses
    exact Bool.noConfusion hpasses.2
  · intro hfree rest hsuffix hpasses
    cases hbegins : beginsMarker rest with
    | true => rfl
    | false =>
        obtain ⟨tangle, hmem, hwithin⟩ := exists_tangle hpasses hbegins
        exact absurd (hwithin.trans hsuffix.isInfix) (hfree tangle hmem)

private theorem allPasses_escape_iff {rest : Text} :
    allPasses ('\\' :: rest) = true ↔ ∃ mark ∈ codeMarks, mark <+: rest := by
  have hopen : ¬ Markers.standard.openBlock <+: '\\' :: rest := fun hopen =>
    absurd (List.cons_prefix_cons.mp hopen).1 (by decide)
  have hclose : ¬ Markers.standard.closeBlock <+: '\\' :: rest := fun hclose =>
    absurd (List.cons_prefix_cons.mp hclose).1 (by decide)
  rw [allPasses_iff, openPasses_iff]
  constructor
  · rintro ((habsurd | ⟨mark, hmem, hmark⟩) | habsurd | ⟨behind, hcons, -⟩)
    · exact absurd habsurd hopen
    · exact ⟨mark, hmem, (List.cons_prefix_cons.mp hmark).2⟩
    · exact absurd habsurd hclose
    · exact absurd (List.cons.inj hcons).1 (by decide)
  · rintro ⟨mark, hmem, hmark⟩
    exact .inl (.inr ⟨mark, hmem, List.cons_prefix_cons.mpr ⟨rfl, hmark⟩⟩)

private theorem unescape_escaped_twice {marker : Text} (hmem : marker ∈ escapable Markers.standard)
    (text : Text) :
    unescape Markers.standard ('\\' :: '\\' :: (marker ++ text)) =
      if ∃ mark ∈ codeMarks, mark <+: marker ++ text then
        marker ++ unescape Markers.standard text
      else '\\' :: (marker ++ unescape Markers.standard text) := by
  have hinner : allPasses (marker ++ text) = true :=
    allPasses_of_beginsMarker (beginsMarker_iff.mpr ⟨marker, hmem, List.prefix_append _ _⟩)
  rw [unescape_eq_dropBefore, unescape_eq_dropBefore]
  split
  · next hcode =>
      rw [dropBefore_of_meets (allPasses_escape_iff.mpr hcode), dropBefore_of_meets hinner,
        dropBefore_append (escape_not_mem_escapable marker hmem)]
  · next hcode =>
      have houter : allPasses ('\\' :: (marker ++ text)) = false := by
        rw [Bool.eq_false_iff]
        exact fun hpasses => hcode (allPasses_escape_iff.mp hpasses)
      rw [dropBefore_of_not_meets houter, dropBefore_of_meets hinner,
        dropBefore_append (escape_not_mem_escapable marker hmem)]

/-- The four passes do what one pass does exactly in texts without a tangle.  Of two escapes
before a marker they drop one, but both where the end or the start of code stands. -/
theorem unescape_eq_unescapeOnce_iff (text : Text) :
    (unescape Markers.standard text = unescapeOnce Markers.standard text ↔
      ∀ tangle ∈ tangles, ¬ tangle <:+: text) ∧
    ∀ marker ∈ escapable Markers.standard,
      unescape Markers.standard ('\\' :: '\\' :: (marker ++ text)) =
        if ∃ mark ∈ codeMarks, mark <+: marker ++ text then
          marker ++ unescape Markers.standard text
        else '\\' :: (marker ++ unescape Markers.standard text) :=
  ⟨eq_once_iff_no_tangle text, fun _ hmem => unescape_escaped_twice hmem text⟩

/-- A code marker behind two escapes loses both, and a closing one loses the escape that does
not stand right before it. -/
theorem unescape_takes_two_escapes :
    unescape Markers.standard "\\\\#@codestart@#".toList = "#@codestart@#".toList ∧
      unescapeOnce Markers.standard "\\\\#@codestart@#".toList = "\\#@codestart@#".toList ∧
      unescape Markers.standard "\\@\\#@".toList = "@#@".toList ∧
      unescapeOnce Markers.standard "\\@\\#@".toList = "\\@#@".toList := by
  decide

end Docblock.Snippet
