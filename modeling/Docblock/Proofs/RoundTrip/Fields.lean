import Docblock.DocFile
import Docblock.Proofs.Decoration
import Docblock.Proofs.Extraction.Region
import Docblock.Proofs.Span.Pairing
import Docblock.Proofs.Tagging.Segments
import Docblock.Proofs.Token.Marker
import Docblock.Proofs.Token.Scan

namespace Docblock.RoundTrip

/-! Fields that are written to a file are read back from it. -/

/-- A tag and its content, with the tag characters of the content escaped. -/
def writeField (entry : Text × Text) : Text :=
  '@' :: entry.1 ++ ": ".toList ++ entry.2.replace ['@'] ['\\', '@'] ++ ['\n']

def writeBlock (entries : List (Text × Text)) : Text :=
  "#@\n".toList ++ entries.flatMap writeField ++ "@#\n".toList

def writeBlocks (blocks : List (List (Text × Text))) : Text :=
  blocks.flatMap writeBlock

/-- A name in lowercase, and a trimmed content without paired line ends. -/
structure Writable (entry : Text × Text) : Prop where
  isName : Tagging.IsName entry.1
  lowercase : Text.lower entry.1 = entry.1
  content_ne_nil : entry.2 ≠ []
  trimmed : entry.2.trim = entry.2
  unified : ¬ ['\r', '\n'] <:+: entry.2

def fieldMap (entries : List (Text × Text)) : FieldMap :=
  FieldMap.ofList (entries.map fun entry => Field.classify entry.1 entry.2)

def segmentText (content : Text) : Text :=
  ' ' :: content.replace ['@'] ['\\', '@'] ++ ['\n']

def bodyText (entries : List (Text × Text)) : Text :=
  '\n' :: entries.flatMap writeField

theorem writeField_eq_segment (entry : Text × Text) :
    writeField entry = Tagging.segment (entry.1, segmentText entry.2) := by
  simp [writeField, Tagging.segment, segmentText]

theorem bodyText_eq_compose (entries : List (Text × Text)) :
    bodyText entries =
      ['\n'] ++ Tagging.compose (entries.map fun entry => (entry.1, segmentText entry.2)) := by
  rw [bodyText, Tagging.compose, List.flatMap_map, List.singleton_append]
  exact congrArg (fun write => '\n' :: entries.flatMap write) (funext writeField_eq_segment)

theorem shielded_segmentText (content : Text) :
    Text.Shielded '\\' '@' (segmentText content) := by
  have hspace : Text.Shielded '\\' '@' [' '] := Text.shielded_of_not_mem (by decide)
  have hfeed : Text.Shielded '\\' '@' ['\n'] := Text.shielded_of_not_mem (by decide)
  exact (hspace.append (Text.shielded_escaped (by decide) content)).append hfeed

private theorem isBlank_head?_escaped {content : Text} (htrimmed : content.trim = content) :
    ∀ c ∈ (content.replace ['@'] ['\\', '@']).head?, isBlank c = false := by
  intro c hc
  rcases Text.head?_escaped (List.cons_ne_nil '@' []) hc with rfl | hhead
  · rfl
  · exact Text.isBlank_head?_of_trim htrimmed c hhead

theorem isBlank_getLast?_escaped {content : Text} (htrimmed : content.trim = content) :
    ∀ c ∈ (content.replace ['@'] ['\\', '@']).getLast?, isBlank c = false := by
  rw [Text.getLast?_escaped (List.cons_ne_nil '@' [])]
  exact Text.isBlank_getLast?_of_trim htrimmed

theorem trim_segmentText {content : Text} (htrimmed : content.trim = content) :
    (segmentText content).trim = content.replace ['@'] ['\\', '@'] := by
  change Text.trim ([' '] ++ (content.replace ['@'] ['\\', '@'] ++ ['\n'])) = _
  exact Text.trim_surrounded rfl rfl (isBlank_head?_escaped htrimmed)
    (isBlank_getLast?_escaped htrimmed)

private theorem clean_segmentText {content : Text} (htrimmed : content.trim = content) :
    Tagging.clean Markers.standard (segmentText content) = content := by
  rw [Tagging.clean, trim_segmentText htrimmed]
  exact Text.replace_replace_escaped (List.cons_ne_nil '@' []) (by decide) content

private theorem allBlank_segmentText {content : Text} (hne : content ≠ [])
    (htrimmed : content.trim = content) : (segmentText content).allBlank = false := by
  rw [Bool.eq_false_iff]
  intro hblank
  rw [← Text.trim_eq_nil_iff, trim_segmentText htrimmed] at hblank
  exact Text.replace_ne_nil (List.cons_ne_nil _ _) hne hblank

private theorem composable_of_writable {entries : List (Text × Text)}
    (hentries : ∀ entry ∈ entries, Writable entry) :
    Tagging.Composable (entries.map fun entry => (entry.1, segmentText entry.2)) := by
  induction entries with
  | nil => exact .nil
  | cons entry rest ih =>
      rw [List.forall_mem_cons] at hentries
      obtain ⟨hentry, hrest⟩ := hentries
      apply Tagging.Composable.cons hentry.isName
      · exact allBlank_segmentText hentry.content_ne_nil hentry.trimmed
      · exact Tagging.quiet_of_shielded (shielded_segmentText entry.2) _ _
      · intro _
        rw [segmentText, List.getLast?_concat]
        decide
      · exact ih hrest

theorem tagBody_bodyText {entries : List (Text × Text)}
    (hentries : ∀ entry ∈ entries, Writable entry) :
    Tagging.tagBody Markers.standard (bodyText entries) = .ok (fieldMap entries) := by
  rw [bodyText_eq_compose, Tagging.tagBody_compose rfl (composable_of_writable hentries),
    List.map_map, fieldMap]
  apply congrArg (fun fields => Except.ok (FieldMap.ofList fields))
  apply List.map_congr_left
  intro entry hentry
  have hwritable := hentries entry hentry
  simp only [Function.comp_apply, hwritable.lowercase, clean_segmentText hwritable.trimmed]

private theorem hash_not_mem_of_isName {name : Text} (hname : Tagging.IsName name) :
    '#' ∉ name := by
  intro hmem
  have hhash := List.all_eq_true.mp hname.all '#' hmem
  revert hhash
  decide +kernel

private theorem words_writeField_append (entry : Text × Text) (rest : Text) :
    Token.words (writeField entry ++ rest) =
      Token.words ('@' :: entry.1 ++ [':']) ++
        (Token.words (segmentText entry.2) ++ Token.words rest) := by
  have hsplit : writeField entry ++ rest =
      ('@' :: entry.1 ++ [':']) ++ (segmentText entry.2 ++ rest) := by
    simp [writeField_eq_segment, Tagging.segment]
  have htag : Token.Apart ('@' :: entry.1 ++ [':']) (segmentText entry.2 ++ rest) :=
    Token.apart_cons_blank rfl _ _
  have hcontent : Token.Apart (segmentText entry.2) rest :=
    Token.apart_append_singleton rfl _ rest
  rw [hsplit, Token.words_append htag, Token.words_append hcontent]

theorem harmless_of_mem_words {language : Language}
    (hlanguage : language ∈ LanguageTable.builtin.languages) {entries : List (Text × Text)}
    (hentries : ∀ entry ∈ entries, Writable entry) {word : Text}
    (hmem : word ∈ Token.words (bodyText entries)) : Token.Harmless language word := by
  rw [bodyText, Token.words_cons_blank rfl] at hmem
  induction entries with
  | nil => contradiction
  | cons entry rest ih =>
      rw [List.forall_mem_cons] at hentries
      rw [List.flatMap_cons, words_writeField_append, List.mem_append, List.mem_append] at hmem
      rcases hmem with htag | hcontent | hrest
      · obtain ⟨before, after, hsplit, -⟩ := Token.split_of_mem_words htag
        apply Token.harmless_of_not_mem
        intro hhash
        have hmem : '#' ∈ '@' :: entry.1 ++ [':'] := by simp [hsplit, hhash]
        simp [hash_not_mem_of_isName hentries.1.isName] at hmem
      · obtain ⟨before, after, hsplit, hfree⟩ := Token.split_of_mem_words hcontent
        apply Token.harmless_of_shielded hlanguage
        apply Text.Shielded.of_split (hsplit ▸ shielded_segmentText entry.2)
        intro hlast
        rw [hlast] at hfree
        contradiction
      · exact ih hentries.2 hrest

theorem writeBlock_append (entries : List (Text × Text)) (rest : Text) :
    writeBlock entries ++ rest =
      Markers.standard.openBlock ++
        (bodyText entries ++ (Markers.standard.closeBlock ++ '\n' :: rest)) := by
  simp [writeBlock, bodyText, Markers.standard]

private theorem apart_bodyText (entries : List (Text × Text)) (right : Text) :
    Token.Apart (bodyText entries) right := by
  rcases List.eq_nil_or_concat entries with rfl | ⟨front, entry, rfl⟩
  · exact Token.apart_append_singleton rfl [] right
  · rw [List.concat_eq_append, bodyText, List.flatMap_append, List.flatMap_singleton, writeField,
      ← List.append_assoc, ← List.cons_append]
    exact Token.apart_append_singleton rfl _ right

private theorem scan_openBlock (offset : Nat) :
    Token.scan offset Markers.standard.openBlock =
      [Token.ofWord offset Markers.standard.openBlock] :=
  Token.scan_word (by decide) (by decide) offset

private theorem scan_closeBlock (offset : Nat) :
    Token.scan offset Markers.standard.closeBlock =
      [Token.ofWord offset Markers.standard.closeBlock] :=
  Token.scan_word (by decide) (by decide) offset

theorem scan_writeBlock_append (offset : Nat) (entries : List (Text × Text)) (rest : Text) :
    Token.scan offset (writeBlock entries ++ rest) =
      Token.ofWord offset Markers.standard.openBlock ::
        (Token.scan (offset + 2) (bodyText entries) ++
          Token.ofWord (offset + 2 + (bodyText entries).byteLength) Markers.standard.closeBlock ::
            Token.scan (offset + (writeBlock entries).byteLength) rest) := by
  have hopen : Token.Apart Markers.standard.openBlock
      (bodyText entries ++ (Markers.standard.closeBlock ++ '\n' :: rest)) :=
    Token.apart_cons_blank rfl _ _
  have hclose : Token.Apart Markers.standard.closeBlock ('\n' :: rest) :=
    Token.apart_cons_blank rfl _ _
  have hopenLength : Markers.standard.openBlock.byteLength = 2 := rfl
  have hcloseLength : Markers.standard.closeBlock.byteLength = 2 := rfl
  have hfeedLength : '\n'.utf8Size = 1 := rfl
  have hlength : (writeBlock entries).byteLength = 2 + (bodyText entries).byteLength + 2 + 1 := by
    have hblock := congrArg Text.byteLength (writeBlock_append entries [])
    simpa [hopenLength, hcloseLength, hfeedLength, Nat.add_assoc] using hblock
  rw [writeBlock_append, Token.scan_append hopen, scan_openBlock,
    Token.scan_append (apart_bodyText entries _), Token.scan_append hclose, scan_closeBlock,
    Token.scan_cons_blank rfl, hlength, hopenLength, hcloseLength, hfeedLength]
  simp [Nat.add_assoc]

def docSpans (index : Nat) : List (List (Text × Text)) → List Span
  | [] => []
  | entries :: rest =>
      let close := index + 1 + (Token.words (bodyText entries)).length
      ⟨index, some close, .doc⟩ :: docSpans (close + 1) rest

theorem kind_of_mem_docSpans {index : Nat} {blocks : List (List (Text × Text))} {span : Span}
    (hmem : span ∈ docSpans index blocks) : span.kind = .doc := by
  induction blocks generalizing index with
  | nil => contradiction
  | cons entries rest ih =>
      rcases List.mem_cons.mp hmem with rfl | hrest
      · rfl
      · exact ih hrest

section Pairing

variable {language : Language} (hlanguage : language ∈ LanguageTable.builtin.languages)
include hlanguage

theorem isMarker_standard :
    Token.isMarker language Markers.standard.openBlock Markers.standard.closeBlock = false ∧
      Token.isMarker language Markers.standard.codeStart Markers.standard.openBlock = false ∧
        Token.isMarker language Markers.standard.codeStart Markers.standard.closeBlock = false := by
  revert language
  decide

theorem harmless_of_mem_scan {entries : List (Text × Text)}
    (hentries : ∀ entry ∈ entries, Writable entry) {offset : Nat} {token : Token}
    (hmem : token ∈ Token.scan offset (bodyText entries)) :
    Token.Harmless language token.text := by
  apply harmless_of_mem_words hlanguage hentries
  rw [← Token.map_text_scan offset]
  exact List.mem_map_of_mem hmem

theorem pairFrom_docPair_writeBlocks {blocks : List (List (Text × Text))}
    (hblocks : ∀ entries ∈ blocks, ∀ entry ∈ entries, Writable entry) (index offset : Nat) :
    Span.pairFrom language Markers.standard.docPair [] none index
        (Token.scan offset (writeBlocks blocks)) = docSpans index blocks := by
  induction blocks generalizing index offset with
  | nil => rfl
  | cons entries rest ih =>
      rw [List.forall_mem_cons] at hblocks
      have hidle : ∀ entry ∈ (Token.scan (offset + 2) (bodyText entries)).zipIdx (index + 1),
          Span.Idle language Markers.standard.docPair [] (some index) entry.2 entry.1 := by
        intro entry hentry
        have hharmless :=
          harmless_of_mem_scan hlanguage hblocks.1 (List.fst_mem_of_mem_zipIdx hentry)
        exact Span.idle_of_not_close (hharmless Markers.standard.closeBlock (by decide)) _ _
      rw [writeBlocks, List.flatMap_cons, scan_writeBlock_append,
        Span.pairFrom_cons_start _ (Span.live_nil _)
          (Token.isMarker_self language Markers.standard.openBlock),
        Span.pairFrom_append_of_idle _ hidle,
        Span.pairFrom_cons_close _ (Span.live_nil _) (isMarker_standard hlanguage).1
          (Token.isMarker_self language Markers.standard.closeBlock),
        Token.length_scan, docSpans]
      exact congrArg (_ :: ·) (ih hblocks.2 _ _)

theorem not_codeStart_of_mem_scan {blocks : List (List (Text × Text))}
    (hblocks : ∀ entries ∈ blocks, ∀ entry ∈ entries, Writable entry) {offset : Nat}
    {token : Token} (hmem : token ∈ Token.scan offset (writeBlocks blocks)) :
    Token.isMarker language Markers.standard.codeStart token.text = false := by
  obtain ⟨-, hopen, hclose⟩ := isMarker_standard hlanguage
  induction blocks generalizing offset with
  | nil => contradiction
  | cons entries rest ih =>
      rw [List.forall_mem_cons] at hblocks
      rw [writeBlocks, List.flatMap_cons, scan_writeBlock_append, List.mem_cons, List.mem_append,
        List.mem_cons] at hmem
      rcases hmem with rfl | hbody | rfl | hrest
      · exact hopen
      · exact harmless_of_mem_scan hlanguage hblocks.1 hbody _ (by decide)
      · exact hclose
      · exact ih hblocks.2 hrest

end Pairing

private theorem isBlank_getLast?_writeBlock (before : Text) (entries : List (Text × Text)) :
    (before ++ writeBlock entries).getLast?.all isBlank = true := by
  have hends : before ++ writeBlock entries =
      before ++ ("#@\n".toList ++ entries.flatMap writeField ++ "@#".toList) ++ ['\n'] := by
    simp [writeBlock]
  rw [hends, List.getLast?_concat]
  rfl

theorem all_append_writeBlock {before : Text} (hbefore : before.getLast?.all isBlank = true)
    (entries : List (Text × Text)) (rest : Text) :
    Token.all (before ++ (writeBlock entries ++ rest)) =
      Token.all before ++
        Token.ofWord before.byteLength Markers.standard.openBlock ::
          (Token.scan (before.byteLength + 2) (bodyText entries) ++
            Token.ofWord (before.byteLength + 2 + (bodyText entries).byteLength)
                Markers.standard.closeBlock ::
              Token.scan (before.byteLength + (writeBlock entries).byteLength) rest) := by
  rw [Token.all, Token.scan_append (.inl hbefore), Nat.zero_add, scan_writeBlock_append]
  rfl

private theorem between_writeBlock {before : Text} (hbefore : before.getLast?.all isBlank = true)
    (entries : List (Text × Text)) (rest : Text) :
    Extraction.between (before ++ (writeBlock entries ++ rest))
        (Token.all (before ++ (writeBlock entries ++ rest)))
        ⟨(Token.words before).length,
          some ((Token.words before).length + 1 + (Token.words (bodyText entries)).length), .doc⟩ =
      bodyText entries := by
  have htext : before ++ (writeBlock entries ++ rest) =
      (before ++ Markers.standard.openBlock) ++ bodyText entries ++
        (Markers.standard.closeBlock ++ '\n' :: rest) := by
    simp [writeBlock_append]
  have hlength : (before ++ Markers.standard.openBlock).byteLength = before.byteLength + 2 :=
    Text.byteLength_append before Markers.standard.openBlock
  rw [all_append_writeBlock hbefore, htext, ← Token.length_scan 0 before,
    ← Token.length_scan (before.byteLength + 2) (bodyText entries)]
  apply Extraction.between_of_split
  · rw [hlength]
    rfl
  · rw [hlength]
    rfl

private theorem length_words_writeBlock {before : Text}
    (hbefore : before.getLast?.all isBlank = true)
    (entries : List (Text × Text)) :
    (Token.words (before ++ writeBlock entries)).length =
      (Token.words before).length + 1 + (Token.words (bodyText entries)).length + 1 := by
  have hall := all_append_writeBlock hbefore entries []
  rw [List.append_nil] at hall
  rw [Token.words, List.length_map, hall, List.length_append, List.length_cons,
    List.length_append, List.length_cons, Token.length_scan, ← List.length_map Token.text,
    ← Token.words]
  simp only [Token.scan, List.length_nil]
  omega

private theorem map_between_docSpans {before : Text} (hbefore : before.getLast?.all isBlank = true)
    (blocks : List (List (Text × Text))) :
    (docSpans (Token.words before).length blocks).map
        (Extraction.between (before ++ writeBlocks blocks)
          (Token.all (before ++ writeBlocks blocks))) =
      blocks.map bodyText := by
  induction blocks generalizing before with
  | nil => rfl
  | cons entries rest ih =>
      have hrest := ih (isBlank_getLast?_writeBlock before entries)
      rw [length_words_writeBlock hbefore, List.append_assoc] at hrest
      rw [writeBlocks, List.flatMap_cons, ← writeBlocks, docSpans, List.map_cons,
        between_writeBlock hbefore, hrest, List.map_cons]

private theorem strip_bodyText {language : Language}
    (hlanguage : language ∈ LanguageTable.builtin.languages) {entries : List (Text × Text)}
    (hne : entries ≠ []) :
    Decoration.strip language '@' (bodyText entries) = bodyText entries := by
  obtain ⟨entry, rest, rfl⟩ := List.exists_cons_of_ne_nil hne
  have hhead : ((entry :: rest).flatMap writeField).head? = some '@' := rfl
  obtain ⟨line, hline, htag⟩ := Text.exists_line_of_head? hhead (by decide)
  apply Decoration.strip_eq_self hlanguage _ htag
  rwa [bodyText, Text.lines_cons, List.tail_cons]

private theorem isTagged_bodyText {entries : List (Text × Text)} (hne : entries ≠ []) :
    Extraction.isTagged Markers.standard (bodyText entries) = true := by
  obtain ⟨entry, rest, rfl⟩ := List.exists_cons_of_ne_nil hne
  rfl

theorem rawBlocks_writeBlocks {language : Language}
    (hlanguage : language ∈ LanguageTable.builtin.languages)
    {blocks : List (List (Text × Text))} (hne : ∀ entries ∈ blocks, entries ≠ [])
    (hblocks : ∀ entries ∈ blocks, ∀ entry ∈ entries, Writable entry) :
    RawBlock.all language Markers.standard (writeBlocks blocks) =
      blocks.map fun entries => ⟨bodyText entries, []⟩ := by
  have hsnippets : Span.pair language Markers.standard.codePair []
      (Token.all (writeBlocks blocks)) = [] := by
    apply Span.pairFrom_eq_nil
    intro token htoken
    exact not_codeStart_of_mem_scan hlanguage hblocks htoken
  have hmerged : (Regions.find language Markers.standard (Token.all (writeBlocks blocks))).merged =
      docSpans 0 blocks := by
    rw [Regions.find, hsnippets]
    exact pairFrom_docPair_writeBlocks hlanguage hblocks 0 0
  have hpieces : Extraction.pieces language Markers.standard (writeBlocks blocks)
      (Token.all (writeBlocks blocks)) (docSpans 0 blocks) =
        (blocks.map bodyText).map Piece.opening := by
    have hbodies : (docSpans 0 blocks).map (Extraction.between (writeBlocks blocks)
        (Token.all (writeBlocks blocks))) = blocks.map bodyText :=
      @map_between_docSpans [] rfl blocks
    rw [Extraction.pieces_of_docs fun _ hspan => kind_of_mem_docSpans hspan, hbodies,
      List.flatMap_map, List.map_map, List.map_eq_flatMap]
    apply List.flatMap_congr
    intro entries hentries
    have hstrip := strip_bodyText hlanguage (hne entries hentries)
    have htagged := isTagged_bodyText (hne entries hentries)
    simp only [Extraction.bodyPiece, show Markers.standard.tag = '@' from rfl, hstrip, htagged]
    rfl
  simp only [RawBlock.all, Extraction.blocks, hmerged, hpieces, Extraction.group_map_opening,
    Extraction.number_map_nil]
  exact List.map_map

private theorem unified_writeField {entry : Text × Text} (hentry : Writable entry) :
    Text.Unified (writeField entry) := by
  have hreturn : '\r' ∉ entry.1 := by
    intro hmem
    have hname := List.all_eq_true.mp hentry.isName.all '\r' hmem
    revert hname
    decide +kernel
  have htag : Text.Unified ('@' :: entry.1 ++ ": ".toList) :=
    Text.unified_of_not_mem (by simp [hreturn])
  have hcontent : Text.Unified (entry.2.replace ['@'] ['\\', '@']) := by
    constructor
    · intro hwithin
      exact hentry.unified (Text.infix_of_infix_escaped (List.cons_ne_nil '@' []) (by decide)
        (by decide) hwithin)
    · intro hlast
      have hblank := isBlank_getLast?_escaped hentry.trimmed '\r' hlast
      contradiction
  exact (htag.append hcontent).append (Text.unified_of_not_mem (by decide))

private theorem unifyLineEnds_writeBlocks {blocks : List (List (Text × Text))}
    (hblocks : ∀ entries ∈ blocks, ∀ entry ∈ entries, Writable entry) :
    DocFile.unifyLineEnds (writeBlocks blocks) = writeBlocks blocks := by
  have hunified : Text.Unified (writeBlocks blocks) := by
    apply Text.unified_flatMap
    intro entries hentries
    have hfields : Text.Unified (entries.flatMap writeField) := by
      apply Text.unified_flatMap
      intro entry hentry
      exact unified_writeField (hblocks entries hentries entry hentry)
    have hopen : Text.Unified "#@\n".toList := Text.unified_of_not_mem (by decide)
    have hclose : Text.Unified "@#\n".toList := Text.unified_of_not_mem (by decide)
    exact (hopen.append hfields).append hclose
  exact Text.replace_eq_self hunified.not_pair ['\n']

private theorem mapM_eq_ok {α β ε : Type} {items : List α} {read : α → Except ε β} {result : α → β}
    (hread : ∀ item ∈ items, read item = .ok (result item)) :
    items.mapM read = .ok (items.map result) := by
  induction items with
  | nil => rfl
  | cons item rest ih =>
      rw [List.forall_mem_cons] at hread
      rw [List.mapM_cons, hread.1, ih hread.2]
      rfl

private theorem fields_insert_ne_nil (map : FieldMap) (field : Field) :
    (map.insert field).fields ≠ [] := by
  unfold FieldMap.insert
  cases map.fields with
  | nil => exact List.cons_ne_nil _ _
  | cons other rest =>
      rw [FieldMap.put]
      split <;> exact List.cons_ne_nil _ _

private theorem fieldMap_ne_nil {entries : List (Text × Text)} (hne : entries ≠ []) :
    (fieldMap entries).fields ≠ [] := by
  rcases List.eq_nil_or_concat entries with rfl | ⟨front, entry, rfl⟩
  · contradiction
  · rw [fieldMap, FieldMap.ofList, List.concat_eq_append, List.map_append, List.foldl_append]
    exact fields_insert_ne_nil _ _

/-- Written fields survive parsing, block by block. -/
theorem parse_writeBlocks {language : Language}
    (hlanguage : language ∈ LanguageTable.builtin.languages)
    {blocks : List (List (Text × Text))} (hne : ∀ entries ∈ blocks, entries ≠ [])
    (hblocks : ∀ entries ∈ blocks, ∀ entry ∈ entries, Writable entry) (file : Text) :
    DocFile.parse Markers.standard language file (writeBlocks blocks) =
      .ok ⟨file, language.extension, blocks.map fieldMap⟩ := by
  have hmaps : (RawBlock.all language Markers.standard (writeBlocks blocks)).mapM
      (Tagging.tag Markers.standard) = .ok (blocks.map fieldMap) := by
    rw [rawBlocks_writeBlocks hlanguage hne hblocks, List.mapM_map]
    apply mapM_eq_ok
    intro entries hentries
    simp only [Function.comp_apply, Tagging.tag, tagBody_bodyText (hblocks entries hentries)]
    rfl
  have hkept : (blocks.map fieldMap).filter (fun map => map.fields ≠ []) =
      blocks.map fieldMap := by
    rw [List.filter_eq_self]
    intro map hmap
    obtain ⟨entries, hentries, rfl⟩ := List.mem_map.mp hmap
    simpa using fieldMap_ne_nil (hne entries hentries)
  rw [DocFile.parse, unifyLineEnds_writeBlocks hblocks, hmaps]
  simp only [bind, Except.bind, hkept]

/-- Blocks with markers, tags and line feeds in their contents, and a tag written twice. -/
def markedBlocks : List (List (Text × Text)) :=
  [[("name".toList, "mail a@b.c\n#@codestart@# @x: y\n@#".toList), ("note".toList, "@".toList),
      ("größe-2".toList, "* \r @".toList), ("notes".toList, "# twice\n\n // \\@".toList)],
    [("-".toList, "#@".toList)]]

theorem parse_markedBlocks :
    LanguageTable.python ∈ LanguageTable.builtin.languages ∧
      (∀ entries ∈ markedBlocks, entries ≠ []) ∧
        (∀ entries ∈ markedBlocks, ∀ entry ∈ entries, Writable entry) ∧
          DocFile.parse Markers.standard LanguageTable.python "a.py".toList
              (writeBlocks markedBlocks) =
            .ok ⟨"a.py".toList, "py".toList, markedBlocks.map fieldMap⟩ := by
  have hlanguage : LanguageTable.python ∈ LanguageTable.builtin.languages := by decide
  have hne : ∀ entries ∈ markedBlocks, entries ≠ [] := by decide
  have hblocks : ∀ entries ∈ markedBlocks, ∀ entry ∈ entries, Writable entry := by
    have hchecked : ∀ entries ∈ markedBlocks, ∀ entry ∈ entries,
        entry.1 ≠ [] ∧ entry.1.all Tagging.isNameChar = true ∧ Text.lower entry.1 = entry.1 ∧
          entry.2 ≠ [] ∧ entry.2.trim = entry.2 ∧ ¬ ['\r', '\n'] <:+: entry.2 := by
      decide +kernel
    intro entries hentries entry hentry
    obtain ⟨hne, hall, hlower, hcontent, htrimmed, hunified⟩ :=
      hchecked entries hentries entry hentry
    exact ⟨⟨hne, hall⟩, hlower, hcontent, htrimmed, hunified⟩
  exact ⟨hlanguage, hne, hblocks, parse_writeBlocks hlanguage hne hblocks "a.py".toList⟩

end Docblock.RoundTrip
