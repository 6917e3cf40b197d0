import Docblock.DocFile
import Docblock.Proofs.Decoration
import Docblock.Proofs.Extraction.Region
import Docblock.Proofs.Snippet.Indentation
import Docblock.Proofs.Snippet.Normalization
import Docblock.Proofs.Span.Pairing
import Docblock.Proofs.Tagging.Segments
import Docblock.Proofs.Token.Marker
import Docblock.Proofs.Token.Scan

namespace Docblock.RoundTrip

/-! Code that is written to a file is read back from it. -/

def headerText : Text :=
  "#@ @name: x @#\n".toList

/-- The block, and after it the code, escaped and indented, between its markers. -/
def writeCode (tabCount spaceCount : Nat) (code : Text) : Text :=
  headerText ++ (Markers.standard.codeStart ++
    '\n' :: (Indentation.indent tabCount spaceCount (Snippet.escapeEnd code) ++
      '\n' :: Markers.standard.codeEnd))

/-- Code without blanks at the ends of its lines or blank lines at its own ends, without
an escaped block marker, and with no tab or space that all its lines begin with. -/
structure Embeddable (code : Text) : Prop where
  trimmed : ∀ line ∈ code.lines, line.trimEnd = line
  first : ∀ line ∈ code.lines.head?, line.allBlank = false
  last : ∀ line ∈ code.lines.getLast?, line.allBlank = false
  not_open : ¬ '\\' :: Markers.standard.openBlock <:+: code
  not_close : ¬ '\\' :: Markers.standard.closeBlock <:+: code
  tabless : ∃ line ∈ code.lines, line.allBlank = false ∧ Indentation.tabs line = 0
  spaceless : ∃ line ∈ code.lines, line.allBlank = false ∧ Indentation.spaces line = 0

private theorem unescape_indentLine (tabCount spaceCount : Nat) {line : Text}
    (hopen : ¬ '\\' :: Markers.standard.openBlock <:+: line)
    (hclose : ¬ '\\' :: Markers.standard.closeBlock <:+: line) :
    Snippet.unescape Markers.standard
        (Indentation.indentLine tabCount spaceCount (Snippet.escapeEnd line)) =
      Indentation.indentLine tabCount spaceCount line := by
  have hmargin : '\\' ∉ Indentation.margin tabCount spaceCount := by
    intro hmem
    have hindent := Indentation.isIndent_of_mem_margin tabCount spaceCount hmem
    contradiction
  cases hblank : line.allBlank with
  | true =>
      simp only [Indentation.indentLine, Snippet.allBlank_escapeEnd, hblank]
      exact Snippet.unescape_escapeEnd hopen hclose
  | false =>
      rw [Indentation.indentLine_of_nonblank _ _ hblank,
        Indentation.indentLine_of_nonblank _ _ ((Snippet.allBlank_escapeEnd line).trans hblank),
        Snippet.unescape_append hmargin, Snippet.unescape_escapeEnd hopen hclose]

def codeText (tabCount spaceCount : Nat) (code : Text) : Text :=
  '\n' :: Indentation.indent tabCount spaceCount (Snippet.escapeEnd code) ++ ['\n']

theorem lines_codeText (tabCount spaceCount : Nat) (code : Text) :
    (codeText tabCount spaceCount code).lines =
      [] :: (code.lines.map (fun line =>
        Indentation.indentLine tabCount spaceCount (Snippet.escapeEnd line)) ++ [[]]) := by
  rw [codeText, List.cons_append, Text.lines_cons, Text.lines_append_cons,
    Indentation.lines_indent, Snippet.lines_escapeEnd, List.map_map]
  rfl

private theorem Embeddable.eq_nil_of_allBlank {code line : Text} (hcode : Embeddable code)
    (hline : line ∈ code.lines) (hblank : line.allBlank = true) : line = [] := by
  rw [← hcode.trimmed line hline]
  exact Text.trimEnd_of_allBlank hblank

private theorem lines_unescape_codeText {code : Text} (hcode : Embeddable code)
    (tabCount spaceCount : Nat) :
    (Snippet.unescape Markers.standard (codeText tabCount spaceCount code)).lines =
      [] :: (code.lines.map (Indentation.indentLine tabCount spaceCount) ++ [[]]) := by
  have hrows : code.lines.map (fun line => Snippet.unescape Markers.standard
      (Indentation.indentLine tabCount spaceCount (Snippet.escapeEnd line))) =
        code.lines.map (Indentation.indentLine tabCount spaceCount) := by
    apply List.map_congr_left
    intro line hline
    have hwithin := Text.infix_of_mem_lines hline
    apply unescape_indentLine
    · intro hopen
      exact hcode.not_open (hopen.trans hwithin)
    · intro hclose
      exact hcode.not_close (hclose.trans hwithin)
  rw [Snippet.lines_unescape, lines_codeText, List.map_cons, List.map_append, List.map_map]
  exact congrArg (fun rows => [] :: (rows ++ [[]])) hrows

theorem normalize_codeText (language : Language) {code : Text} (hcode : Embeddable code)
    (tabCount spaceCount : Nat) :
    Snippet.normalize language Markers.standard (codeText tabCount spaceCount code) = code := by
  have hlines := Indentation.lines_normalize_of_lines tabCount spaceCount
    (lines_unescape_codeText hcode tabCount spaceCount)
    (fun _ hline => Text.not_mem_of_mem_lines hline)
    (fun _ hline => hcode.eq_nil_of_allBlank hline) hcode.tabless hcode.spaceless
  rw [Snippet.normalize_of_lines language hlines hcode.trimmed hcode.first hcode.last,
    Text.unlines_lines]

private theorem words_indentLine (tabCount spaceCount : Nat) (line : Text) :
    Token.words (Indentation.indentLine tabCount spaceCount line) = Token.words line := by
  rw [Indentation.indentLine]
  split
  · rfl
  · exact Token.words_append_of_allBlank (Indentation.allBlank_margin tabCount spaceCount) line

theorem words_codeText (tabCount spaceCount : Nat) (code : Text) :
    Token.words (codeText tabCount spaceCount code) = Token.words (Snippet.escapeEnd code) := by
  rw [Token.words_eq_flatMap_lines, lines_codeText,
    Token.words_eq_flatMap_lines (Snippet.escapeEnd code), Snippet.lines_escapeEnd,
    List.flatMap_cons, List.flatMap_append, List.flatMap_map, List.flatMap_map]
  simp only [words_indentLine]
  exact List.append_nil _

private theorem border_codeEnd {count : Nat} (hpositive : 0 < count)
    (hcount : count < Markers.standard.codeEnd.length)
    (hborder : Markers.standard.codeEnd.drop count <+: Markers.standard.codeEnd) :
    (Markers.standard.codeEnd.take count).getLast? = some '@' := by
  have hborders : ∀ count < Markers.standard.codeEnd.length, 0 < count →
      Markers.standard.codeEnd.drop count <+: Markers.standard.codeEnd →
        (Markers.standard.codeEnd.take count).getLast? = some '@' := by
    decide
  exact hborders count hcount hpositive hborder

theorem not_codeEnd_of_mem_words {language : Language}
    (hlanguage : language ∈ LanguageTable.builtin.languages) {code word : Text}
    (hmem : word ∈ Token.words (Snippet.escapeEnd code)) :
    Token.isMarker language Markers.standard.codeEnd word = false := by
  rw [Bool.eq_false_iff]
  intro htrue
  obtain ⟨front, hfront, back, -, rfl⟩ := Token.isMarker_iff.mp htrue
  obtain ⟨before, after, hsplit, hfree⟩ := Token.split_of_mem_words hmem
  have hlast : ∀ c, isBlank c = false → front.getLast? ≠ some c →
      (before ++ front).getLast? ≠ some c := by
    intro c hc hne hlast
    rw [List.getLast?_append] at hlast
    cases hfront : front.getLast? with
    | none =>
        rw [hfront, Option.none_or] at hlast
        rw [hlast, Option.all_some, hc] at hfree
        contradiction
    | some d =>
        rw [hfront, Option.some_or] at hlast
        exact hne (hfront.trans hlast)
  have hmarker : Snippet.escapeEnd code =
      (before ++ front) ++ (Markers.standard.codeEnd ++ (back ++ after)) := by
    simp [hsplit]
  obtain ⟨hescape, htag⟩ := Token.getLast?_fronts hlanguage hfront
  rcases Text.escaped_or_overlap Snippet.codeEnd_ne_nil Snippet.escape_not_mem_codeEnd hmarker with
    hescaped | ⟨count, hpositive, hcount, hborder, hsuffix⟩
  · exact hlast '\\' rfl hescape hescaped
  · have hend := border_codeEnd hpositive hcount hborder
    exact hlast '@' rfl htag (Text.getLast?_of_suffix hsuffix hend)

theorem writeCode_eq (tabCount spaceCount : Nat) (code : Text) :
    writeCode tabCount spaceCount code =
      headerText ++ (Markers.standard.codeStart ++
        (codeText tabCount spaceCount code ++ Markers.standard.codeEnd)) := by
  simp only [writeCode, codeText, List.append_assoc, List.cons_append, List.nil_append]

def headerTokens : List Token :=
  [Token.ofWord 0 "#@".toList, Token.ofWord 3 "@name:".toList, Token.ofWord 10 "x".toList,
    Token.ofWord 12 "@#".toList]

private theorem scan_headerText : Token.scan 0 headerText = headerTokens := by
  decide

def codeTokens (tabCount spaceCount : Nat) (code : Text) : List Token :=
  Token.scan 28 (codeText tabCount spaceCount code) ++
    [Token.ofWord (28 + (codeText tabCount spaceCount code).byteLength) Markers.standard.codeEnd]

theorem all_writeCode (tabCount spaceCount : Nat) (code : Text) :
    Token.all (writeCode tabCount spaceCount code) =
      headerTokens ++ Token.ofWord 15 Markers.standard.codeStart ::
        codeTokens tabCount spaceCount code := by
  have hheader : Token.Apart headerText (Markers.standard.codeStart ++
      (codeText tabCount spaceCount code ++ Markers.standard.codeEnd)) := .inl (by decide)
  have hstart : Token.Apart Markers.standard.codeStart
      (codeText tabCount spaceCount code ++ Markers.standard.codeEnd) :=
    Token.apart_cons_blank rfl _ _
  have hcode : Token.Apart (codeText tabCount spaceCount code) Markers.standard.codeEnd :=
    Token.apart_append_singleton rfl _ _
  have hheaderLength : 0 + headerText.byteLength = 15 := by decide
  have hstartLength : 15 + Markers.standard.codeStart.byteLength = 28 := by decide
  rw [Token.all, writeCode_eq, Token.scan_append hheader, scan_headerText,
    Token.scan_append hstart, Token.scan_append hcode, hheaderLength, hstartLength]
  rw [Token.scan_word (by decide) (by decide), Token.scan_word Snippet.codeEnd_ne_nil (by decide)]
  rfl

def codeSpan (count : Nat) : Span :=
  ⟨4, some (4 + 1 + count), .snippet⟩

theorem covers_codeSpan {count index : Nat} (hle : 4 ≤ index) (hle' : index ≤ 4 + 1 + count) :
    (codeSpan count).covers index = true := by
  change (decide (4 ≤ index) && decide (index ≤ 4 + 1 + count)) = true
  rw [decide_eq_true hle, decide_eq_true hle']
  rfl

theorem live_codeSpan {index : Nat} (hlt : index < 4) (count : Nat) :
    Span.Live [codeSpan count] index := by
  simp only [Span.Live, codeSpan, Span.covers, List.any_cons, List.any_nil, Option.any_some,
    Bool.or_false, Bool.and_eq_false_iff, decide_eq_false_iff_not]
  exact .inl (Nat.not_le_of_lt hlt)

def headerSpan : Span :=
  ⟨0, some 3, .doc⟩

theorem not_encloses_codeSpan (count : Nat) : headerSpan.encloses (codeSpan count) = false := by
  have hlt : ¬ 4 + 1 + count < 3 := by omega
  change (decide (0 < 4) && decide (4 + 1 + count < 3)) = false
  rw [decide_eq_false hlt, Bool.and_false]

section Pairing

variable {language : Language} (hlanguage : language ∈ LanguageTable.builtin.languages)
include hlanguage

theorem isMarker_header :
    (∀ token ∈ headerTokens,
        Token.isMarker language Markers.standard.codeStart token.text = false) ∧
      Token.isMarker language Markers.standard.codeStart Markers.standard.codeEnd = false ∧
      Token.isMarker language Markers.standard.closeBlock "@name:".toList = false ∧
      Token.isMarker language Markers.standard.closeBlock "x".toList = false ∧
      Token.isMarker language Markers.standard.openBlock Markers.standard.closeBlock = false := by
  revert language
  decide

private theorem pair_codePair_writeCode (tabCount spaceCount : Nat) (code : Text) :
    Span.pair language Markers.standard.codePair []
        (Token.all (writeCode tabCount spaceCount code)) =
      [codeSpan (Token.scan 28 (codeText tabCount spaceCount code)).length] := by
  obtain ⟨hheader, hend, -⟩ := isMarker_header hlanguage
  have hskipped : ∀ entry ∈ headerTokens.zipIdx 0,
      Span.Idle language Markers.standard.codePair [] none entry.2 entry.1 := by
    intro entry hentry
    exact Span.idle_of_not_start (hheader entry.1 (List.fst_mem_of_mem_zipIdx hentry)) _
  have hinner : ∀ entry ∈ (Token.scan 28 (codeText tabCount spaceCount code)).zipIdx 5,
      Span.Idle language Markers.standard.codePair [] (some 4) entry.2 entry.1 := by
    intro entry hentry
    have hword : entry.1.text ∈ Token.words (Snippet.escapeEnd code) := by
      rw [← words_codeText tabCount spaceCount, ← Token.map_text_scan 28]
      exact List.mem_map_of_mem (List.fst_mem_of_mem_zipIdx hentry)
    exact Span.idle_of_not_close (not_codeEnd_of_mem_words hlanguage hword) _ _
  rw [Span.pair, all_writeCode, Span.pairFrom_append_of_idle _ hskipped,
    Span.pairFrom_cons_start _ (Span.live_nil _)
      (Token.isMarker_self language Markers.standard.codeStart), codeTokens]
  change Span.pairFrom language Markers.standard.codePair [] (some 4) 5 _ = _
  rw [Span.pairFrom_append_of_idle _ hinner,
    Span.pairFrom_cons_close _ (Span.live_nil _) hend
      (Token.isMarker_self language Markers.standard.codeEnd)]
  rfl

private theorem pair_docPair_writeCode (tabCount spaceCount : Nat) (code : Text) :
    Span.pair language Markers.standard.docPair
        [codeSpan (Token.scan 28 (codeText tabCount spaceCount code)).length]
        (Token.all (writeCode tabCount spaceCount code)) = [headerSpan] := by
  obtain ⟨-, -, hname, hx, hclose⟩ := isMarker_header hlanguage
  -- The code and its markers are covered by the region that pairing leaves out.
  have hcovered : ∀ entry ∈ (Token.ofWord 15 Markers.standard.codeStart ::
      codeTokens tabCount spaceCount code).zipIdx 4,
      Span.Idle language Markers.standard.docPair
        [codeSpan (Token.scan 28 (codeText tabCount spaceCount code)).length] none
        entry.2 entry.1 := by
    intro entry hentry
    have hle := List.le_snd_of_mem_zipIdx hentry
    have hlt := List.snd_lt_of_mem_zipIdx hentry
    simp only [codeTokens, List.length_cons, List.length_append, List.length_nil] at hlt
    exact Span.idle_of_covers List.mem_cons_self (covers_codeSpan hle (by omega)) _ _
  have htail := Span.pairFrom_append_of_idle [] hcovered
  rw [List.append_nil] at htail
  rw [Span.pair, all_writeCode, headerTokens, List.cons_append,
    Span.pairFrom_cons_start _ (live_codeSpan (by decide) _)
      (Token.isMarker_self language Markers.standard.openBlock),
    List.cons_append, Span.pairFrom_cons_idle _ (Span.idle_of_not_close hname _ _),
    List.cons_append, Span.pairFrom_cons_idle _ (Span.idle_of_not_close hx _ _),
    List.cons_append, Span.pairFrom_cons_close _ (live_codeSpan (by decide) _) hclose
      (Token.isMarker_self language Markers.standard.closeBlock), List.nil_append, htail]
  rfl

theorem merged_writeCode (tabCount spaceCount : Nat) (code : Text) :
    (Regions.find language Markers.standard
        (Token.all (writeCode tabCount spaceCount code))).merged =
      [headerSpan, codeSpan (Token.scan 28 (codeText tabCount spaceCount code)).length] := by
  rw [Regions.find, pair_codePair_writeCode hlanguage, pair_docPair_writeCode hlanguage]
  rfl

end Pairing

def headerBody : Text :=
  " @name: x ".toList

private theorem between_headerSpan (tabCount spaceCount : Nat) (code : Text) :
    Extraction.between (writeCode tabCount spaceCount code)
        (Token.all (writeCode tabCount spaceCount code)) headerSpan = headerBody := by
  have hheader : headerText = Markers.standard.openBlock ++ headerBody ++
      (Markers.standard.closeBlock ++ ['\n']) := by
    decide
  rw [all_writeCode, writeCode_eq, hheader, List.append_assoc]
  exact @Extraction.between_of_split _ headerBody _ []
    [Token.ofWord 3 "@name:".toList, Token.ofWord 10 "x".toList] _ (Token.ofWord 0 "#@".toList)
    (Token.ofWord 12 "@#".toList) (by decide) (by decide) .doc

private theorem between_codeSpan (tabCount spaceCount : Nat) (code : Text) :
    Extraction.between (writeCode tabCount spaceCount code)
        (Token.all (writeCode tabCount spaceCount code))
        (codeSpan (Token.scan 28 (codeText tabCount spaceCount code)).length) =
      codeText tabCount spaceCount code := by
  have hlength : (headerText ++ Markers.standard.codeStart).byteLength = 28 := by decide
  have htext : writeCode tabCount spaceCount code =
      (headerText ++ Markers.standard.codeStart) ++ codeText tabCount spaceCount code ++
        Markers.standard.codeEnd := by
    rw [writeCode_eq, List.append_assoc, List.append_assoc]
  rw [all_writeCode, htext, codeTokens]
  apply @Extraction.between_of_split _ _ _ headerTokens
  · exact hlength.symm
  · rw [hlength]
    rfl

private theorem piecesOf_headerSpan {language : Language} (tabCount spaceCount count : Nat)
    (code : Text) :
    Extraction.piecesOf language Markers.standard (writeCode tabCount spaceCount code)
        (Token.all (writeCode tabCount spaceCount code)) [headerSpan, codeSpan count] headerSpan =
      [.opening headerBody] := by
  have hnested : Extraction.nested [headerSpan, codeSpan count] headerSpan = [] := by
    rw [Extraction.nested, List.filter_eq_nil_iff]
    intro span hspan
    rw [List.mem_cons, List.mem_singleton] at hspan
    rcases hspan with rfl | rfl
    · decide
    · rw [not_encloses_codeSpan, Bool.and_false]
      exact Bool.false_ne_true
  have hstrip : Decoration.strip language '@' headerBody = headerBody :=
    Decoration.strip_of_not_mem (by decide) language '@'
  have htagged : Extraction.isTagged Markers.standard headerBody = true := by decide
  rw [Extraction.piecesOf_doc rfl hnested, between_headerSpan]
  simp only [show Markers.standard.tag = '@' from rfl, hstrip, Extraction.bodyPiece, htagged]
  rfl

theorem Embeddable.ne_nil {code : Text} (hcode : Embeddable code) : code ≠ [] := by
  rintro rfl
  have hfirst := hcode.first [] rfl
  contradiction

private theorem piecesOf_codeSpan {language : Language} {code : Text} (hcode : Embeddable code)
    (tabCount spaceCount : Nat) :
    Extraction.piecesOf language Markers.standard (writeCode tabCount spaceCount code)
        (Token.all (writeCode tabCount spaceCount code))
        [headerSpan, codeSpan (Token.scan 28 (codeText tabCount spaceCount code)).length]
        (codeSpan (Token.scan 28 (codeText tabCount spaceCount code)).length) =
      [.code code] := by
  have hnested : Extraction.isNested
      [headerSpan, codeSpan (Token.scan 28 (codeText tabCount spaceCount code)).length]
      (codeSpan (Token.scan 28 (codeText tabCount spaceCount code)).length) = false := by
    rw [Extraction.isNested, List.any_cons, List.any_cons, not_encloses_codeSpan, Bool.and_false]
    rfl
  have hpiece : Extraction.codePiece language Markers.standard
      (codeText tabCount spaceCount code) = [.code code] := by
    rw [Extraction.codePiece, normalize_codeText language hcode]
    obtain ⟨c, rest, rfl⟩ := List.exists_cons_of_ne_nil hcode.ne_nil
    rfl
  rw [Extraction.piecesOf_snippet rfl hnested, between_codeSpan, hpiece]

private theorem rawBlocks_writeCode {language : Language}
    (hlanguage : language ∈ LanguageTable.builtin.languages) {code : Text}
    (hcode : Embeddable code) (tabCount spaceCount : Nat) :
    RawBlock.all language Markers.standard (writeCode tabCount spaceCount code) =
      [⟨headerBody, [⟨0, code⟩]⟩] := by
  rw [RawBlock.all, merged_writeCode hlanguage, Extraction.blocks, Extraction.pieces,
    List.flatMap_cons, List.flatMap_singleton, piecesOf_headerSpan, piecesOf_codeSpan hcode]
  rfl

private theorem tagBody_headerBody :
    Tagging.tagBody Markers.standard headerBody = .ok ⟨[.reserved .name "x".toList]⟩ := by
  have hname : Tagging.IsName "name".toList := ⟨by decide, by decide +kernel⟩
  have hentries : Tagging.Composable [("name".toList, " x ".toList)] := by
    apply Tagging.Composable.cons hname
    · decide
    · exact Tagging.quiet_of_shielded (Text.shielded_of_not_mem (by decide)) _ _
    · intro hne
      contradiction
    · exact .nil
  have hbody : headerBody = [' '] ++ Tagging.compose [("name".toList, " x ".toList)] := by decide
  rw [hbody, Tagging.tagBody_compose rfl hentries]
  decide +kernel

private theorem unifyLineEnds_writeCode {code : Text} (hcode : Embeddable code)
    (tabCount spaceCount : Nat) :
    DocFile.unifyLineEnds (writeCode tabCount spaceCount code) =
      writeCode tabCount spaceCount code := by
  have hheader : Text.Unified headerText := Text.unified_of_not_mem (by decide)
  have hstart : Text.Unified Markers.standard.codeStart := Text.unified_of_not_mem (by decide)
  have hend : Text.Unified Markers.standard.codeEnd := Text.unified_of_not_mem (by decide)
  have hinner : Text.Unified (codeText tabCount spaceCount code) := by
    apply Text.unified_of_lines
    intro row hrow
    rw [lines_codeText, List.mem_cons, List.mem_append, List.mem_singleton] at hrow
    rcases hrow with rfl | hrow | rfl
    · decide
    · obtain ⟨line, hline, rfl⟩ := List.mem_map.mp hrow
      rw [Indentation.getLast?_indentLine, Snippet.escapeEnd,
        Text.getLast?_escaped Snippet.codeEnd_ne_nil]
      intro hlast
      have hblank := Text.isBlank_getLast?_of_trimEnd (hcode.trimmed line hline) '\r' hlast
      contradiction
    · decide
  have hunified := hheader.append (hstart.append (hinner.append hend))
  rw [← writeCode_eq] at hunified
  exact Text.replace_eq_self hunified.not_pair ['\n']

/-- Written code survives parsing, whatever its indentation in the file. -/
theorem parse_writeCode {language : Language}
    (hlanguage : language ∈ LanguageTable.builtin.languages) {code : Text}
    (hcode : Embeddable code) (tabCount spaceCount : Nat) (file : Text) :
    DocFile.parse Markers.standard language file (writeCode tabCount spaceCount code) =
      .ok ⟨file, language.extension,
        [⟨[.reserved .name "x".toList, .snippet 0 code]⟩]⟩ := by
  rw [DocFile.parse, unifyLineEnds_writeCode hcode, rawBlocks_writeCode hlanguage hcode,
    List.mapM_cons, List.mapM_nil, Tagging.tag, tagBody_headerBody]
  rfl

/-- Code with markers, a tag and comment symbols in it, and no line without indentation. -/
def markedCode : Text :=
  "\tif x: #@codeend@#codeend@#\n\n  # @tag: y /*#@codestart@#\n\t '''#@ \\@".toList

theorem parse_markedCode :
    LanguageTable.python ∈ LanguageTable.builtin.languages ∧ Embeddable markedCode ∧
      DocFile.parse Markers.standard LanguageTable.python "a.py".toList
          (writeCode 1 3 markedCode) =
        .ok ⟨"a.py".toList, "py".toList,
          [⟨[.reserved .name "x".toList, .snippet 0 markedCode]⟩]⟩ := by
  have hlanguage : LanguageTable.python ∈ LanguageTable.builtin.languages := by decide
  have hcode : Embeddable markedCode := by
    constructor <;> decide +kernel
  exact ⟨hlanguage, hcode, parse_writeCode hlanguage hcode 1 3 "a.py".toList⟩

end Docblock.RoundTrip
