import Docblock.Proofs.DocFile.Shape
import Docblock.Proofs.Extraction.Isolation

namespace Docblock

namespace DocFile

theorem unifyLineEnds_append {left right : Text}
    (hseam : left.getLast? ≠ some '\r' ∨ right.head? ≠ some '\n') :
    unifyLineEnds (left ++ right) = unifyLineEnds left ++ unifyLineEnds right := by
  have hpattern : ['\r', '\n'] ≠ [] := List.cons_ne_nil _ _
  unfold unifyLineEnds
  induction left using Text.replace_induction hpattern with
  | nil => rfl
  | matched rest ih =>
      have hrest : rest.getLast? ≠ some '\r' ∨ right.head? ≠ some '\n' := by
        refine hseam.imp_left fun hne hlast => hne ?_
        rw [List.getLast?_append, hlast]
        rfl
      rw [List.append_assoc, Text.replace_append_of_ne_nil hpattern,
        Text.replace_append_of_ne_nil hpattern, ih hrest, List.append_assoc]
  | unmatched c rest hunmatched ih =>
      have hrest : rest.getLast? ≠ some '\r' ∨ right.head? ≠ some '\n' := by
        refine hseam.imp_left fun hne hlast => hne ?_
        rw [List.getLast?_cons, hlast]
        rfl
      have hlonger : ¬ ['\r', '\n'] <+: c :: (rest ++ right) := by
        intro hbegins
        cases rest with
        | nil =>
            obtain ⟨rfl, hnext⟩ := List.cons_prefix_cons.mp hbegins
            obtain ⟨more, rfl⟩ : ['\n'] <+: right := hnext
            simp at hseam
        | cons d rest =>
            apply hunmatched
            simp only [List.cons_append, List.cons_prefix_cons] at hbegins ⊢
            exact ⟨hbegins.1, hbegins.2.1, List.nil_prefix⟩
      rw [List.cons_append, Text.replace_cons_of_unmatched hlonger,
        Text.replace_cons_of_unmatched hunmatched, ih hrest, List.cons_append]

theorem blank_head?_unifyLineEnds {text : Text} (hblank : text.head?.any isBlank = true) :
    (unifyLineEnds text).head?.any isBlank = true := by
  have hne : text ≠ [] := by
    rintro rfl
    contradiction
  have hunified : unifyLineEnds text ≠ [] := Text.replace_ne_nil (List.cons_ne_nil _ _) hne
  rw [List.head?_eq_some_head hunified, Option.any_some]
  rcases Text.head?_replace (List.cons_ne_nil _ _) (List.cons_ne_nil _ _)
    (List.head?_eq_some_head hunified) with hline | hhead
  · rw [← Option.some.inj hline]
    rfl
  · rwa [hhead] at hblank

theorem blank_getLast?_unifyLineEnds {text : Text} (hblank : text.getLast?.any isBlank = true) :
    (unifyLineEnds text).getLast?.any isBlank = true := by
  have hne : text ≠ [] := by
    rintro rfl
    contradiction
  have hunified : unifyLineEnds text ≠ [] := Text.replace_ne_nil (List.cons_ne_nil _ _) hne
  rw [List.getLast?_eq_some_getLast hunified, Option.any_some]
  rcases Text.getLast?_replace (List.cons_ne_nil _ _) (List.cons_ne_nil _ _)
    (List.getLast?_eq_some_getLast hunified) with hline | hlast
  · rw [← Option.some.inj hline]
    rfl
  · rwa [hlast] at hblank

private theorem words_unifyLineEnds_cons {c : Char} (hblank : isBlank c = true) (rest : Text) :
    Token.words (unifyLineEnds (c :: rest)) = Token.words (unifyLineEnds rest) := by
  by_cases hbegins : ['\r', '\n'] <+: c :: rest
  · obtain ⟨more, hmore⟩ := hbegins
    obtain ⟨rfl, rfl⟩ := List.cons.inj hmore
    have hpair : unifyLineEnds ('\r' :: '\n' :: more) = '\n' :: unifyLineEnds more :=
      Text.replace_append_of_ne_nil (List.cons_ne_nil _ _) ['\n'] more
    have hline : unifyLineEnds ('\n' :: more) = '\n' :: unifyLineEnds more :=
      Text.replace_cons_of_unmatched (by simp) ['\n']
    exact congrArg Token.words (hpair.trans hline.symm)
  · rw [unifyLineEnds, Text.replace_cons_of_unmatched hbegins, Token.words_cons_blank hblank]
    rfl

private theorem unifyLineEnds_word {word : Text} (hword : word.any isBlank = false) :
    unifyLineEnds word = word := by
  refine Text.replace_eq_self (fun hwithin => ?_) ['\n']
  have hmem : '\r' ∈ word := hwithin.subset List.mem_cons_self
  have hfree := Token.isBlank_of_mem_word hword hmem
  contradiction

theorem words_unifyLineEnds (text : Text) :
    Token.words (unifyLineEnds text) = Token.words text := by
  induction text using Token.scan_induction with
  | nil => rfl
  | blank c rest hblank ih =>
      rw [words_unifyLineEnds_cons hblank, ih, Token.words_cons_blank hblank]
  | last word hne hword => rw [unifyLineEnds_word hword]
  | word word c rest hne hword hblank ih =>
      have hseam : word.getLast? ≠ some '\r' := by
        intro hlast
        have hfree := Token.isBlank_of_mem_word hword (List.mem_of_getLast? hlast)
        contradiction
      have hhead : (unifyLineEnds (c :: rest)).head?.any isBlank = true :=
        blank_head?_unifyLineEnds hblank
      rw [unifyLineEnds_append (.inl hseam), unifyLineEnds_word hword,
        Token.words_append (Token.apart_of_blank_head? hhead word), Token.words_word hne hword,
        words_unifyLineEnds_cons hblank, ih, Token.words_word_cons hne hword hblank,
        List.singleton_append]

end DocFile

namespace Extraction

open DocFile

variable {language : Language} {markers : Markers} {pre inner post : Text}

/-- A text that ends in a start marker of code, where no snippet is open before it. -/
def OpensSnippet (language : Language) (markers : Markers) (text : Text) : Prop :=
  ∃ earlier marker, Token.all text = earlier ++ [marker] ∧
    marker.range.stop = text.byteLength ∧
    Token.isMarker language markers.codeStart marker.text = true ∧
    Span.leftOpen language markers.codePair [] earlier = none

/-- A text that begins with an end marker of code that is no start marker. -/
def ClosesSnippet (language : Language) (markers : Markers) (text : Text) : Prop :=
  ∃ marker later, Token.all text = marker :: later ∧ marker.range.start = 0 ∧
    Token.isMarker language markers.codeEnd marker.text = true ∧
    Token.isMarker language markers.codeStart marker.text = false

theorem OpensSnippet.getLast?_ne (hpre : OpensSnippet language markers pre) :
    pre.getLast? ≠ some '\r' := by
  obtain ⟨earlier, marker, hall, hstop, -⟩ := hpre
  have hmem : marker ∈ Token.all pre := by
    rw [hall]
    exact List.mem_append_right _ List.mem_cons_self
  have hfree := Token.not_blank_getLast?_of_stop hmem hstop
  intro hlast
  rw [hlast] at hfree
  contradiction

private theorem ClosesSnippet.head?_ne (hpost : ClosesSnippet language markers post) :
    post.head? ≠ some '\n' := by
  obtain ⟨marker, later, hall, hstart, -⟩ := hpost
  have hmem : marker ∈ Token.all post := by
    rw [hall]
    exact List.mem_cons_self
  have hfree := Token.not_blank_head?_of_start hmem hstart
  intro hhead
  rw [hhead] at hfree
  contradiction

private theorem seam_unifyLineEnds (hpre : OpensSnippet language markers pre)
    (hpost : ClosesSnippet language markers post) :
    Seam language markers (unifyLineEnds pre) (unifyLineEnds post) where
  opens := by
    obtain ⟨earlier, marker, hall, -, hstart, hopen⟩ := hpre
    refine ⟨earlier.length, ?_⟩
    rw [Span.leftOpen_congr (words_unifyLineEnds pre), hall]
    exact Span.leftOpen_append_start hopen hstart
  closes := by
    obtain ⟨marker, later, hall, -, hclose, hstart⟩ := hpost
    have hwords := words_unifyLineEnds post
    rw [Token.words, Token.words, hall, List.map_cons, List.map_eq_cons_iff] at hwords
    obtain ⟨closing, rest, hunified, htext, -⟩ := hwords
    exact ⟨closing, rest, hunified, htext ▸ hstart, htext ▸ hclose⟩

private theorem codeText_unifyLineEnds (hinner : CodeText language markers inner) :
    CodeText language markers (unifyLineEnds inner) where
  head_blank := blank_head?_unifyLineEnds hinner.head_blank
  last_blank := blank_getLast?_unifyLineEnds hinner.last_blank
  not_codeEnd := by
    intro token htoken
    have hword : token.text ∈ Token.words (unifyLineEnds inner) := List.mem_map_of_mem htoken
    rw [words_unifyLineEnds] at hword
    obtain ⟨other, hother, hsame⟩ := List.mem_map.mp hword
    rw [← hsame]
    exact hinner.not_codeEnd other hother

theorem map_body_all_unifyLineEnds (hpre : OpensSnippet language markers pre)
    (hpost : ClosesSnippet language markers post) (hinner : CodeText language markers inner) :
    (RawBlock.all language markers (unifyLineEnds (pre ++ inner ++ post))).map RawBlock.body =
      (RawBlock.all language markers
        (unifyLineEnds pre ++ [' '] ++ unifyLineEnds post)).map RawBlock.body := by
  rw [unifyLineEnds_append (.inr hpost.head?_ne), unifyLineEnds_append (.inl hpre.getLast?_ne)]
  exact RawBlock.map_body_all_inside (seam_unifyLineEnds hpre hpost) (codeText_unifyLineEnds hinner)

end Extraction

def FieldMap.written (map : FieldMap) : List Field :=
  map.fields.filter Field.isWritten

namespace Tagging

private theorem map_written_tag {block : RawBlock} (hindices : block.indices.Pairwise (· < ·)) :
    (tag Markers.standard block).map FieldMap.written =
      (tagBody Markers.standard block.body).map FieldMap.fields := by
  cases hbody : tagBody Markers.standard block.body with
  | error fault =>
      rw [tag, hbody]
      rfl
  | ok map =>
      have hwritten : map.fields.filter Field.isWritten = map.fields :=
        List.filter_eq_self.mpr fun _ hfield => (wellWritten_of_mem_tagBody hbody hfield).isWritten
      have hcode : block.codeFields.filter Field.isWritten = [] := by
        rw [List.filter_eq_nil_iff]
        intro field hfield
        simp [RawBlock.isWritten_of_mem_codeFields hfield]
      rw [tag_of_tagBody hbody hindices, Except.map, FieldMap.written, List.filter_append, hwritten,
        hcode, List.append_nil]
      rfl

private theorem map_mapM {α β γ ε : Type} {items : List α} {read : α → Except ε β} {view : β → γ}
    {readView : α → Except ε γ} (hsame : ∀ item ∈ items, (read item).map view = readView item) :
    (items.mapM read).map (List.map view) = items.mapM readView := by
  induction items with
  | nil => rfl
  | cons item rest ih =>
      rw [List.forall_mem_cons] at hsame
      rw [List.mapM_cons, List.mapM_cons, ← hsame.1, ← ih hsame.2]
      cases read item with
      | error fault => rfl
      | ok result => cases rest.mapM read <;> rfl

end Tagging

namespace DocFile

open Extraction Tagging

/-- What is written in a file depends on the bodies of its blocks only. -/
theorem map_written_parse (language : Language) (name text : Text) :
    ((parse Markers.standard language name text).map fun file =>
        file.blocks.map FieldMap.written) =
      ((RawBlock.all language Markers.standard (unifyLineEnds text)).map RawBlock.body).mapM
        fun body => (tagBody Markers.standard body).map FieldMap.fields := by
  have hblocks : ((parse Markers.standard language name text).map fun file =>
      file.blocks.map FieldMap.written) =
        ((RawBlock.all language Markers.standard (unifyLineEnds text)).mapM
          (tag Markers.standard)).map (List.map FieldMap.written) := by
    rw [parse_eq_mapM]
    cases (RawBlock.all language Markers.standard (unifyLineEnds text)).mapM
      (tag Markers.standard) <;> rfl
  rw [hblocks, List.mapM_map]
  exact map_mapM fun block hblock => map_written_tag (RawBlock.pairwise_indices_of_mem_all hblock)

/-- What stands inside a snippet does not change the documentation: with one code or another,
a file has the same fault, or as many blocks with the same written fields in the same order. -/
theorem parse_inside_snippet {language : Language} {pre first second post : Text} (name : Text)
    (hpre : OpensSnippet language Markers.standard pre)
    (hpost : ClosesSnippet language Markers.standard post)
    (hfirst : CodeText language Markers.standard first)
    (hsecond : CodeText language Markers.standard second) :
    (∃ tags contents,
      parse Markers.standard language name (pre ++ first ++ post) =
          .error (.misaligned tags contents) ∧
        parse Markers.standard language name (pre ++ second ++ post) =
          .error (.misaligned tags contents)) ∨
      ∃ file other,
        parse Markers.standard language name (pre ++ first ++ post) = .ok file ∧
          parse Markers.standard language name (pre ++ second ++ post) = .ok other ∧
          file.blocks.length = other.blocks.length ∧
          file.blocks.map FieldMap.written = other.blocks.map FieldMap.written := by
  have hsame : ((parse Markers.standard language name (pre ++ first ++ post)).map fun file =>
      file.blocks.map FieldMap.written) =
        (parse Markers.standard language name (pre ++ second ++ post)).map fun file =>
          file.blocks.map FieldMap.written := by
    rw [map_written_parse, map_written_parse, map_body_all_unifyLineEnds hpre hpost hfirst,
      map_body_all_unifyLineEnds hpre hpost hsecond]
  cases hleft : parse Markers.standard language name (pre ++ first ++ post) with
  | error fault =>
      cases hright : parse Markers.standard language name (pre ++ second ++ post) with
      | error other =>
          rw [hleft, hright] at hsame
          obtain rfl : fault = other := Except.error.inj hsame
          obtain ⟨tags, contents, rfl⟩ := exists_misaligned_of_parse hleft
          exact .inl ⟨tags, contents, rfl, rfl⟩
      | ok other =>
          rw [hleft, hright] at hsame
          contradiction
  | ok file =>
      cases hright : parse Markers.standard language name (pre ++ second ++ post) with
      | error fault =>
          rw [hleft, hright] at hsame
          contradiction
      | ok other =>
          rw [hleft, hright] at hsame
          have hwritten : file.blocks.map FieldMap.written = other.blocks.map FieldMap.written :=
            Except.ok.inj hsame
          refine .inr ⟨file, other, rfl, rfl, ?_, hwritten⟩
          simpa using congrArg List.length hwritten

def openedBlock : Text :=
  "#@ @a: b #@codestart@#".toList

def closedBlock : Text :=
  "#@codeend@# @#".toList

def plainCode : Text :=
  " f ".toList

/-- Code with the markers of a block, a tag, and another start marker. -/
def hostileCode : Text :=
  " @# #@codestart@# #@ @x:\r\n@# ".toList

private theorem opensSnippet_openedBlock :
    OpensSnippet LanguageTable.python Markers.standard openedBlock := by
  refine ⟨[.ofWord 0 "#@".toList, .ofWord 3 "@a:".toList, .ofWord 7 "b".toList],
    .ofWord 9 Markers.standard.codeStart, ?_, ?_, ?_, ?_⟩ <;> decide +kernel

private theorem closesSnippet_closedBlock :
    ClosesSnippet LanguageTable.python Markers.standard closedBlock := by
  refine ⟨.ofWord 0 Markers.standard.codeEnd, [.ofWord 12 "@#".toList], ?_, ?_, ?_, ?_⟩ <;>
    decide +kernel

private theorem all_plainCode :
    RawBlock.all LanguageTable.python Markers.standard
        (unifyLineEnds (openedBlock ++ plainCode ++ closedBlock)) =
      [⟨" @a: b  ".toList, [⟨0, "f".toList⟩]⟩] := by
  have hmerged : (Regions.find LanguageTable.python Markers.standard
      (Token.all (unifyLineEnds (openedBlock ++ plainCode ++ closedBlock)))).merged =
        [⟨3, some 5, .snippet⟩, ⟨0, some 6, .doc⟩] := by
    decide +kernel
  have hpieces : pieces LanguageTable.python Markers.standard
      (unifyLineEnds (openedBlock ++ plainCode ++ closedBlock))
      (Token.all (unifyLineEnds (openedBlock ++ plainCode ++ closedBlock)))
      [⟨3, some 5, .snippet⟩, ⟨0, some 6, .doc⟩] =
        [.opening " @a: b  ".toList, .code "f".toList] := by
    cbv
  exact RawBlock.all_of_pieces hmerged hpieces

theorem parse_hostileCode :
    parse Markers.standard LanguageTable.python "a.py".toList
        (openedBlock ++ plainCode ++ closedBlock) =
      .ok ⟨"a.py".toList, "py".toList,
        [⟨[.custom "a".toList "b".toList, .snippet 0 "f".toList]⟩]⟩ ∧
      ∃ other, parse Markers.standard LanguageTable.python "a.py".toList
          (openedBlock ++ hostileCode ++ closedBlock) = .ok other ∧
        other.blocks.map FieldMap.written = [[.custom "a".toList "b".toList]] := by
  have hplain : parse Markers.standard LanguageTable.python "a.py".toList
      (openedBlock ++ plainCode ++ closedBlock) =
        .ok ⟨"a.py".toList, "py".toList,
          [⟨[.custom "a".toList "b".toList, .snippet 0 "f".toList]⟩]⟩ := by
    have htag : tag Markers.standard ⟨" @a: b  ".toList, [⟨0, "f".toList⟩]⟩ =
        .ok ⟨[.custom "a".toList "b".toList, .snippet 0 "f".toList]⟩ :=
      eq_ok_of_toOption (by decide +kernel)
    rw [parse_eq_mapM, all_plainCode, List.mapM_cons, htag]
    rfl
  have hfirst : CodeText LanguageTable.python Markers.standard plainCode :=
    ⟨rfl, rfl, by decide +kernel⟩
  have hsecond : CodeText LanguageTable.python Markers.standard hostileCode :=
    ⟨rfl, rfl, by decide +kernel⟩
  refine ⟨hplain, ?_⟩
  rcases parse_inside_snippet "a.py".toList opensSnippet_openedBlock closesSnippet_closedBlock
      hfirst hsecond with
    ⟨tags, contents, hfault, -⟩ | ⟨file, other, hfile, hother, -, hwritten⟩
  · cases hplain.symm.trans hfault
  · obtain rfl := Except.ok.inj (hplain.symm.trans hfile)
    exact ⟨other, hother, hwritten.symm.trans rfl⟩

end DocFile
end Docblock
