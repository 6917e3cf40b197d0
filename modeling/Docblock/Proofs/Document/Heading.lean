import Docblock.Proofs.Document.Fence
import Docblock.Proofs.Token.Position

namespace Docblock.Markdown

open Docblock.Text
open Docblock.Token (isBlank_of_mem_word)

/-! A name is shown as a heading and a brief as a quote.  Main statement: what is collapsed is the
words of the text with one space between two of them, so each of the two is one line. -/

theorem squeeze_word_append {word : Text} (hword : word.any isBlank = false) (rest : Text) :
    squeeze (word ++ rest) = word ++ squeeze rest := by
  induction word with
  | nil => rfl
  | cons c word ih =>
      rw [List.any_cons, Bool.or_eq_false_iff] at hword
      rw [List.cons_append, squeeze, hword.1, if_neg Bool.false_ne_true, ih hword.2]
      rfl

private theorem squeeze_cons_blank {c : Char} (hblank : isBlank c = true) (rest : Text) :
    squeeze (c :: rest) = ' ' :: squeeze rest.trimStart := by
  induction rest generalizing c with
  | nil => simp [squeeze, hblank, trimStart]
  | cons d rest ih =>
      rw [squeeze, if_pos hblank]
      cases hd : isBlank d with
      | true =>
          rw [ih hd, trimStart, trimStart, List.dropWhile_cons_of_pos hd]
          simp [hd]
      | false =>
          rw [trimStart, List.dropWhile_cons_of_neg (by simp [hd])]
          simp [hd]

private theorem collapse_cons_blank {c : Char} (hblank : isBlank c = true) (rest : Text) :
    collapse (c :: rest) = collapse rest := by
  have htrim : trimStart (c :: rest) = trimStart rest := List.dropWhile_cons_of_pos hblank
  rw [collapse, collapse, trim, trim, htrim]

section Word

variable {word : Text} (hword : word.any isBlank = false)
include hword

private theorem collapse_word_append_of_allBlank {rest : Text} (hrest : rest.allBlank = true) :
    collapse (word ++ rest) = word := by
  have htrim : trim ([] ++ (word ++ rest)) = word :=
    trim_surrounded rfl hrest (fun c hc => isBlank_of_mem_word hword (List.mem_of_head? hc))
      fun c hc => isBlank_of_mem_word hword (List.mem_of_getLast? hc)
  rw [collapse, ← List.nil_append (word ++ rest), htrim]
  simpa [squeeze] using squeeze_word_append hword []

private theorem collapse_word_cons (hne : word ≠ []) {c : Char} (hblank : isBlank c = true)
    {rest : Text}
    (hrest : rest.allBlank = false) :
    collapse (word ++ c :: rest) = word ++ ' ' :: collapse rest := by
  have hstart : trimStart (word ++ c :: rest) = word ++ c :: rest := by
    obtain ⟨first, word, rfl⟩ := List.exists_cons_of_ne_nil hne
    apply trimStart_eq_self
    simpa using isBlank_of_mem_word hword List.mem_cons_self
  have hend : trimEnd (word ++ c :: rest) = word ++ c :: trimEnd rest := by
    rw [List.append_cons, trimEnd_append_of_not_allBlank hrest, ← List.append_cons]
  rw [collapse, trim, hstart, hend, squeeze_word_append hword, squeeze_cons_blank hblank,
    trimStart_trimEnd, collapse]

end Word

theorem collapse_eq_intercalate (text : Text) :
    collapse text = List.intercalate [' '] (Token.words text) := by
  induction text using Token.scan_induction with
  | nil => rfl
  | blank c rest hblank ih => rw [collapse_cons_blank hblank, Token.words_cons_blank hblank, ih]
  | last word hne hword =>
      have hcollapse := @collapse_word_append_of_allBlank word hword [] rfl
      rw [List.append_nil] at hcollapse
      rw [hcollapse, Token.words_word hne hword, List.intercalate_singleton]
  | word word c rest hne hword hblank ih =>
      rw [Token.words_word_cons hne hword hblank]
      cases hrest : rest.allBlank with
      | true =>
          have hcons : Text.allBlank (c :: rest) = true :=
            Bool.and_eq_true_iff.mpr ⟨hblank, hrest⟩
          rw [collapse_word_append_of_allBlank hword hcons, Token.words_eq_nil_iff.mpr hrest,
            List.intercalate_singleton]
      | false =>
          have hwords : Token.words rest ≠ [] := by
            rw [Ne, Token.words_eq_nil_iff, hrest]
            exact Bool.false_ne_true
          obtain ⟨next, others, hcons⟩ := List.exists_cons_of_ne_nil hwords
          rw [collapse_word_cons hword hne hblank hrest, ih, hcons, List.intercalate_cons_cons,
            List.append_assoc, List.singleton_append]

theorem words_collapse (text : Text) : Token.words (collapse text) = Token.words text := by
  rw [collapse_eq_intercalate]
  exact Token.words_intercalate fun word hmem => Token.isWord_of_mem_words hmem

theorem collapse_collapse (text : Text) : collapse (collapse text) = collapse text := by
  rw [collapse_eq_intercalate, words_collapse, ← collapse_eq_intercalate]

/-- Every blank of a text is a space, and stands between two characters that are not blank. -/
def SinglySpaced (text : Text) : Prop :=
  ∀ before c after, text = before ++ c :: after → isBlank c = true →
    c = ' ' ∧ before.getLast?.all isBlank = false ∧ after.head?.all isBlank = false

theorem singlySpaced_of_not_any {word : Text} (hword : word.any isBlank = false) :
    SinglySpaced word := by
  rintro before c after rfl hblank
  have hplain := isBlank_of_mem_word hword (List.mem_append_right before List.mem_cons_self)
  rw [hblank] at hplain
  contradiction

section Joined

variable {word : Text} (hne : word ≠ []) (hword : word.any isBlank = false)
include hne hword

private theorem head?_word_append (rest : Text) : (word ++ rest).head?.all isBlank = false := by
  obtain ⟨c, word, rfl⟩ := List.exists_cons_of_ne_nil hne
  exact isBlank_of_mem_word hword List.mem_cons_self

private theorem getLast?_word : word.getLast?.all isBlank = false := by
  rw [List.getLast?_eq_some_getLast hne]
  exact isBlank_of_mem_word hword (List.getLast_mem hne)

private theorem SinglySpaced.word_cons {rest : Text} (hrest : SinglySpaced rest)
    (hhead : rest.head?.all isBlank = false) : SinglySpaced (word ++ ' ' :: rest) := by
  intro before c after hsplit hblank
  -- The blank is the space between the two parts or stands behind it: the word has none.
  rcases List.append_eq_append_iff.mp hsplit with ⟨middle, rfl, hright⟩ | ⟨middle, hleft, hright⟩
  · cases middle with
    | nil =>
        obtain ⟨rfl, rfl⟩ := List.cons.inj hright
        rw [List.append_nil]
        exact ⟨rfl, getLast?_word hne hword, hhead⟩
    | cons space middle =>
        obtain ⟨rfl, rfl⟩ := List.cons.inj hright
        obtain ⟨hc, hbefore, hafter⟩ := hrest middle c after rfl hblank
        refine ⟨hc, ?_, hafter⟩
        cases hlast : middle.getLast? with
        | none =>
            rw [hlast] at hbefore
            contradiction
        | some d =>
            rw [List.getLast?_append, List.getLast?_cons, hlast]
            rwa [hlast] at hbefore
  · cases middle with
    | nil =>
        obtain ⟨rfl, rfl⟩ := List.cons.inj hright
        rw [List.append_nil] at hleft
        exact ⟨rfl, hleft ▸ getLast?_word hne hword, hhead⟩
    | cons d middle =>
        obtain ⟨rfl, -⟩ := List.cons.inj hright
        have hplain := @isBlank_of_mem_word word c hword (by simp [hleft])
        rw [hblank] at hplain
        contradiction

end Joined

private theorem exists_intercalate_cons (word : Text) (rest : List Text) :
    ∃ tail, List.intercalate [' '] (word :: rest) = word ++ tail := by
  cases rest with
  | nil => exact ⟨[], by rw [List.intercalate_singleton, List.append_nil]⟩
  | cons next rest => exact ⟨_, by rw [List.intercalate_cons_cons, List.append_assoc]⟩

private theorem singlySpaced_intercalate {written : List Text}
    (hwritten : ∀ word ∈ written, word ≠ [] ∧ word.any isBlank = false) :
    SinglySpaced (List.intercalate [' '] written) := by
  induction written with
  | nil => exact singlySpaced_of_not_any rfl
  | cons word rest ih =>
      rw [List.forall_mem_cons] at hwritten
      obtain ⟨⟨hne, hword⟩, hrest⟩ := hwritten
      cases rest with
      | nil =>
          rw [List.intercalate_singleton]
          exact singlySpaced_of_not_any hword
      | cons next rest =>
          rw [List.intercalate_cons_cons, List.append_assoc, List.singleton_append]
          apply (ih hrest).word_cons hne hword
          obtain ⟨tail, htail⟩ := exists_intercalate_cons next rest
          rw [htail]
          exact head?_word_append (hrest next List.mem_cons_self).1
            (hrest next List.mem_cons_self).2 tail

theorem singlySpaced_collapse (text : Text) : SinglySpaced (collapse text) := by
  rw [collapse_eq_intercalate]
  exact singlySpaced_intercalate fun word hmem => Token.isWord_of_mem_words hmem

private theorem SinglySpaced.newline_not_mem {text : Text} (hspaced : SinglySpaced text) :
    '\n' ∉ text := by
  intro hmem
  obtain ⟨before, after, rfl⟩ := List.append_of_mem hmem
  have hspace := (hspaced before '\n' after rfl (by decide +kernel)).1
  contradiction

def wordLines (mark : String) (content : Text) : List Text :=
  [mark.toList ++ List.intercalate [' '] (Token.words content), []]

def bodyLines (extension : Text) (block : FieldMap) : List Text :=
  ([ReservedTag.notes, .inputs, .outputs].flatMap fun tag =>
      (block.reserved? tag).toList.flatMap (reservedLines tag)) ++
    customLines block.custom ++ codeLines extension block.snippets

private theorem lines_heading {mark : String} (hmark : '\n' ∉ mark.toList) (content : Text) :
    lines (heading mark content) = wordLines mark content := by
  have hline : '\n' ∉ mark.toList ++ collapse content := by
    rw [List.mem_append, not_or]
    exact ⟨hmark, (singlySpaced_collapse content).newline_not_mem⟩
  rw [heading, lines_append_cons, lines_of_not_mem hline, wordLines, ← collapse_eq_intercalate]
  rfl

private theorem blockLines_eq_bodyLines (extension : Text) (block : FieldMap) :
    blockLines extension block =
      (block.reserved? .name).toList.flatMap (reservedLines .name) ++
        (block.reserved? .brief).toList.flatMap (reservedLines .brief) ++
        bodyLines extension block := by
  simp only [blockLines_eq_append, leadLines, reservedOrder, bodyLines, List.flatMap_cons,
    List.append_assoc]

private theorem linesOfRows_headings {mark : String} (hmark : '\n' ∉ mark.toList)
    (content : Option Text) :
    linesOfRows (content.toList.flatMap fun content => [heading mark content]) =
      content.toList.flatMap (wordLines mark) := by
  rw [linesOfRows, List.flatMap_assoc]
  simp only [List.flatMap_singleton, lines_heading hmark]

private theorem linesOfRows_blockLines (extension : Text) (block : FieldMap) :
    linesOfRows (blockLines extension block) =
      (block.reserved? .name).toList.flatMap (wordLines "## ") ++
        (block.reserved? .brief).toList.flatMap (wordLines "> ") ++
        linesOfRows (bodyLines extension block) := by
  have hname := @linesOfRows_headings "## " (by decide) (block.reserved? .name)
  have hbrief := @linesOfRows_headings "> " (by decide) (block.reserved? .brief)
  rw [← hname, ← hbrief, blockLines_eq_bodyLines, linesOfRows, List.flatMap_append,
    List.flatMap_append]
  rfl

private theorem lines_renderFile (file : DocFile) :
    lines (renderFile file) =
      linesOfRows ["# ".toList ++ title file.name, []] ++
        file.blocks.flatMap (fun block => linesOfRows (blockLines file.extension block)) ++
        ["---".toList, []] := by
  have hrule : linesOfRows ["---".toList] ++ lines [] = ["---".toList, []] := by
    decide
  have hrows : renderFile file = unlines (["# ".toList ++ title file.name, []] ++
      file.blocks.flatMap (blockLines file.extension) ++ ["---".toList]) ++ ['\n'] := rfl
  rw [hrows, lines_append_cons, lines_unlines_of_ne_nil (by simp), ← hrule, ← List.append_assoc]
  simp only [linesOfRows, List.flatMap_append, List.flatMap_assoc]

/-- What is collapsed is the words of the text with one space between two of them.  The name of a
block is a line of its own and a blank line, the brief another one, and the lines of a file are
those of its blocks. -/
theorem headings_keep_words :
    (∀ text, collapse text = List.intercalate [' '] ((Token.all text).map Token.text) ∧
      Token.words (collapse text) = Token.words text ∧ SinglySpaced (collapse text) ∧
      collapse (collapse text) = collapse text) ∧
    (∀ extension block, linesOfRows (blockLines extension block) =
      (block.reserved? .name).toList.flatMap (wordLines "## ") ++
        (block.reserved? .brief).toList.flatMap (wordLines "> ") ++
        linesOfRows (bodyLines extension block)) ∧
    ∀ file, lines (renderFile file) =
      linesOfRows ["# ".toList ++ title file.name, []] ++
        file.blocks.flatMap (fun block => linesOfRows (blockLines file.extension block)) ++
        ["---".toList, []] := by
  refine ⟨fun text => ?_, linesOfRows_blockLines, lines_renderFile⟩
  exact ⟨collapse_eq_intercalate text, words_collapse text, singlySpaced_collapse text,
    collapse_collapse text⟩

end Docblock.Markdown
