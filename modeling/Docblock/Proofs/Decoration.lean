import Docblock.Decoration
import Docblock.Language.Table
import Docblock.Proofs.Language.Symbols
import Docblock.Proofs.Text.Lines
import Mathlib.Data.List.Basic

namespace Docblock.Decoration

/-! No symbol that decorates a comment begins with the tag character, so that a comment
with a tag at the front of a line has no decoration. -/

private theorem head?_decorationSymbols {language : Language}
    (hlanguage : language ∈ LanguageTable.builtin.languages) {symbol : Text}
    (hmem : symbol ∈ language.decorationSymbols) : symbol.head?.any (· ≠ '@') = true := by
  have hsymbols : ∀ language ∈ LanguageTable.builtin.languages,
      ∀ symbol ∈ language.lineComment.toList ++ language.noise,
        symbol.head?.any (· ≠ '@') = true := by
    decide
  exact hsymbols language hlanguage symbol (Language.mem_arrange.mp hmem)

private theorem not_decorates {tag : Char} {lines : List Text} {line symbol : Text}
    (hline : line ∈ lines) (hhead : line.head? = some tag)
    (hsymbol : symbol.head?.any (· ≠ tag) = true) : decorates tag lines symbol = false := by
  rw [decorates, Bool.and_eq_false_iff, List.all_eq_false]
  refine .inl ⟨line, hline, ?_⟩
  obtain ⟨rest, rfl⟩ := List.head?_eq_some_iff.mp hhead
  cases symbol with
  | nil => simp at hsymbol
  | cons c symbol =>
      have hne : c ≠ tag := by simpa using hsymbol
      simp [hne]

theorem strip_of_not_mem {text : Text} (hline : '\n' ∉ text) (language : Language) (tag : Char) :
    strip language tag text = text := by
  have hcontent : content text.lines = [] := by
    rw [Text.lines_of_not_mem hline]
    rfl
  have hnone : language.decorationSymbols.find? (decorates tag []) = none := by
    rw [List.find?_eq_none]
    intro symbol _
    simp [decorates]
  rw [strip, hcontent, hnone]

theorem strip_eq_self {language : Language}
    (hlanguage : language ∈ LanguageTable.builtin.languages) {text line : Text}
    (hline : line ∈ text.lines.tail) (hhead : line.head? = some '@') :
    strip language '@' text = text := by
  have htrim : line.trim.head? = some '@' := Text.head?_trim hhead rfl
  have hcontent : line.trim ∈ content text.lines := by
    rw [content, List.mem_filter]
    refine ⟨List.mem_map_of_mem hline, ?_⟩
    cases hempty : line.trim with
    | nil => simp [hempty] at htrim
    | cons c rest => rfl
  have hnone : language.decorationSymbols.find? (decorates '@' (content text.lines)) = none := by
    rw [List.find?_eq_none]
    intro symbol hsymbol
    simp [not_decorates hcontent htrim (head?_decorationSymbols hlanguage hsymbol)]
  rw [strip, hnone]

/-- A symbol that the decoration of a language can be told from: no other symbol begins with
it, and it is a word of one line. -/
structure Leading (language : Language) (symbol : Text) : Prop where
  mem : symbol ∈ language.decorationSymbols
  longest : ∀ other ∈ language.decorationSymbols, symbol <+: other → other = symbol
  ne_nil : symbol ≠ []
  trim_eq : symbol.trim = symbol
  one_line : '\n' ∉ symbol

/-- The symbol and a space before a line, behind a margin. -/
def decorate (symbol margin line : Text) : Text :=
  margin ++ (symbol ++ ' ' :: line)

variable {language : Language} {symbol : Text}

theorem trimStart_decorate (hleading : Leading language symbol) {margin : Text}
    (hmargin : margin.allBlank = true) (line : Text) :
    (decorate symbol margin line).trimStart = symbol ++ ' ' :: line := by
  have hhead := Text.isBlank_head?_of_trim hleading.trim_eq
  rw [decorate, Text.trimStart_append_of_allBlank hmargin]
  apply Text.trimStart_eq_self
  obtain ⟨first, rest, rfl⟩ := List.exists_cons_of_ne_nil hleading.ne_nil
  exact hhead

theorem stripLine_decorate (hleading : Leading language symbol) {margin : Text}
    (hmargin : margin.allBlank = true) (line : Text) :
    stripLine symbol (decorate symbol margin line) = line := by
  have hsplit : symbol.isPrefixOf? (symbol ++ ' ' :: line) = some (' ' :: line) :=
    List.isPrefixOf?_eq_some_iff_append_eq.mpr rfl
  rw [stripLine, trimStart_decorate hleading hmargin, hsplit]
  rfl

theorem trim_decorate (hleading : Leading language symbol) {margin : Text}
    (hmargin : margin.allBlank = true) (line : Text) :
    (decorate symbol margin line).trim = symbol ++ Text.trimEnd (' ' :: line) := by
  rw [Text.trim, trimStart_decorate hleading hmargin,
    Text.trimEnd_append_of_getLast? (Text.isBlank_getLast?_of_trim hleading.trim_eq)]

theorem head?_trimStart_trimEnd {line : Text} {tag : Char} (htag : isBlank tag = false)
    (hline : line.trimStart.head? = some tag) :
    (Text.trimStart (Text.trimEnd (' ' :: line))).head? = some tag := by
  have hspace : Text.trim (' ' :: line) = line.trim := by
    rw [← Text.trim_trimStart]
    exact Text.trim_trimStart line
  rw [Text.trimStart_trimEnd, hspace, ← Text.trim_trimStart]
  exact Text.head?_trim hline htag

private theorem begins_of_decorates {tag : Char} {lines : List Text}
    (hdecorates : decorates tag lines symbol = true) {line : Text} (hline : line ∈ lines) :
    symbol <+: line := by
  rw [decorates, Bool.and_eq_true, List.all_eq_true] at hdecorates
  exact List.isPrefixOf_iff_prefix.mp (hdecorates.1 line hline)

private theorem find?_of_leading (hleading : Leading language symbol) {tag : Char}
    {lines : List Text}
    (hne : lines ≠ []) (hdecorates : decorates tag lines symbol = true) :
    language.decorationSymbols.find? (decorates tag lines) = some symbol := by
  obtain ⟨before, after, hsplit, hnew⟩ := List.eq_append_cons_of_mem hleading.mem
  obtain ⟨line, rest, rfl⟩ := List.exists_cons_of_ne_nil hne
  refine List.find?_eq_some_iff_append.mpr ⟨hdecorates, before, after, hsplit, ?_⟩
  intro other hother
  rw [Bool.not_eq_true', Bool.eq_false_iff]
  intro hboth
  have horder := Language.pairwise_arrange (language.lineComment.toList ++ language.noise)
  rw [← Language.decorationSymbols, hsplit, List.pairwise_append] at horder
  have hlonger : symbol.byteLength ≤ other.byteLength :=
    horder.2.2 other hother symbol List.mem_cons_self
  obtain ⟨right, hright⟩ := begins_of_decorates hdecorates List.mem_cons_self
  obtain ⟨left, hleft⟩ := begins_of_decorates hboth List.mem_cons_self
  have hextends := Text.prefix_of_byteLength_le (hright.trans hleft.symm) hlonger
  have hmem : other ∈ language.decorationSymbols := by
    rw [hsplit]
    exact List.mem_append_left _ hother
  rw [hleading.longest other hmem hextends] at hother
  exact hnew hother

section Rows

variable (hleading : Leading language symbol) {first : Text} {rows : List (Text × Text)}
  (hrows : ∀ row ∈ rows, row.1.allBlank = true ∧ '\n' ∉ row.1 ∧ '\n' ∉ row.2)
include hleading hrows

private theorem lines_decorated (hfirst : '\n' ∉ first) :
    (Text.unlines (first :: rows.map fun row => decorate symbol row.1 row.2)).lines =
      first :: rows.map fun row => decorate symbol row.1 row.2 := by
  refine Text.lines_unlines ?_ (List.cons_ne_nil _ _)
  intro line hline
  rcases List.mem_cons.mp hline with rfl | hline
  · exact hfirst
  · obtain ⟨row, hrow, rfl⟩ := List.mem_map.mp hline
    obtain ⟨-, hmargin, hrest⟩ := hrows row hrow
    simp [decorate, hmargin, hrest, hleading.one_line]

private theorem content_decorated :
    content (first :: rows.map fun row => decorate symbol row.1 row.2) =
      rows.map fun row => symbol ++ Text.trimEnd (' ' :: row.2) := by
  rw [content, List.tail_cons, List.map_map]
  have htrim : rows.map (Text.trim ∘ fun row => decorate symbol row.1 row.2) =
      rows.map fun row => symbol ++ Text.trimEnd (' ' :: row.2) :=
    List.map_congr_left fun row hrow => trim_decorate hleading (hrows row hrow).1 row.2
  rw [htrim, List.filter_eq_self]
  intro line hline
  obtain ⟨row, -, rfl⟩ := List.mem_map.mp hline
  simp [hleading.ne_nil]

private theorem strip_of_leading (hfirst : '\n' ∉ first) {tag : Char} (htag : isBlank tag = false)
    (htagged : ∃ row ∈ rows, row.2.trimStart.head? = some tag) :
    strip language tag (Text.unlines (first :: rows.map fun row => decorate symbol row.1 row.2)) =
      Text.unlines (first :: rows.map (·.2)) := by
  obtain ⟨tagged, htaggedMem, hhead⟩ := htagged
  have hdecorates : decorates tag (rows.map fun row => symbol ++ Text.trimEnd (' ' :: row.2))
      symbol = true := by
    rw [decorates, Bool.and_eq_true, List.all_eq_true, List.any_eq_true]
    constructor
    · intro line hline
      obtain ⟨row, -, rfl⟩ := List.mem_map.mp hline
      exact List.isPrefixOf_iff_prefix.mpr (List.prefix_append _ _)
    · refine ⟨_, List.mem_map_of_mem htaggedMem, ?_⟩
      rw [List.drop_left, decide_eq_true_eq]
      exact head?_trimStart_trimEnd htag hhead
  have hne : rows.map (fun row => symbol ++ Text.trimEnd (' ' :: row.2)) ≠ [] := by
    rw [Ne, List.map_eq_nil_iff]
    exact List.ne_nil_of_mem htaggedMem
  have hlines : rows.map (stripLine symbol ∘ fun row => decorate symbol row.1 row.2) =
      rows.map (·.2) :=
    List.map_congr_left fun row hrow => stripLine_decorate hleading (hrows row hrow).1 row.2
  rw [strip, lines_decorated hleading hrows hfirst, content_decorated hleading hrows,
    find?_of_leading hleading hne hdecorates]
  simp only [List.take_succ_cons, List.take_zero, List.drop_succ_cons, List.drop_zero,
    List.map_map, hlines, List.singleton_append]

end Rows

/-- The symbols that comments of a known language are decorated with: that of a line comment,
and a star where comments are written as in C. -/
def Decorator (language : Language) (symbol : Text) : Prop :=
  language.lineComment = some symbol ∨
    (∃ extension, language = LanguageTable.slashStar extension) ∧ symbol = "*".toList

private theorem leading_of_decorator (hlanguage : language ∈ LanguageTable.builtin.languages)
    (hdecorator : Decorator language symbol) : Leading language symbol := by
  have hmem : symbol ∈ language.lineComment.toList ++ language.noise := by
    rcases hdecorator with hcomment | ⟨⟨extension, rfl⟩, rfl⟩
    · rw [hcomment]
      exact List.mem_cons_self
    · simp [LanguageTable.slashStar]
  have hcandidate : symbol ∈ "*".toList :: language.lineComment.toList := by
    rcases hdecorator with hcomment | ⟨-, rfl⟩
    · rw [hcomment]
      exact List.mem_cons_of_mem _ List.mem_cons_self
    · exact List.mem_cons_self
  have htable : ∀ language ∈ LanguageTable.builtin.languages,
      ∀ symbol ∈ "*".toList :: language.lineComment.toList,
        (∀ other ∈ language.lineComment.toList ++ language.noise,
          symbol <+: other → other = symbol) ∧
        symbol ≠ [] ∧ Text.trim symbol = symbol ∧ '\n' ∉ symbol := by
    decide
  obtain ⟨hlongest, hne, htrim, hline⟩ := htable language hlanguage symbol hcandidate
  exact ⟨Language.mem_arrange.mpr hmem,
    fun other hother => hlongest other (Language.mem_arrange.mp hother), hne, htrim, hline⟩

/-- Lines that carry a tag come back from behind any margins and the symbol of a comment, with
a space after it. -/
theorem strip_decorated (hlanguage : language ∈ LanguageTable.builtin.languages)
    (hdecorator : Decorator language symbol) {first : Text} (hfirst : '\n' ∉ first)
    {rows : List (Text × Text)}
    (hrows : ∀ row ∈ rows, row.1.allBlank = true ∧ '\n' ∉ row.1 ∧ '\n' ∉ row.2)
    (htagged : ∃ row ∈ rows, row.2.trimStart.head? = some '@') :
    strip language '@' (Text.unlines (first :: rows.map fun row => decorate symbol row.1 row.2)) =
      Text.unlines (first :: rows.map (·.2)) :=
  strip_of_leading (leading_of_decorator hlanguage hdecorator) hrows hfirst rfl htagged

theorem strip_javadoc :
    strip (LanguageTable.slashStar "java") '@'
        "/**\n * @name: area\n\t * // of a * b\n *  \n\u3000* /* inner */".toList =
      "/**\n@name: area\n// of a * b\n \n/* inner */".toList := by
  have hfirst : '\n' ∉ "/**".toList := by decide
  have hrows : ∀ row ∈ ([(" ".toList, "@name: area".toList),
        ("\t ".toList, "// of a * b".toList), (" ".toList, " ".toList),
        ("\u3000".toList, "/* inner */".toList)] : List (Text × Text)),
      row.1.allBlank = true ∧ '\n' ∉ row.1 ∧ '\n' ∉ row.2 := by
    decide
  exact strip_decorated (by decide) (.inr ⟨⟨"java", rfl⟩, rfl⟩) hfirst hrows
    ⟨_, List.mem_cons_self, rfl⟩

end Docblock.Decoration
