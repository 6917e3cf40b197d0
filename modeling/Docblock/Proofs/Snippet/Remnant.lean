import Docblock.Language.Table
import Docblock.Proofs.Language.Symbols
import Docblock.Proofs.Lists
import Docblock.Proofs.Snippet.ShownLines
import Docblock.Proofs.Text.MadeOf

namespace Docblock.Snippet

open Docblock.Text

/-! A line is left of a marker when nothing of it remains once comment symbols are taken off its
front, which is done without ever going back.  Main statement: such a line is made of symbols and
blanks, and every line that is made of them is such a line exactly when no symbol leaves anything
else behind. -/

def strip (symbol text : Text) : Text :=
  match symbol.isPrefixOf? text with
  | some rest => trimStart rest
  | none => text

theorem stripOnce_cons (symbol : Text) (symbols : List Text) (text : Text) :
    stripOnce (symbol :: symbols) text = stripOnce symbols (strip symbol text) := rfl

theorem stripOnce_append (before after : List Text) (text : Text) :
    stripOnce (before ++ after) text = stripOnce after (stripOnce before text) :=
  List.foldl_append

theorem strip_append (symbol rest : Text) : strip symbol (symbol ++ rest) = trimStart rest := by
  rw [strip, List.isPrefixOf?_eq_some_iff_append_eq.mpr rfl]

theorem strip_of_not_begins {symbol text : Text} (hnot : ¬ symbol <+: text) :
    strip symbol text = text := by
  cases hrest : symbol.isPrefixOf? text with
  | none => rw [strip, hrest]
  | some rest => exact absurd ⟨rest, List.isPrefixOf?_eq_some_iff_append_eq.mp hrest⟩ hnot

theorem strip_suffix (symbol text : Text) : strip symbol text <:+ text :=
  stripOnce_suffix [symbol] text

section Sound

variable {symbols : List Text}

private theorem madeOf_of_strip {symbol text : Text} (hmem : symbol ∈ symbols)
    (hmade : MadeOf symbols (strip symbol text)) : MadeOf symbols text := by
  by_cases hstarts : symbol <+: text
  · obtain ⟨rest, rfl⟩ := hstarts
    rw [strip_append] at hmade
    exact .append (.symbol hmem) hmade.of_trimStart
  · rwa [strip_of_not_begins hstarts] at hmade

theorem madeOf_of_stripOnce {passed : List Text} (hpassed : ∀ symbol ∈ passed, symbol ∈ symbols)
    {text : Text} (hmade : MadeOf symbols (stripOnce passed text)) : MadeOf symbols text := by
  induction passed generalizing text with
  | nil => exact hmade
  | cons symbol passed ih =>
      rw [List.forall_mem_cons] at hpassed
      rw [stripOnce_cons] at hmade
      exact madeOf_of_strip hpassed.1 (ih hpassed.2 hmade)

theorem madeOf_of_repeat {passed : List Text} (hpassed : ∀ symbol ∈ passed, symbol ∈ symbols)
    {text : Text} {count : Nat} (hmade : MadeOf symbols (count.repeat (stripOnce passed) text)) :
    MadeOf symbols text := by
  induction count with
  | zero => exact hmade
  | succ count ih => exact ih (madeOf_of_stripOnce hpassed hmade)

end Sound

theorem madeOf_trim_of_isRemnant {language : Language} {line : Text}
    (hremnant : isRemnant language line = true) : MadeOf language.symbols line.trim := by
  rw [isRemnant, List.isEmpty_iff] at hremnant
  apply madeOf_of_repeat fun symbol => Language.mem_remnantSymbols.mp
  rw [hremnant]
  exact .nil

theorem not_prefix_of_stripOnce_eq {passed : List Text} {text : Text}
    (hfixed : stripOnce passed text = text) {symbol : Text} (hmem : symbol ∈ passed)
    (hne : symbol ≠ []) : ¬ symbol <+: text := by
  induction passed with
  | nil => contradiction
  | cons first passed ih =>
      rw [stripOnce_cons] at hfixed
      have hstripped : strip first text = text := by
        apply (strip_suffix first text).eq_of_length_le
        have hle := (stripOnce_suffix passed (strip first text)).length_le
        rwa [hfixed] at hle
      rcases List.mem_cons.mp hmem with rfl | hlater
      · rintro ⟨rest, rfl⟩
        rw [strip_append] at hstripped
        have hle := (List.dropWhile_suffix isBlank (l := rest)).length_le
        rw [← trimStart, hstripped, List.length_append] at hle
        have hpositive := List.length_pos_iff.mpr hne
        omega
      · rw [hstripped] at hfixed
        exact ih hfixed hlater

/-- What is left to take apart: symbols and blanks, the first of which is no blank. -/
structure Remains (symbols : List Text) (text : Text) : Prop where
  made : MadeOf symbols text
  head : ∀ c ∈ text.head?, isBlank c = false

section Complete

variable {symbols : List Text} (hclosed : Closed symbols) (hnil : [] ∉ symbols) {text : Text}
include hclosed hnil

theorem Remains.strip {symbol : Text} (hremains : Remains symbols text) (hmem : symbol ∈ symbols) :
    Remains symbols (strip symbol text) := by
  by_cases hstarts : symbol <+: text
  · obtain ⟨rest, rfl⟩ := hstarts
    have hrest := hclosed.cancel hnil (IsPart.symbol hmem).madeOf hremains.made
    rw [strip_append]
    exact ⟨hclosed.madeOf_trimStart hnil hrest, isBlank_head?_trimStart rest⟩
  · rwa [strip_of_not_begins hstarts]

theorem Remains.stripOnce {passed : List Text} (hremains : Remains symbols text)
    (hpassed : ∀ symbol ∈ passed, symbol ∈ symbols) :
    Remains symbols (stripOnce passed text) := by
  induction passed generalizing text with
  | nil => exact hremains
  | cons symbol passed ih =>
      rw [List.forall_mem_cons] at hpassed
      rw [stripOnce_cons]
      exact ih (hremains.strip hclosed hnil hpassed.1) hpassed.2

theorem Remains.repeat {passed : List Text} (hremains : Remains symbols text)
    (hpassed : ∀ symbol ∈ passed, symbol ∈ symbols) (count : Nat) :
    Remains symbols (count.repeat (Snippet.stripOnce passed) text) := by
  induction count with
  | zero => exact hremains
  | succ count ih => exact ih.stripOnce hclosed hnil hpassed

end Complete

theorem isRemnant_of_madeOf {language : Language} (hclosed : Closed language.symbols)
    (hnil : [] ∉ language.symbols) {line : Text} (hmade : MadeOf language.symbols line) :
    isRemnant language line = true := by
  have hstart : Remains language.symbols line.trim :=
    ⟨hclosed.madeOf_trim hnil hmade, isBlank_head?_trim line⟩
  have hleft :=
    hstart.repeat hclosed hnil (fun symbol => Language.mem_remnantSymbols.mp) line.length
  rw [isRemnant, List.isEmpty_iff]
  rcases repeat_or_shorter (stripOnce_suffix language.remnantSymbols) line.trim line.length with
    hfixed | hshorter
  · by_contra hne
    obtain ⟨symbol, hmem, hstarts⟩ := hleft.made.exists_symbol hne hleft.head
    refine not_prefix_of_stripOnce_eq hfixed (Language.mem_remnantSymbols.mpr hmem) ?_ hstarts
    exact fun hempty => hnil (hempty ▸ hmem)
  · have hle := length_trim_le line
    exact List.eq_nil_of_length_eq_zero (by omega)

/-! Where all lines of symbols are taken apart, the symbols are closed.  A pass takes a symbol off
once and goes on to shorter ones, so one of these meets a copy of the symbol in a line that has
enough of them, with gaps between that no symbol reaches over. -/

def copies (word gap rest : Text) : Nat → Text
  | 0 => rest
  | count + 1 => word ++ (gap ++ copies word gap rest count)

section Copies

variable {word gap rest : Text}

theorem madeOf_copies {symbols : List Text} (hword : MadeOf symbols word)
    (hgap : gap.allBlank = true) (hrest : MadeOf symbols rest) (count : Nat) :
    MadeOf symbols (copies word gap rest count) := by
  induction count with
  | zero => exact hrest
  | succ count ih => exact hword.trans ((madeOf_of_allBlank hgap).trans ih)

private theorem suffix_copies (count : Nat) : rest <:+ copies word gap rest count := by
  induction count with
  | zero => exact List.suffix_rfl
  | succ count ih =>
      exact ih.trans ((List.suffix_append gap _).trans (List.suffix_append word _))

variable (hne : word ≠ []) (hword : ∀ c ∈ word.head?, isBlank c = false)
  (hrest : ∀ c ∈ rest.head?, isBlank c = false)
include hne hword hrest

theorem isBlank_head?_copies (count : Nat) :
    ∀ c ∈ (copies word gap rest count).head?, isBlank c = false := by
  cases count with
  | zero => exact hrest
  | succ count =>
      rw [copies, List.head?_append_of_ne_nil _ hne]
      exact hword

private theorem strip_copies (hgap : gap.allBlank = true) {symbol : Text}
    (hlength : symbol.length ≤ gap.length) (hwhole : symbol <+: word → symbol = word)
    (count : Nat) :
    strip symbol (copies word gap rest (count + 1)) = copies word gap rest (count + 1) ∨
      strip symbol (copies word gap rest (count + 1)) = copies word gap rest count := by
  by_cases hstarts : symbol <+: copies word gap rest (count + 1)
  · right
    have hlonger : word <+: symbol := by
      rcases List.prefix_or_prefix_of_prefix hstarts (List.prefix_append word _) with hle | hle
      · exact hwhole hle ▸ List.prefix_rfl
      · exact hle
    obtain ⟨blanks, rfl⟩ := hlonger
    rw [copies, List.prefix_append_right_inj] at hstarts
    have hblanks : blanks <+: gap := by
      apply List.prefix_of_prefix_length_le hstarts (List.prefix_append gap _)
      rw [List.length_append] at hlength
      omega
    obtain ⟨others, rfl⟩ := hblanks
    have hothers : allBlank others = true := by
      rw [allBlank, List.all_append, Bool.and_eq_true] at hgap
      exact hgap.2
    rw [copies, List.append_assoc, ← List.append_assoc word, strip_append,
      trimStart_append_of_allBlank hothers]
    exact trimStart_eq_self (isBlank_head?_copies hne hword hrest count)
  · exact .inl (strip_of_not_begins hstarts)

theorem exists_stripOnce_copies (hgap : gap.allBlank = true) {passed : List Text}
    (hlength : ∀ symbol ∈ passed, symbol.length ≤ gap.length)
    (hwhole : ∀ symbol ∈ passed, symbol <+: word → symbol = word) (count : Nat) :
    ∃ left, stripOnce passed (copies word gap rest (passed.length + count)) =
      copies word gap rest left ∧ count ≤ left := by
  induction passed generalizing count with
  | nil => exact ⟨count, by rw [List.length_nil, Nat.zero_add]; rfl, Nat.le_refl count⟩
  | cons symbol passed ih =>
      rw [List.forall_mem_cons] at hlength hwhole
      rw [List.length_cons, Nat.add_right_comm, stripOnce_cons]
      rcases strip_copies hne hword hrest hgap hlength.1 hwhole.1 (passed.length + count) with
        hkept | htaken
      · rw [hkept, Nat.add_assoc]
        obtain ⟨left, hleft, hle⟩ := ih hlength.2 hwhole.2 (count + 1)
        exact ⟨left, hleft, Nat.le_of_succ_le hle⟩
      · rw [htaken]
        exact ih hlength.2 hwhole.2 count

end Copies

theorem trim_copies {word : Text} (hblank : word.allBlank = false)
    (hhead : ∀ c ∈ word.head?, isBlank c = false) (gap : Text) (count : Nat) :
    trim (copies word gap word.trim count) = copies word gap word.trim count := by
  have hcore : word.trim ≠ [] := by
    rw [Ne, trim_eq_nil_iff, hblank]
    exact Bool.false_ne_true
  obtain ⟨others, hothers⟩ := @suffix_copies word gap word.trim count
  apply trim_eq_self
  · exact isBlank_head?_copies (ne_nil_of_not_allBlank hblank) hhead (isBlank_head?_trim word) count
  · rw [← hothers, List.getLast?_append_of_ne_nil others hcore]
    exact isBlank_getLast?_trimEnd _

private theorem exists_gap (symbols : List Text) :
    ∃ gap : Text, gap.allBlank = true ∧ gap ≠ [] ∧
      ∀ symbol ∈ symbols, symbol.length ≤ gap.length := by
  refine ⟨List.replicate (symbols.flatten.length + 1) ' ', ?_, List.cons_ne_nil _ _, ?_⟩
  · exact List.all_replicate.trans (by simp; decide)
  · intro symbol hmem
    rw [List.length_replicate]
    exact Nat.le_succ_of_le (List.sublist_flatten_of_mem hmem).length_le

private theorem repeat_succ {α : Type} (step : α → α) (count : Nat) (start : α) :
    (count + 1).repeat step start = count.repeat step (step start) := by
  induction count with
  | zero => rfl
  | succ count ih => exact congrArg step ih

private theorem madeOf_pass_of_isRemnant {language : Language} {line : Text}
    (htrim : line.trim = line)
    (hne : line ≠ []) (hremnant : isRemnant language line = true) :
    MadeOf language.symbols (stripOnce language.remnantSymbols line) := by
  obtain ⟨c, rest, rfl⟩ := List.exists_cons_of_ne_nil hne
  rw [isRemnant, List.isEmpty_iff, htrim, List.length_cons, repeat_succ] at hremnant
  apply madeOf_of_repeat fun symbol => Language.mem_remnantSymbols.mp
  rw [hremnant]
  exact .nil

section Exact

variable {language : Language}
  (hremnant : ∀ line, MadeOf language.symbols line → isRemnant language line = true)
include hremnant

theorem madeOf_trim_symbol {symbol : Text} (hmem : symbol ∈ language.symbols) :
    MadeOf language.symbols symbol.trim :=
  madeOf_trim_of_isRemnant (hremnant symbol (IsPart.symbol hmem).madeOf)

private theorem madeOf_behind_first {before after : List Text} {front rest : Text}
    (hsplit : language.remnantSymbols = before ++ front :: after)
    (hmem : front ++ rest ∈ language.symbols)
    (hhead : ∀ c ∈ (front ++ rest).head?, isBlank c = false)
    (hblank : Text.allBlank (front ++ rest) = false)
    (hbefore : ∀ symbol ∈ before, symbol <+: front ++ rest → symbol = front ++ rest) :
    MadeOf language.symbols rest := by
  obtain ⟨gap, hgap, hgapNe, hlong⟩ := exists_gap language.symbols
  have hremaining : ∀ symbol ∈ before ++ front :: after, symbol ∈ language.symbols := by
    rw [← hsplit]
    exact fun symbol => Language.mem_remnantSymbols.mp
  rw [List.forall_mem_append, List.forall_mem_cons] at hremaining
  obtain ⟨hbeforeMem, -, hafterMem⟩ := hremaining
  -- As many copies as symbols come before, and one more for the symbol itself.
  obtain ⟨left, hleft, hpositive⟩ := exists_stripOnce_copies (ne_nil_of_not_allBlank hblank) hhead
    (isBlank_head?_trim (front ++ rest)) hgap
    (fun symbol hsymbol => hlong symbol (hbeforeMem symbol hsymbol)) hbefore 1
  obtain ⟨left, rfl⟩ := Nat.exists_eq_add_of_le' hpositive
  have hpass := madeOf_pass_of_isRemnant (trim_copies hblank hhead gap (before.length + 1))
    (fun hempty => ne_nil_of_not_allBlank hblank (List.append_eq_nil_iff.mp hempty).1)
    (hremnant _ (madeOf_copies (IsPart.symbol hmem).madeOf hgap
      (madeOf_trim_symbol hremnant hmem) _))
  rw [hsplit, stripOnce_append, hleft, stripOnce_cons, copies, List.append_assoc,
    strip_append] at hpass
  obtain ⟨blanks, hblanks, hrest⟩ :=
    (madeOf_of_stripOnce hafterMem hpass).of_trimStart.of_gap hgap hlong hgapNe
  exact hrest.of_append_blank (fun symbol => madeOf_trim_symbol hremnant) hblanks

private theorem exists_first_of_exact {front rest : Text} (hmem : front ++ rest ∈ language.symbols)
    (hblank : Text.allBlank (front ++ rest) = false)
    (hhead : ∀ c ∈ (front ++ rest).head?, isBlank c = false) (hfront : front ∈ language.symbols)
    (hrest : rest ≠ []) :
    ∃ middle behind, rest = middle ++ behind ∧ front ++ middle ∈ language.symbols ∧
      behind ≠ [] ∧ MadeOf language.symbols behind := by
  have hproper : front <+: front ++ rest ∧ front ≠ front ++ rest := by
    refine ⟨List.prefix_append front rest, fun heq => hrest ?_⟩
    exact List.append_cancel_left (heq.symm.trans (List.append_nil front).symm)
  have hlisted := Language.mem_remnantSymbols.mpr hfront
  obtain ⟨before, first, after, hsplit, hfirst, hbefore⟩ :=
    @exists_first _ (fun symbol => symbol <+: front ++ rest ∧ symbol ≠ front ++ rest) _ _ hlisted
      hproper
  -- Longer symbols come first, so that `front` does not stand before the one that is found.
  have hlonger : byteLength front ≤ byteLength first := by
    have hsorted := Language.pairwise_remnantSymbols language
    rw [hsplit] at hsorted hlisted
    rcases List.mem_append.mp hlisted with hearlier | hlater
    · exact absurd hproper (hbefore front hearlier)
    · rcases List.mem_cons.mp hlater with rfl | hlater
      · exact Nat.le_refl _
      · exact (List.pairwise_cons.mp (List.pairwise_append.mp hsorted).2.1).1 front hlater
  obtain ⟨⟨behind, hbehind⟩, hne⟩ := hfirst
  obtain ⟨middle, rfl⟩ := prefix_of_byteLength_le hbehind.symm hlonger
  have hrestSplit : rest = middle ++ behind := by
    rw [List.append_assoc] at hbehind
    exact (List.append_cancel_left hbehind).symm
  have hmemFirst : front ++ middle ∈ language.symbols := by
    apply Language.mem_remnantSymbols.mp
    rw [hsplit]
    exact List.mem_append_right _ List.mem_cons_self
  refine ⟨middle, behind, hrestSplit, hmemFirst, ?_, ?_⟩
  · rintro rfl
    exact hne (by rw [← hbehind, List.append_nil])
  · rw [← hbehind] at hmem hhead hblank
    apply madeOf_behind_first hremnant hsplit hmem hhead hblank
    rw [hbehind]
    intro symbol hsymbol hstarts
    by_contra hother
    exact hbefore symbol hsymbol ⟨hstarts, hother⟩

private theorem splits_of_exact (hwords : ∀ symbol ∈ language.symbols, symbol.allBlank = false)
    {symbol : Text} (hmem : symbol ∈ language.symbols) : Splits language.symbols symbol := by
  have hnil : [] ∉ language.symbols := by
    intro hempty
    have hword := hwords [] hempty
    contradiction
  have htrim : ∀ symbol ∈ language.symbols, MadeOf language.symbols symbol.trim :=
    fun symbol => madeOf_trim_symbol hremnant
  induction hlength : symbol.length using Nat.strongRecOn generalizing symbol with
  | ind length ih =>
      intro front hfront rest hsplit
      subst hsplit
      obtain ⟨c, tail, hword⟩ := List.exists_cons_of_ne_nil fun hempty => hnil (hempty ▸ hmem)
      cases hblank : isBlank c with
      | true =>
          obtain ⟨d, front, rfl⟩ := List.exists_cons_of_ne_nil fun hempty => hnil (hempty ▸ hfront)
          obtain ⟨rfl, rfl⟩ := List.cons.inj hword
          apply (madeOf_tail htrim hfront hblank).cancel hnil htrim (madeOf_tail htrim hmem hblank)
          intro symbol hsymbol hle
          exact ih symbol.length (by rw [← hlength]; exact Nat.lt_succ_of_le hle) hsymbol rfl
      | false =>
          have hhead : ∀ d ∈ (front ++ rest).head?, isBlank d = false := by
            rw [hword]
            simpa using hblank
          rcases eq_or_ne rest [] with rfl | hrest
          · exact .nil
          · obtain ⟨middle, behind, rfl, hlonger, hne, hbehind⟩ :=
              exists_first_of_exact hremnant hmem (hwords _ hmem) hhead hfront hrest
            have hshorter : (front ++ middle).length < length := by
              have hpositive := List.length_pos_iff.mpr hne
              rw [← List.append_assoc, List.length_append] at hlength
              omega
            exact (ih _ hshorter hlonger rfl front hfront middle rfl).trans hbehind

end Exact

/-- Symbols without blanks around them are closed if those in front of them leave symbols. -/
theorem closed_of_parted {symbols : List Text}
    (htrim : ∀ symbol ∈ symbols, trim symbol = symbol)
    (hparted : ∀ symbol ∈ symbols, ∀ front ∈ symbols, ∀ rest ∈ front.isPrefixOf? symbol,
      rest = [] ∨ rest ∈ symbols) : Closed symbols := by
  refine ⟨fun symbol hmem => ?_, fun symbol hmem front hfront rest hsplit => ?_⟩
  · rw [htrim symbol hmem]
    exact (IsPart.symbol hmem).madeOf
  · have hrest := List.isPrefixOf?_eq_some_iff_append_eq.mpr hsplit.symm
    rcases hparted symbol hmem front hfront rest hrest with rfl | hrest
    · exact .nil
    · exact (IsPart.symbol hrest).madeOf

private theorem closed_of_mem_builtinLanguages {language : Language}
    (hmem : language ∈ LanguageTable.builtinLanguages) : Closed language.symbols := by
  have hlanguages : ∀ language ∈ LanguageTable.builtinLanguages,
      (∀ symbol ∈ language.symbols, symbol.trim = symbol) ∧
        ∀ symbol ∈ language.symbols, ∀ front ∈ language.symbols,
          ∀ rest ∈ front.isPrefixOf? symbol, rest = [] ∨ rest ∈ language.symbols := by
    decide +kernel
  exact closed_of_parted (hlanguages language hmem).1 (hlanguages language hmem).2

/-- Where a language can be used, no line but those made of symbols and blanks is left of a marker.
All of them are exactly if the symbols are closed. -/
theorem isRemnant_iff_madeOf_iff_closed (language : Language) (hvalid : language.fault? = none) :
    (∀ line, isRemnant language line = true → MadeOf language.symbols line) ∧
      ((∀ line, isRemnant language line = true ↔ MadeOf language.symbols line) ↔
        Closed language.symbols) := by
  have hwords := (Language.fault?_eq_none_iff.mp hvalid).2
  refine ⟨fun line hremnant => (madeOf_trim_of_isRemnant hremnant).of_trim, ?_, ?_⟩
  · intro hexact
    have hremnant : ∀ line, MadeOf language.symbols line → isRemnant language line = true :=
      fun line => (hexact line).mpr
    exact ⟨fun symbol => madeOf_trim_symbol hremnant, fun symbol => splits_of_exact hremnant hwords⟩
  · intro hclosed line
    have hnil : [] ∉ language.symbols := fun hempty => ne_nil_of_not_allBlank (hwords [] hempty) rfl
    exact ⟨fun hremnant => (madeOf_trim_of_isRemnant hremnant).of_trim,
      isRemnant_of_madeOf hclosed hnil⟩

theorem isRemnant_iff_madeOf_python :
    LanguageTable.python.fault? = none ∧ Closed LanguageTable.python.symbols ∧
      ∀ line, isRemnant LanguageTable.python line = true ↔
        MadeOf LanguageTable.python.symbols line :=
  have hvalid : LanguageTable.python.fault? = none := by decide +kernel
  have hclosed := @closed_of_mem_builtinLanguages LanguageTable.python (by decide)
  ⟨hvalid, hclosed, (isRemnant_iff_madeOf_iff_closed LanguageTable.python hvalid).2.mpr hclosed⟩

/-- Block comments with a dash at the end, line comments of two, and a dash for decoration. -/
def dashed : Language where
  extension := "hs".toList
  blockStart := "\x7b-".toList
  blockEnd := "-\x7d".toList
  lineComment := some "--".toList
  noise := ["-".toList]

/-- Two dashes are taken off the front where a dash and the end of a block comment are left. -/
theorem not_isRemnant_dashed :
    dashed.fault? = none ∧ MadeOf dashed.symbols "---\x7d".toList ∧
      isRemnant dashed "---\x7d".toList = false := by
  have hdecoration : dashed.decorationSymbols = ["--".toList, "-".toList] := by
    rw [Language.decorationSymbols, Language.arrange, List.mergeSort_of_pairwise (by decide)]
    decide
  have hsymbols : dashed.remnantSymbols =
      ["\x7b-".toList, "-\x7d".toList, "--".toList, "-".toList] := by
    rw [Language.remnantSymbols, hdecoration, Language.arrange,
      List.mergeSort_of_pairwise (by decide)]
    decide
  refine ⟨by decide +kernel, ?_, by rw [isRemnant, hsymbols]; decide +kernel⟩
  have hline : IsPart dashed.symbols "--".toList := .symbol (by decide +kernel)
  have hend : IsPart dashed.symbols "-\x7d".toList := .symbol (by decide +kernel)
  exact .append hline hend.madeOf

end Docblock.Snippet
