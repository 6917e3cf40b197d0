import Docblock.Proofs.Text.Tiling
import Mathlib.Data.List.Chain

namespace Docblock.Token

/-! The words of a text are its maximal runs without a blank.  Main statement: a list of tokens
that cuts the text at blanks, each token at its place, is the list of its words. -/

/-- Blanks and words in turn, from an offset on, with the tokens of the words. -/
inductive Written : Nat → Text → List Token → Prop
  | last {gap : Text} (offset : Nat) (hgap : gap.allBlank = true) : Written offset gap []
  | word {gap word rest : Text} {tokens : List Token} (offset : Nat)
      (hgap : gap.allBlank = true) (hne : word ≠ []) (hword : word.any isBlank = false)
      (hend : rest.head?.all isBlank = true)
      (hrest : Written (offset + gap.byteLength + word.byteLength) rest tokens) :
      Written offset (gap ++ (word ++ rest)) (ofWord (offset + gap.byteLength) word :: tokens)

private theorem Written.cons_blank {c : Char} {text : Text} {tokens : List Token} {offset : Nat}
    (hblank : isBlank c = true) (hwritten : Written (offset + c.utf8Size) text tokens) :
    Written offset (c :: text) tokens := by
  have hextend : ∀ gap : Text, gap.allBlank = true → Text.allBlank (c :: gap) = true := by
    intro gap hgap
    exact List.all_eq_true.mpr (List.forall_mem_cons.mpr ⟨hblank, List.all_eq_true.mp hgap⟩)
  cases hwritten with
  | last _ hgap => exact .last offset (hextend _ hgap)
  | @word gap word rest tokens _ hgap hne hword hend hrest =>
      rw [Nat.add_assoc offset, ← Text.byteLength_cons] at hrest ⊢
      exact .word offset (hextend gap hgap) hne hword hend hrest

theorem written_scan (offset : Nat) (text : Text) : Written offset text (scan offset text) := by
  induction text using scan_induction generalizing offset with
  | nil => exact .last offset rfl
  | blank c rest hblank ih =>
      rw [scan_cons_blank hblank]
      exact (ih _).cons_blank hblank
  | last word hne hword =>
      have hlast : Written offset ([] ++ (word ++ [])) [ofWord offset word] :=
        .word offset rfl hne hword rfl (.last _ rfl)
      rw [scan_word hne hword]
      rwa [List.nil_append, List.append_nil] at hlast
  | word word c rest hne hword hblank ih =>
      rw [scan_append (apart_cons_blank hblank word rest), scan_word hne hword,
        scan_cons_blank hblank]
      exact @Written.word [] _ _ _ offset rfl hne hword (by simpa using hblank)
        ((ih _).cons_blank hblank)

private theorem scan_of_allBlank {text : Text} (hblank : text.allBlank = true) (offset : Nat) :
    scan offset text = [] := by
  induction text generalizing offset with
  | nil => rfl
  | cons c rest ih =>
      rw [Text.allBlank, List.all_cons, Bool.and_eq_true] at hblank
      rw [scan_cons_blank hblank.1]
      exact ih hblank.2 _

theorem getLast?_of_allBlank {text : Text} (hblank : text.allBlank = true) :
    text.getLast?.all isBlank = true := by
  refine (Option.all_eq_true_iff_get _ _).mpr fun hsome => ?_
  exact List.all_eq_true.mp hblank _ (List.mem_of_getLast? (Option.some_get hsome).symm)

theorem Written.eq_scan {offset : Nat} {text : Text} {tokens : List Token}
    (hwritten : Written offset text tokens) : tokens = scan offset text := by
  induction hwritten with
  | last offset hgap => exact (scan_of_allBlank hgap offset).symm
  | @word gap word rest tokens offset hgap hne hword hend hrest ih =>
      rw [scan_append (.inl (getLast?_of_allBlank hgap)), scan_append (.inr hend),
        scan_of_allBlank hgap, scan_word hne hword, ih]
      rfl

/-- What lies in front of tokens, between them and behind them, from one offset to another. -/
def gaps (stop : Nat) : Nat → List Token → List ByteRange
  | start, [] => [⟨start, stop⟩]
  | start, token :: rest => ⟨start, token.range.start⟩ :: gaps stop token.range.stop rest

/-- A token that is a run of a text without a blank, and covers the bytes of that run. -/
structure IsRun (text : Text) (token : Token) : Prop where
  ne_nil : token.text ≠ []
  no_blank : token.text.any isBlank = false
  fits : token.range.Fits text
  slice_eq : text.slice token.range = token.text
  stop_eq : token.range.stop = token.range.start + token.text.byteLength

/-- Tokens that cut a text, from an offset on, into runs without a blank, with nothing but blanks
around them and at least one blank between two of them. -/
structure Cuts (text : Text) (start : Nat) (tokens : List Token) : Prop where
  isRun : ∀ token ∈ tokens, IsRun text token
  apart : tokens.IsChain fun left right => left.range.stop < right.range.start ∧
    text.slice ⟨left.range.stop, right.range.start⟩ ≠ []
  blank : ∀ gap ∈ gaps text.byteLength start tokens, (text.slice gap).allBlank = true

private theorem IsRun.exists_split {before text : Text} {token : Token}
    (hrun : IsRun (before ++ text) token) (hstart : before.byteLength ≤ token.range.start) :
    ∃ gap rest, text = gap ++ (token.text ++ rest) ∧
      token = ofWord (before.byteLength + gap.byteLength) token.text := by
  obtain ⟨front, behind, hfront, hstartEq⟩ := hrun.fits.start_boundary
  obtain ⟨gap, rfl⟩ := Text.prefix_of_byteLength_le hfront (hstartEq ▸ hstart)
  obtain ⟨through, rest, hthrough, hstopEq⟩ := hrun.fits.stop_boundary
  obtain ⟨word, rfl⟩ := Text.prefix_of_byteLength_le (hfront.symm.trans hthrough)
    (by rw [← hstartEq, ← hstopEq]; exact hrun.fits.start_le_stop)
  have hrange : token.range = ⟨(before ++ gap).byteLength,
      (before ++ gap).byteLength + Text.byteLength word⟩ := by
    rw [← Text.byteLength_append, ← hstopEq, ← hstartEq]
  have hword : word = token.text := by
    rw [← hrun.slice_eq, hthrough, hrange, Text.slice_append]
  subst hword
  refine ⟨gap, rest, ?_, ?_⟩
  · simpa using hthrough
  · rw [ofWord, ← Text.byteLength_append, ← hrange]

theorem Written.head? {offset : Nat} {text : Text} {tokens : List Token}
    (hwritten : Written offset text tokens)
    (hfirst : ∀ token ∈ tokens.head?, offset < token.range.start) :
    text.head?.all isBlank = true := by
  cases hwritten with
  | last _ hgap =>
      cases text with
      | nil => rfl
      | cons c rest => exact (Bool.and_eq_true_iff.mp hgap).1
  | @word gap word rest tokens _ hgap hne hword hend hrest =>
      cases gap with
      | nil => exact absurd (hfirst _ rfl) (Nat.lt_irrefl _)
      | cons c gap => exact (Bool.and_eq_true_iff.mp hgap).1

theorem Cuts.tail {text : Text} {start : Nat} {token : Token} {tokens : List Token}
    (hcuts : Cuts text start (token :: tokens)) : Cuts text token.range.stop tokens where
  isRun next hnext := hcuts.isRun next (List.mem_cons_of_mem token hnext)
  apart := hcuts.apart.tail
  blank gap hgap := hcuts.blank gap (List.mem_cons_of_mem _ hgap)

private theorem Cuts.stop_lt {text : Text} {start : Nat} {token : Token} {tokens : List Token}
    (hcuts : Cuts text start (token :: tokens)) :
    ∀ next ∈ tokens.head?, token.range.stop < next.range.start := by
  intro next hnext
  obtain ⟨tokens, rfl⟩ := List.head?_eq_some_iff.mp hnext
  exact (List.isChain_cons_cons.mp hcuts.apart).1.1

theorem Cuts.written {before text : Text} {tokens : List Token}
    (hcuts : Cuts (before ++ text) before.byteLength tokens)
    (hfirst : ∀ token ∈ tokens.head?, before.byteLength ≤ token.range.start) :
    Written before.byteLength text tokens := by
  induction tokens generalizing before text with
  | nil =>
      have hblank := hcuts.blank _ List.mem_cons_self
      have hslice := Text.slice_append before text []
      rw [List.append_nil, ← Text.byteLength_append] at hslice
      rw [hslice] at hblank
      exact .last _ hblank
  | cons token tokens ih =>
      have hrun := hcuts.isRun token List.mem_cons_self
      obtain ⟨gap, rest, rfl, htoken⟩ := hrun.exists_split (hfirst token rfl)
      have hgap : gap.allBlank = true := by
        have hblank := hcuts.blank _ List.mem_cons_self
        have hslice := Text.slice_append before gap (token.text ++ rest)
        rw [List.append_assoc] at hslice
        rw [htoken, ofWord] at hblank
        exact hslice ▸ hblank
      have hstop : token.range.stop = (before ++ gap ++ token.text).byteLength := by
        rw [htoken, ofWord, Text.byteLength_append, Text.byteLength_append]
      have hrest : Written (before ++ gap ++ token.text).byteLength rest tokens := by
        have htail := hcuts.tail
        rw [hstop, ← List.append_assoc, ← List.append_assoc] at htail
        refine ih htail fun next hnext => ?_
        rw [← hstop]
        exact Nat.le_of_lt (hcuts.stop_lt next hnext)
      have hend : rest.head?.all isBlank = true := by
        apply hrest.head?
        rw [← hstop]
        exact hcuts.stop_lt
      rw [htoken]
      refine .word _ hgap hrun.ne_nil hrun.no_blank hend ?_
      rwa [Text.byteLength_append, Text.byteLength_append] at hrest

private theorem isRun_ofWord {before word : Text} (hne : word ≠ [])
    (hword : word.any isBlank = false)
    (after : Text) : IsRun (before ++ (word ++ after)) (ofWord before.byteLength word) where
  ne_nil := hne
  no_blank := hword
  fits := by
    apply ByteRange.fits_of_boundaries (Nat.le_add_right _ _)
    · exact ⟨before, word ++ after, rfl, rfl⟩
    · exact ⟨before ++ word, after, (List.append_assoc _ _ _).symm,
        (Text.byteLength_append _ _).symm⟩
  slice_eq := by
    rw [← List.append_assoc]
    exact Text.slice_append before word after
  stop_eq := rfl

private theorem Written.blank_before {before text : Text} {tokens : List Token}
    (hwritten : Written before.byteLength text tokens) (hend : text.head?.all isBlank = true) :
    ∀ next ∈ tokens.head?, before.byteLength < next.range.start ∧
      (before ++ text).slice ⟨before.byteLength, next.range.start⟩ ≠ [] := by
  intro next hnext
  cases hwritten with
  | last => contradiction
  | @word gap word rest tokens _ hgap hne hword _ hrest =>
      obtain rfl := Option.some.inj hnext
      cases gap with
      | nil =>
          obtain ⟨c, word, rfl⟩ := List.exists_cons_of_ne_nil hne
          have hc : isBlank c = true := hend
          simp [hc] at hword
      | cons c gap =>
          have hpositive := c.utf8Size_pos
          have hslice := Text.slice_append before (c :: gap) (word ++ rest)
          rw [List.append_assoc] at hslice
          constructor
          · simp only [ofWord, Text.byteLength_cons]
            omega
          · rw [ofWord, hslice]
            exact List.cons_ne_nil c gap

theorem Written.cuts {offset : Nat} {text : Text} {tokens : List Token}
    (hwritten : Written offset text tokens) {before : Text} (hoffset : offset = before.byteLength) :
    Cuts (before ++ text) offset tokens := by
  induction hwritten generalizing before with
  | @last gap offset hgap =>
      subst hoffset
      constructor
      · exact fun _ hmem => absurd hmem List.not_mem_nil
      · exact .nil
      · intro range hrange
        obtain rfl := List.mem_singleton.mp hrange
        have hslice := Text.slice_append before gap []
        rw [List.append_nil, ← Text.byteLength_append] at hslice
        rwa [hslice]
  | @word gap word rest tokens offset hgap hne hword hend hrest ih =>
      subst hoffset
      rw [← Text.byteLength_append, ← Text.byteLength_append] at hrest ih
      have hrun := @isRun_ofWord (before ++ gap) word hne hword rest
      have hcuts := ih rfl
      have hnext := hrest.blank_before hend
      have hblank : ((before ++ gap ++ (word ++ rest)).slice
          ⟨before.byteLength, (before ++ gap).byteLength⟩).allBlank = true := by
        rwa [Text.byteLength_append, Text.slice_append]
      rw [← Text.byteLength_append, ← List.append_assoc]
      rw [List.append_assoc (before ++ gap)] at hcuts hnext
      rw [Text.byteLength_append] at hcuts hnext
      constructor
      · exact List.forall_mem_cons.mpr ⟨hrun, hcuts.isRun⟩
      · exact hcuts.apart.cons hnext
      · exact List.forall_mem_cons.mpr ⟨hblank, hcuts.blank⟩

/-- A run of a text without a blank that neither neighbour can be added to. -/
def IsMaximalRun (text : Text) (offset : Nat) (token : Token) : Prop :=
  token.text ≠ [] ∧ token.text.any isBlank = false ∧
    ∃ before after, text = before ++ (token.text ++ after) ∧
      token = ofWord (offset + before.byteLength) token.text ∧
      before.getLast?.all isBlank = true ∧ after.head?.all isBlank = true

private theorem Written.isMaximalRun {offset : Nat} {text : Text} {tokens : List Token}
    (hwritten : Written offset text tokens) {token : Token} (hmem : token ∈ tokens) :
    IsMaximalRun text offset token := by
  induction hwritten with
  | last => contradiction
  | @word gap word rest tokens offset hgap hne hword hend hrest ih =>
      rcases List.mem_cons.mp hmem with rfl | hlater
      · exact ⟨hne, hword, gap, rest, rfl, rfl, getLast?_of_allBlank hgap, hend⟩
      · obtain ⟨hne, hword, before, after, rfl, htoken, hbefore, hafter⟩ := ih hlater
        refine ⟨hne, hword, gap ++ (word ++ before), after, by simp, ?_, ?_, hafter⟩
        · rwa [Text.byteLength_append, Text.byteLength_append, ← Nat.add_assoc, ← Nat.add_assoc]
        · -- A word that stood right behind another one would begin with a blank.
          rcases List.eq_nil_or_concat' before with rfl | ⟨before, c, rfl⟩
          · obtain ⟨c, later, hcons⟩ := List.exists_cons_of_ne_nil hne
            rw [hcons] at hword hend
            have hc : isBlank c = true := hend
            simp [hc] at hword
          · rw [← List.append_assoc, ← List.append_assoc, List.getLast?_concat]
            rwa [List.getLast?_concat] at hbefore

private theorem mem_all_iff {text : Text} {token : Token} :
    token ∈ all text ↔ IsMaximalRun text 0 token := by
  constructor
  · exact (written_scan 0 text).isMaximalRun
  · rintro ⟨hne, hword, before, after, rfl, htoken, hbefore, hafter⟩
    rw [all, scan_append (.inl hbefore), scan_append (.inr hafter), scan_word hne hword, ← htoken]
    simp

/-- The words of a text are its maximal runs without a blank, and of all lists of tokens theirs is
the one that cuts the text. -/
theorem all_is_only_cut (text : Text) :
    (∀ token, token ∈ all text ↔ IsMaximalRun text 0 token) ∧
      ∀ tokens, Cuts text 0 tokens ↔ tokens = all text := by
  refine ⟨fun _ => mem_all_iff, fun tokens => ⟨fun hcuts => ?_, ?_⟩⟩
  · exact (@Cuts.written [] text tokens hcuts fun _ _ => Nat.zero_le _).eq_scan
  · rintro rfl
    exact @Written.cuts _ _ _ (written_scan 0 text) [] rfl

end Docblock.Token
