import Docblock.Text.Basic

namespace Docblock.Text

/-! Replacement meets a text as a row of matches and of characters where no match
begins. -/

theorem replace_nil (pattern replacement : Text) : replace [] pattern replacement = [] := rfl

theorem replace_append_of_ne_nil {pattern : Text} (hpattern : pattern ≠ [])
    (replacement rest : Text) :
    replace (pattern ++ rest) pattern replacement =
      replacement ++ replace rest pattern replacement := by
  cases pattern with
  | nil => contradiction
  | cons head tail =>
      have hbegins : (head :: tail).isPrefixOf (head :: (tail ++ rest)) = true := by
        simp [List.isPrefixOf_iff_prefix]
      rw [List.cons_append, replace, replaceAfter, if_pos hbegins, replaceAfter_eq_drop]
      simp

theorem replace_cons_of_unmatched {pattern : Text} {c : Char} {rest : Text}
    (hbegins : ¬ pattern <+: c :: rest) (replacement : Text) :
    replace (c :: rest) pattern replacement = c :: replace rest pattern replacement := by
  rw [replace, replaceAfter, if_neg (by simpa [List.isPrefixOf_iff_prefix] using hbegins), replace]

theorem replace_induction {pattern : Text} (hpattern : pattern ≠ []) {motive : Text → Prop}
    (nil : motive [])
    (matched : ∀ rest, motive rest → motive (pattern ++ rest))
    (unmatched : ∀ c rest, ¬ pattern <+: c :: rest → motive rest → motive (c :: rest))
    (text : Text) : motive text := by
  induction hlength : text.length using Nat.strongRecOn generalizing text with
  | ind length ih =>
      by_cases hbegins : pattern <+: text
      · obtain ⟨rest, rfl⟩ := hbegins
        have hpositive := List.length_pos_iff.mpr hpattern
        rw [List.length_append] at hlength
        exact matched rest (ih rest.length (by omega) rest rfl)
      · cases text with
        | nil => exact nil
        | cons c rest =>
            rw [List.length_cons] at hlength
            exact unmatched c rest hbegins (ih rest.length (by omega) rest rfl)

theorem replace_eq_self {text pattern : Text} (hpattern : ¬ pattern <:+: text)
    (replacement : Text) : replace text pattern replacement = text := by
  induction text with
  | nil => rfl
  | cons c rest ih =>
      rw [List.infix_cons_iff, not_or] at hpattern
      rw [replace_cons_of_unmatched hpattern.1, ih hpattern.2]

theorem replace_ne_nil {text pattern replacement : Text} (hreplacement : replacement ≠ [])
    (htext : text ≠ []) : replace text pattern replacement ≠ [] := by
  obtain ⟨c, rest, rfl⟩ := List.exists_cons_of_ne_nil htext
  rw [replace, replaceAfter]
  split
  · exact List.append_ne_nil_of_left_ne_nil hreplacement _
  · exact List.cons_ne_nil _ _

private theorem prefix_of_prefix_append_cons {pattern left right : Text} {separator : Char}
    (hseparator : separator ∉ pattern) (hbegins : pattern <+: left ++ separator :: right) :
    pattern <+: left := by
  have hleft : left ++ [separator] <+: left ++ separator :: right := by simp
  rcases List.prefix_or_prefix_of_prefix hbegins hleft with hshorter | hlonger
  · rcases List.prefix_concat_iff.mp hshorter with rfl | hshorter
    · simp at hseparator
    · exact hshorter
  · exact absurd (hlonger.subset (by simp)) hseparator

theorem replace_append_cons {pattern : Text} (hpattern : pattern ≠ []) {separator : Char}
    (hseparator : separator ∉ pattern) (replacement left right : Text) :
    replace (left ++ separator :: right) pattern replacement =
      replace left pattern replacement ++ separator :: replace right pattern replacement := by
  induction left using replace_induction hpattern with
  | nil =>
      refine replace_cons_of_unmatched ?_ replacement
      intro hbegins
      exact hpattern (List.prefix_nil.mp (prefix_of_prefix_append_cons hseparator hbegins))
  | matched rest ih =>
      rw [List.append_assoc, replace_append_of_ne_nil hpattern, replace_append_of_ne_nil hpattern,
        ih, List.append_assoc]
  | unmatched c rest hbegins ih =>
      have hlonger : ¬ pattern <+: c :: (rest ++ separator :: right) := fun hlonger =>
        hbegins (prefix_of_prefix_append_cons hseparator hlonger)
      rw [List.cons_append, replace_cons_of_unmatched hlonger, replace_cons_of_unmatched hbegins,
        ih, List.cons_append]

theorem replace_append_of_head_not_mem {pattern lead : Text} {head : Char} {tail : Text}
    (hpattern : pattern = head :: tail) (hhead : head ∉ lead) (replacement text : Text) :
    replace (lead ++ text) pattern replacement = lead ++ replace text pattern replacement := by
  induction lead with
  | nil => rfl
  | cons c rest ih =>
      rw [List.mem_cons, not_or] at hhead
      have hbegins : ¬ pattern <+: c :: (rest ++ text) := by
        rw [hpattern, List.cons_prefix_cons]
        exact fun h => hhead.1 h.1
      rw [List.cons_append, replace_cons_of_unmatched hbegins, ih hhead.2, List.cons_append]

theorem not_mem_replace {pattern : Text} (hpattern : pattern ≠ []) {c : Char}
    {replacement text : Text} (hreplacement : c ∉ replacement) (htext : c ∉ text) :
    c ∉ replace text pattern replacement := by
  induction text using replace_induction hpattern with
  | nil => exact htext
  | matched rest ih =>
      rw [List.mem_append, not_or] at htext
      rw [replace_append_of_ne_nil hpattern, List.mem_append, not_or]
      exact ⟨hreplacement, ih htext.2⟩
  | unmatched first rest hunmatched ih =>
      rw [List.mem_cons, not_or] at htext
      rw [replace_cons_of_unmatched hunmatched, List.mem_cons, not_or]
      exact ⟨htext.1, ih htext.2⟩

/-! Escaping puts a character in front of every match.  The character stands in no match,
so the matches that are left over, and all other parts without it, come from the text. -/

section Escape

variable {mark : Text} {escape : Char}

theorem prefix_of_prefix_escaped (hmark : mark ≠ []) {part : Text} (hpart : escape ∉ part)
    {text : Text} (hbegins : part <+: replace text mark (escape :: mark)) : part <+: text := by
  induction text using replace_induction hmark generalizing part with
  | nil => exact hbegins
  | matched rest ih =>
      rw [replace_append_of_ne_nil hmark, List.cons_append, List.prefix_cons_iff] at hbegins
      rcases hbegins with rfl | ⟨tail, rfl, -⟩
      · exact List.nil_prefix
      · simp at hpart
  | unmatched c rest hunmatched ih =>
      rw [replace_cons_of_unmatched hunmatched, List.prefix_cons_iff] at hbegins
      rcases hbegins with rfl | ⟨tail, rfl, htail⟩
      · exact List.nil_prefix
      · rw [List.mem_cons, not_or] at hpart
        exact List.cons_prefix_cons.mpr ⟨rfl, ih hpart.2 htail⟩

theorem not_prefix_escaped (hmark : mark ≠ []) (hescape : escape ∉ mark) (text : Text) :
    ¬ mark <+: replace text mark (escape :: mark) := by
  intro hbegins
  obtain ⟨rest, rfl⟩ := prefix_of_prefix_escaped hmark hescape hbegins
  rw [replace_append_of_ne_nil hmark, List.cons_append, List.prefix_cons_iff] at hbegins
  rcases hbegins with hnil | ⟨tail, hcons, -⟩
  · exact hmark hnil
  · simp [hcons] at hescape

theorem replace_replace_escaped (hmark : mark ≠ []) (hescape : escape ∉ mark) (text : Text) :
    replace (replace text mark (escape :: mark)) (escape :: mark) mark = text := by
  induction text using replace_induction hmark with
  | nil => rfl
  | matched rest ih =>
      rw [replace_append_of_ne_nil hmark, replace_append_of_ne_nil (by simp), ih]
  | unmatched c rest hunmatched ih =>
      have hbegins : ¬ escape :: mark <+: c :: replace rest mark (escape :: mark) := by
        rw [List.cons_prefix_cons]
        exact fun h => not_prefix_escaped hmark hescape rest h.2
      rw [replace_cons_of_unmatched hunmatched, replace_cons_of_unmatched hbegins, ih]

theorem prefix_append_escaped (hmark : mark ≠ []) {part : Text} (hpart : escape ∉ part)
    (lead : Text) {text : Text} (hbegins : part <+: lead ++ replace text mark (escape :: mark)) :
    part <+: lead ++ text := by
  induction lead generalizing part with
  | nil => exact prefix_of_prefix_escaped hmark hpart hbegins
  | cons c lead ih =>
      rw [List.cons_append, List.prefix_cons_iff] at hbegins
      rcases hbegins with rfl | ⟨tail, rfl, htail⟩
      · exact List.nil_prefix
      · rw [List.mem_cons, not_or] at hpart
        exact List.cons_prefix_cons.mpr ⟨rfl, ih hpart.2 htail⟩

private theorem infix_append_escaped (hmark : mark ≠ []) {part : Text} (hpart : escape ∉ part)
    (lead : Text) {text : Text}
    (hwithin : part <:+: replace text mark (escape :: mark) → part <:+: text)
    (hlead : part <:+: lead ++ replace text mark (escape :: mark)) :
    part <:+: lead ++ text := by
  induction lead with
  | nil => exact hwithin hlead
  | cons c lead ih =>
      rw [List.cons_append, List.infix_cons_iff] at hlead ⊢
      rcases hlead with hbegins | hlead
      · exact .inl (prefix_append_escaped hmark hpart (c :: lead) hbegins)
      · exact .inr (ih hlead)

theorem infix_of_infix_escaped (hmark : mark ≠ []) {part : Text} (hpart : escape ∉ part)
    (hne : part ≠ []) {text : Text} (hwithin : part <:+: replace text mark (escape :: mark)) :
    part <:+: text := by
  induction text using replace_induction hmark with
  | nil => exact hwithin
  | matched rest ih =>
      rw [replace_append_of_ne_nil hmark, List.cons_append, List.infix_cons_iff] at hwithin
      rcases hwithin with hbegins | hwithin
      · rcases List.prefix_cons_iff.mp hbegins with hnil | ⟨tail, rfl, -⟩
        · exact absurd hnil hne
        · simp at hpart
      · exact infix_append_escaped hmark hpart mark ih hwithin
  | unmatched c rest hunmatched ih =>
      rw [replace_cons_of_unmatched hunmatched] at hwithin
      exact infix_append_escaped hmark hpart [c] ih hwithin

private theorem cons_infix_of_cons_infix_append {head : Char} {part lead text : Text}
    (hhead : head ∉ lead) (hwithin : head :: part <:+: lead ++ text) :
    head :: part <:+: text := by
  induction lead with
  | nil => exact hwithin
  | cons c lead ih =>
      rw [List.mem_cons, not_or] at hhead
      rcases List.infix_cons_iff.mp hwithin with hbegins | hwithin
      · exact absurd (List.cons_prefix_cons.mp hbegins).1 hhead.1
      · exact ih hhead.2 hwithin

theorem cons_infix_of_cons_infix_escaped (hmark : mark ≠ []) (hescape : escape ∉ mark)
    {part : Text} (hpart : escape ∉ part) (hshorter : ¬ part <+: mark)
    (hlonger : ¬ mark <+: part) {text : Text}
    (hwithin : escape :: part <:+: replace text mark (escape :: mark)) :
    escape :: part <:+: text := by
  induction text using replace_induction hmark with
  | nil => exact hwithin
  | matched rest ih =>
      rw [replace_append_of_ne_nil hmark, List.cons_append, List.infix_cons_iff] at hwithin
      rcases hwithin with hbegins | hwithin
      · have hboth := (List.cons_prefix_cons.mp hbegins).2
        rcases List.prefix_or_prefix_of_prefix hboth (List.prefix_append mark _) with h | h
        · exact absurd h hshorter
        · exact absurd h hlonger
      · have hrest := ih (cons_infix_of_cons_infix_append hescape hwithin)
        exact hrest.trans (List.suffix_append mark rest).isInfix
  | unmatched c rest hunmatched ih =>
      rw [replace_cons_of_unmatched hunmatched, List.infix_cons_iff] at hwithin
      rcases hwithin with hbegins | hwithin
      · obtain ⟨rfl, htail⟩ := List.cons_prefix_cons.mp hbegins
        exact (List.cons_prefix_cons.mpr
          ⟨rfl, prefix_of_prefix_escaped hmark hpart htail⟩).isInfix
      · exact (ih hwithin).trans (List.suffix_cons c rest).isInfix

theorem getLast?_of_suffix {left right : Text} {last : Char} (hsuffix : left <:+ right)
    (hlast : left.getLast? = some last) : right.getLast? = some last := by
  obtain ⟨lead, rfl⟩ := hsuffix
  simp [List.getLast?_append, hlast]

/-- A mark that begins inside another one and goes on behind it. -/
private theorem exists_border_of_overlap {front overlap after rest : Text} (hfront : front ≠ [])
    (hoverlap : overlap ≠ []) (hmark : mark = front ++ overlap)
    (hrest : mark ++ after = overlap ++ rest) :
    ∃ count, 0 < count ∧ count < mark.length ∧ mark.drop count <+: mark ∧
      mark.take count = front := by
  have hlength : mark.length = front.length + overlap.length := by
    rw [hmark, List.length_append]
  have hpositive := List.length_pos_iff.mpr hoverlap
  refine ⟨front.length, List.length_pos_iff.mpr hfront, by omega, ?_, by rw [hmark, List.take_left]⟩
  have hdrop : mark.drop front.length = overlap := by
    rw [hmark, List.drop_left]
  rw [hdrop]
  exact List.prefix_of_prefix_length_le ⟨rest, hrest.symm⟩ (List.prefix_append mark after)
    (by omega)

/-- Where a mark stands in an escaped text, an escape is in front of it, or it begins
inside another mark. -/
theorem escaped_or_overlap (hmark : mark ≠ []) (hescape : escape ∉ mark)
    {text before after : Text}
    (hsplit : replace text mark (escape :: mark) = before ++ (mark ++ after)) :
    before.getLast? = some escape ∨
      ∃ count, 0 < count ∧ count < mark.length ∧ mark.drop count <+: mark ∧
        mark.take count <:+ before := by
  induction text using replace_induction hmark generalizing before with
  | nil => simp [replace_nil, hmark] at hsplit
  | matched rest ih =>
      rw [replace_append_of_ne_nil hmark, List.cons_append] at hsplit
      cases before with
      | nil =>
          obtain ⟨head, tail, rfl⟩ := List.exists_cons_of_ne_nil hmark
          obtain ⟨rfl, -⟩ := List.cons.inj hsplit
          simp at hescape
      | cons c before =>
          obtain ⟨rfl, htail⟩ := List.cons.inj hsplit
          rcases List.append_eq_append_iff.mp htail with
            ⟨between, rfl, hrest⟩ | ⟨overlap, hoverlap, hrest⟩
          · have hsuffix : between <:+ escape :: (mark ++ between) :=
              (List.suffix_append mark between).trans (List.suffix_cons escape _)
            rcases ih hrest with hlast | ⟨count, hpositive, hcount, hborder, hbetween⟩
            · exact .inl (getLast?_of_suffix hsuffix hlast)
            · exact .inr ⟨count, hpositive, hcount, hborder, hbetween.trans hsuffix⟩
          · -- The mark begins inside the match and ends behind it.
            cases before with
            | nil => exact .inl rfl
            | cons first before =>
                have hne : overlap ≠ [] := by
                  rintro rfl
                  exact not_prefix_escaped hmark hescape rest ⟨after, hrest⟩
                obtain ⟨count, hpositive, hcount, hborder, htake⟩ :=
                  exists_border_of_overlap (List.cons_ne_nil first before) hne hoverlap hrest
                exact .inr ⟨count, hpositive, hcount, hborder, htake ▸ List.suffix_cons escape _⟩
  | unmatched c rest hunmatched ih =>
      rw [replace_cons_of_unmatched hunmatched] at hsplit
      cases before with
      | nil =>
          have hbegins : mark <+: c :: replace rest mark (escape :: mark) := by
            rw [hsplit]
            exact List.prefix_append mark after
          exact absurd (prefix_append_escaped hmark hescape [c] hbegins) hunmatched
      | cons first before =>
          obtain ⟨rfl, htail⟩ := List.cons.inj hsplit
          have hsuffix := List.suffix_cons c before
          rcases ih htail with hlast | ⟨count, hpositive, hcount, hborder, hbefore⟩
          · exact .inl (getLast?_of_suffix hsuffix hlast)
          · exact .inr ⟨count, hpositive, hcount, hborder, hbefore.trans hsuffix⟩

theorem getLast?_escaped (hmark : mark ≠ []) (text : Text) :
    (replace text mark (escape :: mark)).getLast? = text.getLast? := by
  induction text using replace_induction hmark with
  | nil => rfl
  | matched rest ih =>
      rw [replace_append_of_ne_nil hmark, List.getLast?_append, List.getLast?_append, ih]
      obtain ⟨c, mark, rfl⟩ := List.exists_cons_of_ne_nil hmark
      rw [List.getLast?_cons_cons]
  | unmatched c rest hunmatched ih =>
      rw [replace_cons_of_unmatched hunmatched, List.getLast?_cons, List.getLast?_cons, ih]

theorem head?_escaped (hmark : mark ≠ []) {text : Text} {c : Char}
    (hhead : (replace text mark (escape :: mark)).head? = some c) :
    c = escape ∨ text.head? = some c := by
  induction text using replace_induction hmark with
  | nil => exact .inr hhead
  | matched rest ih =>
      rw [replace_append_of_ne_nil hmark, List.cons_append, List.head?_cons] at hhead
      exact .inl (Option.some.inj hhead).symm
  | unmatched d rest hunmatched ih =>
      rw [replace_cons_of_unmatched hunmatched] at hhead
      exact .inr hhead

end Escape

def Shielded (escape mark : Char) (text : Text) : Prop :=
  ∀ before after, text = before ++ mark :: after → before.getLast? = some escape

section Shielded

variable {escape mark : Char}

theorem shielded_of_not_mem {text : Text} (hmem : mark ∉ text) : Shielded escape mark text := by
  intro before after hsplit
  exact absurd (hsplit ▸ by simp) hmem

theorem Shielded.append {left right : Text} (hleft : Shielded escape mark left)
    (hright : Shielded escape mark right) : Shielded escape mark (left ++ right) := by
  intro before after hsplit
  rcases List.append_eq_append_iff.mp hsplit with
    ⟨middle, rfl, hmiddle⟩ | ⟨middle, hmiddle, hafter⟩
  · exact getLast?_of_suffix (List.suffix_append left middle) (hright middle after hmiddle)
  · cases middle with
    | nil => exact absurd (hright [] after hafter.symm) (by simp)
    | cons c middle =>
        obtain ⟨rfl, -⟩ := List.cons.inj hafter
        exact hleft before middle hmiddle

theorem Shielded.of_split {before part after : Text}
    (hshielded : Shielded escape mark (before ++ (part ++ after)))
    (hbefore : before.getLast? ≠ some escape) : Shielded escape mark part := by
  intro inner rest hsplit
  have hlast := hshielded (before ++ inner) (rest ++ after) (by simp [hsplit])
  cases hinner : inner.getLast? with
  | none =>
      rw [List.getLast?_append, hinner, Option.none_or] at hlast
      exact absurd hlast hbefore
  | some last => rwa [List.getLast?_append, hinner] at hlast

theorem shielded_escaped (hne : escape ≠ mark) (text : Text) :
    Shielded escape mark (replace text [mark] [escape, mark]) := by
  intro before after hsplit
  rcases escaped_or_overlap (List.cons_ne_nil mark []) (by simpa using hne) hsplit with
    hlast | ⟨count, hpositive, hcount, -⟩
  · exact hlast
  · rw [List.length_singleton] at hcount
    omega

end Shielded

end Docblock.Text
