import Docblock.Proofs.Text.Lines
import Docblock.Token

namespace Docblock.Token

/-- Whether one of two neighbouring parts has a blank, or nothing, where they meet. -/
def Apart (left right : Text) : Prop :=
  left.getLast?.all isBlank = true ∨ right.head?.all isBlank = true

theorem apart_cons_blank {c : Char} (hblank : isBlank c = true) (left right : Text) :
    Apart left (c :: right) :=
  .inr (by simpa using hblank)

theorem apart_append_singleton {c : Char} (hblank : isBlank c = true) (left right : Text) :
    Apart (left ++ [c]) right :=
  .inl (by simpa using hblank)

private theorem apart_nil_left (right : Text) : Apart [] right :=
  .inl rfl

theorem Apart.of_cons {c : Char} {left right : Text} (hapart : Apart (c :: left) right) :
    Apart left right := by
  cases left with
  | nil => exact apart_nil_left right
  | cons d left => simpa [Apart, List.getLast?_cons_cons] using hapart

theorem scan_cons_blank {c : Char} (hblank : isBlank c = true) (offset : Nat) (rest : Text) :
    scan offset (c :: rest) = scan (offset + c.utf8Size) rest := by
  simp [scan, hblank]

theorem scan_ne_nil {text : Text} (hstarts : startsWord text = true) (offset : Nat) :
    scan offset text ≠ [] := by
  induction text generalizing offset with
  | nil => simp [startsWord] at hstarts
  | cons c rest ih =>
      have hword : isBlank c = false := by simpa [startsWord] using hstarts
      cases hrest : startsWord rest with
      | true => simpa [scan, hword, hrest] using ih hrest (offset + c.utf8Size)
      | false => simp [scan, hword, hrest]

theorem scan_append {left right : Text} (hapart : Apart left right) (offset : Nat) :
    scan offset (left ++ right) =
      scan offset left ++ scan (offset + left.byteLength) right := by
  induction left generalizing offset with
  | nil => rfl
  | cons c rest ih =>
      have htokens := ih hapart.of_cons (offset + c.utf8Size)
      rw [Nat.add_assoc, ← Text.byteLength_cons] at htokens
      cases hblank : isBlank c with
      | true =>
          rw [List.cons_append, scan_cons_blank hblank, scan_cons_blank hblank, htokens]
      | false =>
          cases hrest : rest with
          | nil =>
              subst hrest
              have hright : startsWord right = false := by
                have hfree : right.head?.all isBlank = true := by
                  simpa [Apart, hblank] using hapart
                cases right with
                | nil => rfl
                | cons d right => simpa [startsWord] using hfree
              simp [scan, hblank, hright, show startsWord [] = false from rfl]
          | cons d inner =>
              have hsame : startsWord (rest ++ right) = startsWord rest := by
                simp [hrest, startsWord]
              rw [← hrest, List.cons_append]
              cases hstarts : startsWord rest with
              | true =>
                  obtain ⟨first, later, hfirst⟩ :=
                    List.exists_cons_of_ne_nil (scan_ne_nil hstarts (offset + c.utf8Size))
                  simp only [scan, hblank, hsame, hstarts, htokens, hfirst]
                  simp
              | false =>
                  simp only [scan, hblank, hsame, hstarts, htokens]
                  simp

def ofWord (offset : Nat) (word : Text) : Token :=
  ⟨word, ⟨offset, offset + word.byteLength⟩⟩

theorem scan_word {word : Text} (hne : word ≠ []) (hword : word.any isBlank = false)
    (offset : Nat) :
    scan offset word = [ofWord offset word] := by
  induction word generalizing offset with
  | nil => contradiction
  | cons c rest ih =>
      rw [List.any_cons, Bool.or_eq_false_iff] at hword
      cases rest with
      | nil => simp [scan, hword.1, startsWord, ofWord]
      | cons d rest =>
          have hstarts : startsWord (d :: rest) = true := by
            have hd : isBlank d = false := by
              rw [List.any_cons, Bool.or_eq_false_iff] at hword
              exact hword.2.1
            simp [startsWord, hd]
          have htail := ih (List.cons_ne_nil d rest) hword.2 (offset + c.utf8Size)
          rw [scan, htail]
          simp [hword.1, hstarts, extend, ofWord, Nat.add_assoc]

theorem scan_induction {motive : Text → Prop} (nil : motive [])
    (blank : ∀ c rest, isBlank c = true → motive rest → motive (c :: rest))
    (last : ∀ word : Text, word ≠ [] → word.any isBlank = false → motive word)
    (word : ∀ (word : Text) c rest, word ≠ [] → word.any isBlank = false →
      isBlank c = true → motive rest → motive (word ++ c :: rest))
    (text : Text) : motive text := by
  induction hlength : text.length using Nat.strongRecOn generalizing text with
  | _ length ih =>
      subst hlength
      cases text with
      | nil => exact nil
      | cons c rest =>
          cases hblank : isBlank c with
          | true => exact blank c rest hblank (ih rest.length (by simp) rest rfl)
          | false =>
              have hsplit :=
                List.takeWhile_append_dropWhile (p := fun d => !isBlank d) (l := c :: rest)
              have hne : (c :: rest).takeWhile (fun d => !isBlank d) ≠ [] := by
                simp [hblank]
              have hword : ((c :: rest).takeWhile (fun d => !isBlank d)).any isBlank = false := by
                rw [List.any_eq_false]
                intro d hd
                simpa using List.all_eq_true.mp List.all_takeWhile d hd
              cases hafter : (c :: rest).dropWhile (fun d => !isBlank d) with
              | nil =>
                  rw [hafter, List.append_nil] at hsplit
                  exact hsplit ▸ last _ hne hword
              | cons d after =>
                  rw [hafter] at hsplit
                  have hd : isBlank d = true := by
                    have hhead := List.head_dropWhile_not (fun d => !isBlank d) (l := c :: rest)
                      (by simp [hafter])
                    simpa [hafter] using hhead
                  have hshorter : after.length < (c :: rest).length := by
                    rw [← hsplit]
                    simp only [List.length_append, List.length_cons]
                    omega
                  exact hsplit ▸ word _ d after hne hword hd (ih _ hshorter after rfl)

def words (text : Text) : List Text :=
  (all text).map Token.text

theorem map_text_scan (offset : Nat) (text : Text) :
    (scan offset text).map Token.text = words text := by
  suffices hsame : ∀ left right,
      (scan left text).map Token.text = (scan right text).map Token.text from hsame offset 0
  induction text using scan_induction with
  | nil => exact fun _ _ => rfl
  | blank c rest hblank ih =>
      intro left right
      rw [scan_cons_blank hblank, scan_cons_blank hblank]
      exact ih _ _
  | last word hne hword =>
      intro left right
      rw [scan_word hne hword, scan_word hne hword]
      rfl
  | word word c rest hne hword hblank ih =>
      intro left right
      have hapart := apart_cons_blank hblank word rest
      rw [scan_append hapart, scan_append hapart, scan_word hne hword, scan_word hne hword,
        scan_cons_blank hblank, scan_cons_blank hblank, List.map_append, List.map_append]
      exact congrArg (word :: ·) (ih _ _)

theorem length_scan (offset : Nat) (text : Text) :
    (scan offset text).length = (words text).length := by
  rw [← map_text_scan offset, List.length_map]

theorem words_append {left right : Text} (hapart : Apart left right) :
    words (left ++ right) = words left ++ words right := by
  rw [words, all, scan_append hapart, List.map_append, map_text_scan, map_text_scan]

theorem words_cons_blank {c : Char} (hblank : isBlank c = true) (rest : Text) :
    words (c :: rest) = words rest := by
  rw [words, all, scan_cons_blank hblank, map_text_scan]

theorem words_word {word : Text} (hne : word ≠ []) (hword : word.any isBlank = false) :
    words word = [word] := by
  rw [words, all, scan_word hne hword]
  rfl

theorem words_append_of_allBlank {left : Text} (hblank : left.allBlank = true) (right : Text) :
    words (left ++ right) = words right := by
  induction left with
  | nil => rfl
  | cons c rest ih =>
      simp only [Text.allBlank, List.all_cons, Bool.and_eq_true] at hblank
      rw [List.cons_append, words_cons_blank hblank.1]
      exact ih hblank.2

theorem words_word_cons {word : Text} {c : Char} (hne : word ≠ [])
    (hword : word.any isBlank = false) (hblank : isBlank c = true) (rest : Text) :
    words (word ++ c :: rest) = word :: words rest := by
  rw [words_append (apart_cons_blank hblank word rest), words_word hne hword,
    words_cons_blank hblank, List.singleton_append]

theorem words_eq_flatMap_lines (text : Text) : words text = text.lines.flatMap words := by
  induction text using Text.lines_induction with
  | last only honly => rw [Text.lines_of_not_mem honly, List.flatMap_singleton]
  | cons line rest hline ih =>
      rw [words_append (apart_cons_blank rfl line rest), words_cons_blank rfl, ih,
        Text.lines_append_cons, Text.lines_of_not_mem hline, List.flatMap_append,
        List.flatMap_singleton]

theorem words_eq_nil_iff {text : Text} : words text = [] ↔ text.allBlank = true := by
  constructor
  · intro hwords
    obtain ⟨blanks, hblanks, hsplit⟩ := Text.exists_trimStart text
    rw [hsplit, words_append_of_allBlank hblanks] at hwords
    cases hstart : text.trimStart with
    | nil => exact Text.trimStart_eq_nil_iff.mp hstart
    | cons c rest =>
        have hc := Text.isBlank_head?_trimStart text c (by rw [hstart]; rfl)
        have hstarts : startsWord text.trimStart = true := by
          simp [hstart, startsWord, hc]
        exact absurd (List.map_eq_nil_iff.mp hwords) (scan_ne_nil hstarts 0)
  · intro hblank
    have hwords := words_append_of_allBlank hblank []
    rwa [List.append_nil] at hwords

theorem words_intercalate {written : List Text}
    (hwritten : ∀ word ∈ written, word ≠ [] ∧ word.any isBlank = false) :
    words (List.intercalate [' '] written) = written := by
  induction written with
  | nil => rfl
  | cons word rest ih =>
      rw [List.forall_mem_cons] at hwritten
      obtain ⟨⟨hne, hword⟩, hrest⟩ := hwritten
      cases rest with
      | nil => rw [List.intercalate_singleton, words_word hne hword]
      | cons next rest =>
          rw [List.intercalate_cons_cons, List.append_assoc, List.singleton_append,
            words_word_cons hne hword rfl, ih hrest]

theorem split_of_mem_words {text word : Text} (hmem : word ∈ words text) :
    ∃ before after, text = before ++ (word ++ after) ∧
      before.getLast?.all isBlank = true := by
  induction text using scan_induction with
  | nil => simp [words, all, scan] at hmem
  | blank c rest hblank ih =>
      rw [words_cons_blank hblank] at hmem
      obtain ⟨before, after, rfl, hfree⟩ := ih hmem
      refine ⟨c :: before, after, rfl, ?_⟩
      cases before with
      | nil => simpa using hblank
      | cons d before => rwa [List.getLast?_cons_cons]
  | last only hne honly =>
      rw [words_word hne honly, List.mem_singleton] at hmem
      exact ⟨[], [], by simp [hmem], rfl⟩
  | word first c rest hne hfirst hblank ih =>
      rw [words_word_cons hne hfirst hblank, List.mem_cons] at hmem
      rcases hmem with rfl | hmem
      · exact ⟨[], c :: rest, rfl, rfl⟩
      · obtain ⟨before, after, rfl, hfree⟩ := ih hmem
        refine ⟨first ++ c :: before, after, by simp, ?_⟩
        cases before with
        | nil => simpa using hblank
        | cons d before => simpa [List.getLast?_append, List.getLast?_cons] using hfree

end Docblock.Token
