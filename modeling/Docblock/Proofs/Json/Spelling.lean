import Docblock.Json.Reader
import Docblock.Json.Writer

namespace Docblock.Json

/-! The texts that spell a value of strings, whole numbers, arrays and objects.  The reader takes
back what such a text spells, and the indented form is one of them. -/

private theorem escape_cases (c : Char) :
    (∃ letter, escape c = ['\\', letter] ∧ unescape? letter = some c) ∨
    (c.toNat < 0x20 ∧
      escape c =
        ['\\', 'u', '0', '0', Nat.digitChar (c.toNat / 16), Nat.digitChar (c.toNat % 16)]) ∨
    (0x20 ≤ c.toNat ∧ c ≠ '"' ∧ c ≠ '\\' ∧ escape c = [c]) := by
  by_cases hletter : c = '"' ∨ c = '\\' ∨ c = '\n' ∨ c = '\r' ∨ c = '\t' ∨ c = '\x08' ∨ c = '\x0c'
  · left
    rcases hletter with rfl | rfl | rfl | rfl | rfl | rfl | rfl
    · exact ⟨'"', rfl, rfl⟩
    · exact ⟨'\\', rfl, rfl⟩
    · exact ⟨'n', rfl, rfl⟩
    · exact ⟨'r', rfl, rfl⟩
    · exact ⟨'t', rfl, rfl⟩
    · exact ⟨'b', rfl, rfl⟩
    · exact ⟨'f', rfl, rfl⟩
  · right
    simp only [not_or] at hletter
    obtain ⟨hquote, hbackslash, hfeed, hreturn, htab, hback, hform⟩ := hletter
    rw [escape, if_neg hquote, if_neg hbackslash, if_neg hfeed, if_neg hreturn, if_neg htab,
      if_neg hback, if_neg hform]
    by_cases hcontrol : c.toNat < 0x20
    · exact .inl ⟨hcontrol, if_pos hcontrol⟩
    · exact .inr ⟨Nat.le_of_not_lt hcontrol, hquote, hbackslash, if_neg hcontrol⟩

private theorem hexCode?_of_control : ∀ code < 0x20,
    hexCode? '0' '0' (Nat.digitChar (code / 16)) (Nat.digitChar (code % 16)) = some code := by
  decide

def prepend (unit : Nat) : Option (List Nat × Text) → Option (List Nat × Text) :=
  Option.map fun (units, rest) => (unit :: units, rest)

private theorem readUnits_escape (c : Char) (rest : Text) :
    readUnits (escape c ++ rest) = prepend c.toNat (readUnits rest) := by
  rcases escape_cases c with ⟨letter, hescape, hletter⟩ | ⟨hcontrol, hescape⟩ |
    ⟨hplain, hquote, hbackslash, hescape⟩
  · -- The pattern for codes comes first, but its letter stands for no character.
    have hcode : letter ≠ 'u' := by
      rintro rfl
      contradiction
    rw [hescape, List.cons_append, List.cons_append, List.nil_append,
      readUnits.eq_4 letter rest fun _ _ _ _ _ hu => absurd hu hcode, hletter]
    cases readUnits rest <;> rfl
  · rw [hescape]
    simp only [List.cons_append, List.nil_append]
    rw [readUnits, hexCode?_of_control c.toNat hcontrol]
    cases readUnits rest <;> rfl
  · rw [hescape, List.cons_append, List.nil_append,
      readUnits.eq_5 c rest hquote (fun _ _ _ _ _ hc => absurd hc hbackslash)
        fun _ _ hc => absurd hc hbackslash,
      if_neg (not_or.mpr ⟨Nat.not_lt.mpr hplain, hbackslash⟩)]
    cases readUnits rest <;> rfl

private theorem readUnits_flatMap_escape (text rest : Text) :
    readUnits (text.flatMap escape ++ '"' :: rest) = some (text.map Char.toNat, rest) := by
  induction text with
  | nil => rfl
  | cons c text ih =>
      rw [List.flatMap_cons, List.append_assoc, readUnits_escape, ih]
      rfl

private theorem not_half (c : Char) : isHighHalf c.toNat = false ∧ isLowHalf c.toNat = false := by
  have hvalid : c.toNat < 0xd800 ∨ 0xdfff < c.toNat ∧ c.toNat < 0x110000 := c.valid
  simp only [isHighHalf, isLowHalf, Bool.and_eq_false_iff, decide_eq_false_iff_not]
  omega

private theorem textOfUnits_map_toNat (text : Text) :
    textOfUnits (text.map Char.toNat) = some text := by
  induction text with
  | nil => rfl
  | cons c text ih =>
      have hc := not_half c
      cases text with
      | nil => simp [textOfUnits, hc, Char.ofNat_toNat]
      | cons d text =>
          rw [List.map_cons, List.map_cons, textOfUnits, hc.1, hc.2, ← List.map_cons, ih]
          simp [Char.ofNat_toNat]

theorem quote_append (text rest : Text) :
    quote text ++ rest = '"' :: (text.flatMap escape ++ '"' :: rest) := by
  simp [quote]

theorem readLiteral_flatMap_escape (text rest : Text) :
    readLiteral (text.flatMap escape ++ '"' :: rest) = some (some text, rest) := by
  rw [readLiteral, readUnits_flatMap_escape]
  simp [textOfUnits_map_toNat]

def EndsNumber (rest : Text) : Prop :=
  ∀ c ∈ rest.head?, c.isDigit = false ∧ c ≠ '.' ∧ c ≠ 'e' ∧ c ≠ 'E'

private theorem head?_toDigits {value : Nat} (hzero : (Nat.toDigits 10 value).head? = some '0') :
    value = 0 := by
  have hdigit : ∀ digit < 10, [Nat.digitChar digit].head? = some '0' → digit = 0 := by decide
  induction value using Nat.strongRecOn with
  | ind value ih =>
      by_cases hsmall : value < 10
      · rw [Nat.toDigits_of_lt_base hsmall] at hzero
        exact hdigit value hsmall hzero
      · rw [Nat.toDigits_of_base_le (by decide) (by omega),
          List.head?_append] at hzero
        cases hhigher : Nat.toDigits 10 (value / 10) with
        | nil => exact absurd hhigher Nat.toDigits_ne_nil
        | cons digit digits =>
            rw [hhigher] at hzero
            have hnone := ih (value / 10) (by omega) (by rw [hhigher]; exact hzero)
            omega

theorem isDigit_of_mem_toDigits (value : Nat) : ∀ c ∈ Nat.toDigits 10 value, c.isDigit = true :=
  fun _ => Nat.isDigit_of_mem_toDigits (by decide) (by decide)

private theorem readDigits_toDigits (value : Nat) {rest : Text} (hrest : EndsNumber rest) :
    readDigits (Nat.toDigits 10 value ++ rest) = some (Nat.toDigits 10 value, rest) := by
  have hdigits := isDigit_of_mem_toDigits value
  have htake : rest.takeWhile Char.isDigit = [] := by
    cases rest with
    | nil => rfl
    | cons c rest => exact List.takeWhile_cons_of_neg (by simp [(hrest c rfl).1])
  have hdrop : rest.dropWhile Char.isDigit = rest := by
    cases rest with
    | nil => rfl
    | cons c rest => exact List.dropWhile_cons_of_neg (by simp [(hrest c rfl).1])
  rw [readDigits, List.takeWhile_append_of_pos hdigits, htake, List.append_nil,
    List.dropWhile_append_of_pos hdigits, hdrop]
  split
  · rename_i hnil
    exact absurd hnil Nat.toDigits_ne_nil
  · rfl

private theorem readWhole_toDigits (value : Nat) {rest : Text} (hrest : EndsNumber rest) :
    readWhole (Nat.toDigits 10 value ++ rest) = some (Nat.toDigits 10 value, rest) := by
  have hlead : ¬ ((Nat.toDigits 10 value).head? = some '0' ∧ Nat.toDigits 10 value ≠ ['0']) := by
    rintro ⟨hzero, hne⟩
    rw [head?_toDigits hzero] at hne
    contradiction
  rw [readWhole, readDigits_toDigits value hrest]
  simp [hlead]

private theorem readFraction_of_endsNumber {rest : Text} (hrest : EndsNumber rest) :
    readFraction rest = some ([], rest) := by
  unfold readFraction
  split
  · exact absurd rfl (hrest '.' rfl).2.1
  · rfl

private theorem readExponent_of_endsNumber {rest : Text} (hrest : EndsNumber rest) :
    readExponent rest = some ([], rest) := by
  cases rest with
  | nil => rfl
  | cons c rest =>
      obtain ⟨-, -, hsmall, hcapital⟩ := hrest c rfl
      unfold readExponent
      exact if_neg (not_or.mpr ⟨hsmall, hcapital⟩)

theorem readNumber_toDigits (value : Nat) {rest : Text} (hrest : EndsNumber rest) :
    readNumber (Nat.toDigits 10 value ++ rest) = some (Nat.toDigits 10 value, rest) := by
  have hsign : readSign (Nat.toDigits 10 value ++ rest) = ([], Nat.toDigits 10 value ++ rest) := by
    cases hdigits : Nat.toDigits 10 value with
    | nil => exact absurd hdigits Nat.toDigits_ne_nil
    | cons digit digits =>
        have hdigit := isDigit_of_mem_toDigits value digit (by simp [hdigits])
        unfold readSign
        split
        · rename_i hminus
          obtain ⟨rfl, -⟩ := List.cons.inj hminus
          contradiction
        · rfl
  rw [readNumber, hsign]
  simp [readWhole_toDigits value hrest, readFraction_of_endsNumber hrest,
    readExponent_of_endsNumber hrest]

def IsSpace (text : Text) : Prop :=
  ∀ c ∈ text, isSpace c = true

theorem skipSpace_append {space : Text} (hspace : IsSpace space) (rest : Text) :
    skipSpace (space ++ rest) = skipSpace rest :=
  List.dropWhile_append_of_pos hspace

theorem isSpace_cases {c : Char} (hspace : isSpace c = true) :
    c = ' ' ∨ c = '\t' ∨ c = '\n' ∨ c = '\r' := by
  simpa [isSpace, or_assoc] using hspace

theorem isSpace_of_isDigit {c : Char} (hdigit : c.isDigit = true) : isSpace c = false := by
  cases hspace : isSpace c with
  | false => rfl
  | true => rcases isSpace_cases hspace with rfl | rfl | rfl | rfl <;> contradiction

theorem endsNumber_space_append {space rest : Text} (hspace : IsSpace space)
    (hrest : EndsNumber rest) : EndsNumber (space ++ rest) := by
  cases space with
  | nil => exact hrest
  | cons c space =>
      intro d hd
      obtain rfl := Option.some.inj hd
      rcases isSpace_cases (hspace c List.mem_cons_self) with rfl | rfl | rfl | rfl <;> decide

theorem endsNumber_cons {c : Char} (hc : c = ',' ∨ c = ']' ∨ c = '}') (rest : Text) :
    EndsNumber (c :: rest) := by
  intro d hd
  obtain rfl := Option.some.inj hd
  rcases hc with rfl | rfl | rfl <;> decide

mutual

/-- A text spells a value, in one of the layouts that documents have. -/
inductive Spells : Json → Text → Prop where
  | string (text : Text) : Spells (.ofText text) (quote text)
  | whole (value : Nat) : Spells (.ofNat value) (Nat.toDigits 10 value)
  | noItems {space : Text} (hspace : IsSpace space) : Spells (.array []) ('[' :: space ++ [']'])
  | items {items : List Json} {text : Text} (hitems : SpellsItems items text) :
      Spells (.array items) ('[' :: text)
  | members {members : List (Option Text × Json)} {text : Text}
      (hmembers : SpellsMembers members text) : Spells (.object members) ('{' :: text)

inductive SpellsItems : List Json → Text → Prop where
  | last {item : Json} {before text after : Text} (hbefore : IsSpace before)
      (hitem : Spells item text) (hafter : IsSpace after) :
      SpellsItems [item] (before ++ text ++ after ++ [']'])
  | more {item : Json} {items : List Json} {before text rest : Text} (hbefore : IsSpace before)
      (hitem : Spells item text) (hrest : SpellsItems items rest) :
      SpellsItems (item :: items) (before ++ text ++ ',' :: rest)

inductive SpellsMembers : List (Option Text × Json) → Text → Prop where
  | last {name : Text} {value : Json} {before between text after : Text}
      (hbefore : IsSpace before) (hbetween : IsSpace between) (hvalue : Spells value text)
      (hafter : IsSpace after) :
      SpellsMembers [(some name, value)]
        (before ++ quote name ++ ':' :: between ++ text ++ after ++ ['}'])
  | more {name : Text} {value : Json} {members : List (Option Text × Json)}
      {before between text rest : Text} (hbefore : IsSpace before)
      (hbetween : IsSpace between) (hvalue : Spells value text)
      (hrest : SpellsMembers members rest) :
      SpellsMembers ((some name, value) :: members)
        (before ++ quote name ++ ':' :: between ++ text ++ ',' :: rest)

end

theorem Spells.exists_cons {value : Json} {text : Text} (hspells : Spells value text) :
    ∃ c rest, text = c :: rest ∧ isSpace c = false ∧ c ≠ ']' := by
  cases hspells with
  | string text => exact ⟨'"', _, rfl, rfl, by decide⟩
  | whole value =>
      cases hdigits : Nat.toDigits 10 value with
      | nil => exact absurd hdigits Nat.toDigits_ne_nil
      | cons digit digits =>
          have hdigit := isDigit_of_mem_toDigits value digit (by simp [hdigits])
          refine ⟨digit, digits, rfl, isSpace_of_isDigit hdigit, ?_⟩
          rintro rfl
          contradiction
  | noItems hspace => exact ⟨'[', _, rfl, rfl, by decide⟩
  | items hitems => exact ⟨'[', _, rfl, rfl, by decide⟩
  | members hmembers => exact ⟨'{', _, rfl, rfl, by decide⟩

theorem skipSpace_spelling {value : Json} {text : Text} (hspells : Spells value text)
    {before : Text} (hbefore : IsSpace before) (rest : Text) :
    skipSpace (before ++ (text ++ rest)) = text ++ rest := by
  obtain ⟨c, tail, rfl, hc, -⟩ := hspells.exists_cons
  rw [skipSpace_append hbefore]
  exact List.dropWhile_cons_of_neg (by simp [hc])

theorem SpellsItems.skipSpace_ne {items : List Json} {text : Text}
    (hspells : SpellsItems items text) (rest tail : Text) :
    skipSpace (text ++ rest) ≠ ']' :: tail := by
  have hfirst : ∃ item before start after, text = before ++ (start ++ after) ∧ IsSpace before ∧
      Spells item start := by
    cases hspells with
    | @last item before start after hbefore hitem hafter =>
        exact ⟨item, before, start, after ++ [']'], by simp, hbefore, hitem⟩
    | @more item items before start rest hbefore hitem hrest =>
        exact ⟨item, before, start, ',' :: rest, by simp, hbefore, hitem⟩
  obtain ⟨item, before, start, after, rfl, hbefore, hitem⟩ := hfirst
  rw [List.append_assoc, List.append_assoc, skipSpace_spelling hitem hbefore]
  obtain ⟨c, tail, rfl, -, hc⟩ := hitem.exists_cons
  exact fun heq => hc (List.cons.inj heq).1

theorem SpellsMembers.skipSpace_ne {members : List (Option Text × Json)} {text : Text}
    (hspells : SpellsMembers members text) (rest tail : Text) :
    skipSpace (text ++ rest) ≠ '}' :: tail := by
  have hfirst : ∃ before name after, text = before ++ (quote name ++ after) ∧
      IsSpace before := by
    cases hspells with
    | @last name value before between text after hbefore hbetween hvalue hafter =>
        exact ⟨before, name, ':' :: between ++ text ++ after ++ ['}'], by simp, hbefore⟩
    | @more name value members before between text rest hbefore hbetween hvalue hrest =>
        exact ⟨before, name, ':' :: between ++ text ++ ',' :: rest, by simp, hbefore⟩
  obtain ⟨before, name, after, rfl, hbefore⟩ := hfirst
  rw [List.append_assoc, skipSpace_append hbefore]
  exact fun heq => absurd (List.cons.inj heq).1 (by decide)

theorem skipSpace_skipSpace (text : Text) : skipSpace (skipSpace text) = skipSpace text := by
  induction text with
  | nil => rfl
  | cons c text ih =>
      cases hspace : isSpace c with
      | true =>
          have hskip : skipSpace (c :: text) = skipSpace text := List.dropWhile_cons_of_pos hspace
          rw [hskip, ih]
      | false =>
          have hkeep : skipSpace (c :: text) = c :: text :=
            List.dropWhile_cons_of_neg (by simp [hspace])
          rw [hkeep, hkeep]

private theorem readItems_skipSpace (bound : Nat) (text : Text) :
    readItems bound (skipSpace text) = readItems bound text := by
  have hvalue : ∀ bound, readValue bound (skipSpace text) = readValue bound text := by
    intro bound
    cases bound with
    | zero => rfl
    | succ bound => rw [readValue, readValue, skipSpace_skipSpace]
  cases bound with
  | zero => rfl
  | succ bound => rw [readItems, readItems, hvalue]

private theorem readMembers_skipSpace (bound : Nat) (text : Text) :
    readMembers bound (skipSpace text) = readMembers bound text := by
  cases bound with
  | zero => rfl
  | succ bound => rw [readMembers, readMembers, skipSpace_skipSpace]

theorem readValue_literal {text rest remaining : Text} {literal : Option Text} (bound : Nat)
    (hopen : skipSpace text = '"' :: rest)
    (hliteral : readLiteral rest = some (literal, remaining)) :
    readValue (bound + 1) text = some (.string literal, remaining) := by
  rw [readValue]
  simp only [hopen, hliteral]
  rfl

theorem readValue_items {text rest remaining : Text} {bound : Nat} {items : List Json}
    (hopen : skipSpace text = '[' :: rest) (hsome : ∀ tail, skipSpace rest ≠ ']' :: tail)
    (hitems : readItems bound rest = some (items, remaining)) :
    readValue (bound + 1) text = some (.array items, remaining) := by
  rw [readValue]
  simp only [hopen]
  rw [readItems_skipSpace, hitems]
  rfl

theorem readValue_members {text rest remaining : Text} {bound : Nat}
    {members : List (Option Text × Json)} (hopen : skipSpace text = '{' :: rest)
    (hsome : ∀ tail, skipSpace rest ≠ '}' :: tail)
    (hmembers : readMembers bound rest = some (members, remaining)) :
    readValue (bound + 1) text = some (.object members, remaining) := by
  rw [readValue]
  simp only [hopen]
  rw [readMembers_skipSpace, hmembers]
  rfl

theorem readValue_digits {text rest : Text} {value : Nat} (bound : Nat)
    (hdigits : skipSpace text = Nat.toDigits 10 value ++ rest) (hrest : EndsNumber rest) :
    readValue (bound + 1) text = some (.ofNat value, rest) := by
  have hnumber := readNumber_toDigits value hrest
  cases hvalue : Nat.toDigits 10 value with
  | nil => exact absurd hvalue Nat.toDigits_ne_nil
  | cons digit digits =>
      have hdigit := isDigit_of_mem_toDigits value digit (by simp [hvalue])
      rw [hvalue] at hdigits hnumber
      rw [readValue, hdigits]
      split
      any_goals
        rename_i heq
        obtain ⟨rfl, -⟩ := List.cons.inj heq
        contradiction
      rw [hnumber, ofNat, hvalue]
      rfl

theorem readItems_last {text space rest : Text} {bound : Nat} {item : Json}
    (hitem : readValue bound text = some (item, space ++ ']' :: rest)) (hspace : IsSpace space) :
    readItems (bound + 1) text = some ([item], rest) := by
  have hclose : skipSpace (space ++ ']' :: rest) = ']' :: rest := skipSpace_append hspace _
  rw [readItems, hitem]
  simp only [bind, Option.bind, hclose]

private theorem readItems_more {text rest remaining : Text} {bound : Nat} {item : Json}
    {items : List Json} (hitem : readValue bound text = some (item, ',' :: rest))
    (hitems : readItems bound rest = some (items, remaining)) :
    readItems (bound + 1) text = some (item :: items, remaining) := by
  have hcomma : skipSpace (',' :: rest) = ',' :: rest := rfl
  rw [readItems, hitem]
  simp only [bind, Option.bind, hcomma, hitems]

private theorem readMembers_last {text after space rest : Text} {bound : Nat} {name : Text}
    {value : Json}
    (hname : skipSpace text = quote name ++ ':' :: after)
    (hvalue : readValue bound after = some (value, space ++ '}' :: rest)) (hspace : IsSpace space) :
    readMembers (bound + 1) text = some ([(some name, value)], rest) := by
  have hclose : skipSpace (space ++ '}' :: rest) = '}' :: rest := skipSpace_append hspace _
  have hcolon : skipSpace (':' :: after) = ':' :: after := rfl
  rw [readMembers]
  simp only [hname, quote_append, readLiteral_flatMap_escape, bind, Option.bind, hcolon, hvalue,
    hclose]

private theorem readMembers_more {text after rest remaining : Text} {bound : Nat} {name : Text}
    {value : Json} {members : List (Option Text × Json)}
    (hname : skipSpace text = quote name ++ ':' :: after)
    (hvalue : readValue bound after = some (value, ',' :: rest))
    (hmembers : readMembers bound rest = some (members, remaining)) :
    readMembers (bound + 1) text = some ((some name, value) :: members, remaining) := by
  have hcomma : skipSpace (',' :: rest) = ',' :: rest := rfl
  have hcolon : skipSpace (':' :: after) = ':' :: after := rfl
  rw [readMembers]
  simp only [hname, quote_append, readLiteral_flatMap_escape, bind, Option.bind, hcolon, hvalue,
    hcomma, hmembers]

-- By recursion on how a text spells its value.  Reading a part of a value goes one step deeper
-- and leaves out at least one character, so twice the length bounds the depth.
mutual

theorem readValue_of_spells {value : Json} {text : Text} (hspells : Spells value text)
    {before rest : Text} (hbefore : IsSpace before) (hrest : EndsNumber rest) {bound : Nat}
    (hbound : 2 * text.length ≤ bound) :
    readValue bound (before ++ (text ++ rest)) = some (value, rest) := by
  have hskip := skipSpace_spelling hspells hbefore rest
  obtain ⟨bound, rfl⟩ : ∃ smaller, bound = smaller + 1 := by
    obtain ⟨c, tail, rfl, -⟩ := hspells.exists_cons
    rw [List.length_cons] at hbound
    exact ⟨bound - 1, by omega⟩
  cases hspells with
  | string text =>
      exact readValue_literal bound (hskip.trans (quote_append text rest))
        (readLiteral_flatMap_escape text rest)
  | whole number => exact readValue_digits bound hskip hrest
  | noItems hspace =>
      rw [readValue, hskip]
      simp only [List.cons_append, List.append_assoc, List.nil_append]
      rw [skipSpace_append hspace]
      rfl
  | items hitems =>
      rw [List.length_cons] at hbound
      exact readValue_items hskip (hitems.skipSpace_ne rest)
        (readItems_of_spells hitems (by omega))
  | members hmembers =>
      rw [List.length_cons] at hbound
      exact readValue_members hskip (hmembers.skipSpace_ne rest)
        (readMembers_of_spells hmembers (by omega))

theorem readItems_of_spells {items : List Json} {text : Text} (hspells : SpellsItems items text)
    {rest : Text} {bound : Nat} (hbound : 2 * text.length ≤ bound) :
    readItems bound (text ++ rest) = some (items, rest) := by
  cases hspells with
  | @last item before text after hbefore hitem hafter =>
      simp only [List.length_append, List.length_singleton] at hbound
      obtain ⟨bound, rfl⟩ : ∃ smaller, bound = smaller + 1 := ⟨bound - 1, by omega⟩
      have hend : EndsNumber (after ++ ']' :: rest) :=
        endsNumber_space_append hafter (endsNumber_cons (by simp) rest)
      have hshort : 2 * text.length ≤ bound := by omega
      simp only [List.append_assoc, List.singleton_append]
      exact readItems_last (readValue_of_spells hitem hbefore hend hshort) hafter
  | @more item items before text tail hbefore hitem hitems =>
      simp only [List.length_append, List.length_cons] at hbound
      obtain ⟨bound, rfl⟩ : ∃ smaller, bound = smaller + 1 := ⟨bound - 1, by omega⟩
      have hend : EndsNumber (',' :: (tail ++ rest)) := endsNumber_cons (by simp) _
      have hshort : 2 * text.length ≤ bound := by omega
      have hshorter : 2 * tail.length ≤ bound := by omega
      simp only [List.append_assoc, List.cons_append]
      exact readItems_more (readValue_of_spells hitem hbefore hend hshort)
        (readItems_of_spells hitems hshorter)

theorem readMembers_of_spells {members : List (Option Text × Json)} {text : Text}
    (hspells : SpellsMembers members text) {rest : Text} {bound : Nat}
    (hbound : 2 * text.length ≤ bound) :
    readMembers bound (text ++ rest) = some (members, rest) := by
  cases hspells with
  | @last name value before between text after hbefore hbetween hvalue hafter =>
      simp only [List.length_append, List.length_cons] at hbound
      obtain ⟨bound, rfl⟩ : ∃ smaller, bound = smaller + 1 := ⟨bound - 1, by omega⟩
      have hend : EndsNumber (after ++ '}' :: rest) :=
        endsNumber_space_append hafter (endsNumber_cons (by simp) rest)
      have hshort : 2 * text.length ≤ bound := by omega
      simp only [List.append_assoc, List.cons_append, List.nil_append]
      exact readMembers_last (skipSpace_append hbefore _)
        (readValue_of_spells hvalue hbetween hend hshort) hafter
  | @more name value members before between text tail hbefore hbetween hvalue hmembers =>
      simp only [List.length_append, List.length_cons] at hbound
      obtain ⟨bound, rfl⟩ : ∃ smaller, bound = smaller + 1 := ⟨bound - 1, by omega⟩
      have hend : EndsNumber (',' :: (tail ++ rest)) := endsNumber_cons (by simp) _
      have hshort : 2 * text.length ≤ bound := by omega
      have hshorter : 2 * tail.length ≤ bound := by omega
      simp only [List.append_assoc, List.cons_append]
      exact readMembers_more (skipSpace_append hbefore _)
        (readValue_of_spells hvalue hbetween hend hshort)
        (readMembers_of_spells hmembers hshorter)

end

/-- A text that spells a value reads as that value, whatever space follows it. -/
theorem read_of_spells {value : Json} {text : Text} (hspells : Spells value text) {after : Text}
    (hafter : IsSpace after) : read (text ++ after) = some value := by
  have hend : EndsNumber after := by
    have hnil : EndsNumber [] := fun _ hd => by contradiction
    simpa using endsNumber_space_append hafter hnil
  have hspace : skipSpace after = [] := by
    rw [← List.append_nil after, skipSpace_append hafter]
    rfl
  have hbound : 2 * text.length ≤ 2 * (text ++ after).length + 1 := by
    rw [List.length_append]
    omega
  have hbefore : IsSpace [] := fun _ hd => by contradiction
  have hvalue := readValue_of_spells hspells hbefore hend hbound
  rw [List.nil_append] at hvalue
  rw [read, hvalue]
  simp [hspace]

def Writes (value : Json) : Prop :=
  ∀ depth, Spells value (value.pretty depth)

theorem isSpace_newline_indentation (depth : Nat) : IsSpace ('\n' :: indentation depth) := by
  intro c hc
  rcases List.mem_cons.mp hc with rfl | hc
  · rfl
  · rw [List.eq_of_mem_replicate hc]
    rfl

theorem literal_some (text : Text) : literal (some text) = quote text :=
  rfl

theorem writes_ofText (text : Text) : Writes (.ofText text) :=
  fun _ => .string text

theorem writes_ofNat (value : Nat) : Writes (.ofNat value) := by
  intro depth
  rw [ofNat, pretty]
  exact .whole value

private theorem spellsItems_pretty (depth : Nat) {item : Json} {items : List Json}
    (hitem : Writes item)
    (hitems : ∀ other ∈ items, Writes other) :
    SpellsItems (item :: items)
      ('\n' :: indentation (depth + 1) ++ item.pretty (depth + 1) ++ prettyItems depth items) := by
  have hbefore := isSpace_newline_indentation (depth + 1)
  induction items generalizing item with
  | nil =>
      have hafter := isSpace_newline_indentation depth
      simpa [prettyItems] using SpellsItems.last hbefore (hitem (depth + 1)) hafter
  | cons other items ih =>
      obtain ⟨hother, hitems⟩ := List.forall_mem_cons.mp hitems
      simpa [prettyItems] using SpellsItems.more hbefore (hitem (depth + 1)) (ih hother hitems)

theorem writes_array {items : List Json} (hitems : ∀ item ∈ items, Writes item) :
    Writes (.array items) := by
  intro depth
  cases items with
  | nil =>
      have hspace : IsSpace [] := fun _ hd => by contradiction
      rw [pretty]
      exact .noItems hspace
  | cons item items =>
      obtain ⟨hitem, hitems⟩ := List.forall_mem_cons.mp hitems
      rw [pretty]
      exact .items (spellsItems_pretty depth hitem hitems)

private theorem spellsMembers_pretty (depth : Nat) (name : Text) {value : Json}
    {members : List (Text × Json)} (hvalue : Writes value)
    (hmembers : ∀ member ∈ members, Writes member.2) :
    SpellsMembers (((name, value) :: members).map fun (name, value) => (some name, value))
      ('\n' :: indentation (depth + 1) ++ prettyMember (depth + 1) (some name, value) ++
        prettyMembers depth (members.map fun (name, value) => (some name, value))) := by
  have hbefore := isSpace_newline_indentation (depth + 1)
  have hbetween : IsSpace [' '] := by simp [IsSpace, isSpace]
  induction members generalizing name value with
  | nil =>
      have hafter := isSpace_newline_indentation depth
      have hlast : SpellsMembers [(some name, value)] _ :=
        .last hbefore hbetween (hvalue (depth + 1)) hafter
      simpa [prettyMembers, prettyMember, literal_some] using hlast
  | cons other members ih =>
      obtain ⟨otherName, otherValue⟩ := other
      obtain ⟨hother, hmembers⟩ := List.forall_mem_cons.mp hmembers
      have hmore : SpellsMembers ((some name, value) :: _) _ :=
        .more hbefore hbetween (hvalue (depth + 1)) (ih otherName hother hmembers)
      simpa [prettyMembers, prettyMember, literal_some] using hmore

theorem writes_record {members : List (Text × Json)} (hsome : members ≠ [])
    (hmembers : ∀ member ∈ members, Writes member.2) : Writes (record members) := by
  intro depth
  cases members with
  | nil => contradiction
  | cons member members =>
      obtain ⟨name, value⟩ := member
      obtain ⟨hvalue, hmembers⟩ := List.forall_mem_cons.mp hmembers
      rw [record, List.map_cons, pretty]
      exact .members (spellsMembers_pretty depth name hvalue hmembers)

end Docblock.Json
