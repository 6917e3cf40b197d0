import Docblock.Proofs.Span.Nesting
import Mathlib.Order.Monotone.Basic

namespace Docblock

namespace Span

/-! The state of a pairing is the start of the region that is open.  Each token gives the
next state, and the region that it closes if it closes one. -/

section Steps

variable (language : Language) (markers : MarkerPair) (excluded : List Span)

def openedAfter (opened : Option Nat) (index : Nat) (token : Token) : Option Nat :=
  if excluded.any fun span => span.covers index then opened
  else if Token.isMarker language markers.start token.text then some (opened.getD index)
  else if Token.isMarker language markers.close token.text then none
  else opened

def closedBy (opened : Option Nat) (index : Nat) (token : Token) : Option Span :=
  if excluded.any fun span => span.covers index then none
  else if Token.isMarker language markers.start token.text then none
  else if Token.isMarker language markers.close token.text then
    opened.map fun start => ⟨start, some index, markers.kind⟩
  else none

def openFrom : Option Nat → Nat → List Token → Option Nat
  | opened, _, [] => opened
  | opened, index, token :: rest =>
      openFrom (openedAfter language markers excluded opened index token) (index + 1) rest

/-- The start of the region that a pairing leaves out because no end marker follows. -/
def leftOpen (tokens : List Token) : Option Nat :=
  openFrom language markers excluded none 0 tokens

end Steps

variable {language : Language} {markers : MarkerPair} {excluded : List Span}

theorem pairFrom_cons (opened : Option Nat) (index : Nat) (token : Token) (rest : List Token) :
    pairFrom language markers excluded opened index (token :: rest) =
      (closedBy language markers excluded opened index token).toList ++
        pairFrom language markers excluded
          (openedAfter language markers excluded opened index token) (index + 1) rest := by
  rw [pairFrom.eq_def, closedBy, openedAfter]
  cases hlive : excluded.any fun span => span.covers index with
  | true => simp [hlive]
  | false =>
      cases hstart : Token.isMarker language markers.start token.text with
      | true => simp [hlive, hstart]
      | false =>
          cases hclose : Token.isMarker language markers.close token.text with
          | true => cases opened <;> simp [hlive, hstart, hclose]
          | false => simp [hlive, hstart, hclose]

theorem pairFrom_append (opened : Option Nat) (index : Nat) (left right : List Token) :
    pairFrom language markers excluded opened index (left ++ right) =
      pairFrom language markers excluded opened index left ++
        pairFrom language markers excluded (openFrom language markers excluded opened index left)
          (index + left.length) right := by
  induction left generalizing opened index with
  | nil => rfl
  | cons token left ih =>
      rw [List.cons_append, pairFrom_cons, ih, pairFrom_cons, List.append_assoc, openFrom,
        List.length_cons, Nat.add_right_comm, Nat.add_assoc]

theorem openFrom_append (opened : Option Nat) (index : Nat) (left right : List Token) :
    openFrom language markers excluded opened index (left ++ right) =
      openFrom language markers excluded (openFrom language markers excluded opened index left)
        (index + left.length) right := by
  induction left generalizing opened index with
  | nil => rfl
  | cons token left ih =>
      rw [List.cons_append, openFrom, ih, openFrom, List.length_cons, Nat.add_right_comm,
        Nat.add_assoc]

private theorem close_of_mem_pairFrom {opened : Option Nat} {index : Nat} {tokens : List Token}
    {span : Span} (hmem : span ∈ pairFrom language markers excluded opened index tokens) :
    ∃ close, span.close = some close ∧ index ≤ close ∧ close < index + tokens.length := by
  induction tokens generalizing opened index with
  | nil => simp [pairFrom] at hmem
  | cons token rest ih =>
      have hlater : ∀ {next},
          span ∈ pairFrom language markers excluded next (index + 1) rest →
            ∃ close, span.close = some close ∧ index ≤ close ∧
              close < index + (rest.length + 1) := by
        intro next hnext
        obtain ⟨close, hclose, hle, hlt⟩ := ih hnext
        exact ⟨close, hclose, by omega, by omega⟩
      rcases pairFrom_cons_cases language markers excluded opened index token rest with
        hidle | ⟨-, -, hopens⟩ | ⟨start, -, -, hcloses⟩
      · exact hlater (hidle ▸ hmem)
      · exact hlater (hopens ▸ hmem)
      · rw [hcloses, List.mem_cons] at hmem
        rcases hmem with rfl | hmem
        · exact ⟨index, rfl, Nat.le_refl _, by simp⟩
        · exact hlater hmem

theorem close_of_mem_pair {tokens : List Token} {span : Span}
    (hmem : span ∈ pair language markers excluded tokens) :
    ∃ close, span.close = some close ∧ span.start < close ∧ close < tokens.length := by
  obtain ⟨close, hclose, hlt, -⟩ := (paired_of_mem_pair hmem).closed
  obtain ⟨other, hother, -, hbound⟩ := close_of_mem_pairFrom hmem
  obtain rfl : close = other := Option.some.inj (hclose.symm.trans hother)
  exact ⟨close, hclose, hlt, by omega⟩

def reindex (index : Nat → Nat) (span : Span) : Span :=
  ⟨index span.start, span.close.map index, span.kind⟩

@[simp] theorem reindex_id (span : Span) : span.reindex id = span := by
  simp [reindex]

@[simp] theorem map_reindex_id (spans : List Span) : spans.map (reindex id) = spans := by
  rw [List.map_congr_left fun span _ => span.reindex_id, List.map_id']

private theorem reindex_covers {index : Nat → Nat} (hmono : StrictMono index) (span : Span)
    (i : Nat) :
    (span.reindex index).covers (index i) = span.covers i := by
  simp only [covers, reindex, Option.any_map, hmono.le_iff_le]

theorem reindex_encloses {index : Nat → Nat} (hmono : StrictMono index) (outer inner : Span) :
    (outer.reindex index).encloses (inner.reindex index) = outer.encloses inner := by
  simp only [encloses, reindex]
  cases outer.close with
  | none => rfl
  | some outerClose =>
      cases inner.close with
      | none => rfl
      | some innerClose => simp only [Option.map_some, hmono.lt_iff_lt]

theorem live_append {left right : List Span} {i : Nat} :
    Live (left ++ right) i ↔ Live left i ∧ Live right i := by
  rw [Live, List.any_append, Bool.or_eq_false_iff]
  rfl

theorem live_reindex {index : Nat → Nat} (hmono : StrictMono index) {i : Nat} :
    Live (excluded.map (reindex index)) (index i) ↔ Live excluded i := by
  rw [Live, List.any_map, Live]
  simp only [Function.comp_def, reindex_covers hmono]

theorem live_of_lt {i : Nat} (hlt : ∀ span ∈ excluded, i < span.start) : Live excluded i := by
  rw [Live, List.any_eq_false]
  intro span hspan
  have hstart := hlt span hspan
  simp only [covers, Option.any_eq_true]
  rintro ⟨close, -, hcovers⟩
  simp only [Bool.and_eq_true, decide_eq_true_eq] at hcovers
  omega

theorem live_of_gt {i : Nat}
    (hgt : ∀ span ∈ excluded, ∃ close, span.close = some close ∧ close < i) :
    Live excluded i := by
  rw [Live, List.any_eq_false]
  intro span hspan
  obtain ⟨close, hclose, hlt⟩ := hgt span hspan
  rw [Bool.not_eq_true, not_covers_iff hclose]
  exact .inr hlt

/-- Two rows of tokens with the same words, of which the same ones are excluded, where the
second row has other indices. -/
structure Renumbered (index : Nat → Nat) (excluded excluded' : List Span) (first first' : Nat)
    (tokens tokens' : List Token) : Prop where
  texts : tokens'.map Token.text = tokens.map Token.text
  index_add : ∀ i < tokens.length, index (first + i) = first' + i
  live_iff : ∀ i < tokens.length, Live excluded' (first' + i) ↔ Live excluded (first + i)

section Renumbering

variable {index : Nat → Nat} {excluded' : List Span} {opened : Option Nat} {first first' : Nat}
  {token token' : Token} {tokens tokens' : List Token}

theorem Renumbered.exists_cons
    (hrows : Renumbered index excluded excluded' first first' (token :: tokens) tokens') :
    ∃ token' rest', tokens' = token' :: rest' ∧ token'.text = token.text ∧
      index first = first' ∧ (Live excluded' first' ↔ Live excluded first) ∧
      Renumbered index excluded excluded' (first + 1) (first' + 1) tokens rest' := by
  obtain ⟨htexts, hindex, hlive⟩ := hrows
  cases tokens' with
  | nil => simp at htexts
  | cons token' rest' =>
      rw [List.map_cons, List.map_cons, List.cons.injEq] at htexts
      refine ⟨token', rest', rfl, htexts.1, hindex 0 (by simp), hlive 0 (by simp), htexts.2, ?_, ?_⟩
      · intro i hi
        have hnext := hindex (i + 1) (by simpa using hi)
        rwa [Nat.add_right_comm, Nat.add_assoc, Nat.add_right_comm first', Nat.add_assoc first']
      · intro i hi
        have hnext := hlive (i + 1) (by simpa using hi)
        rwa [Nat.add_right_comm, Nat.add_assoc, Nat.add_right_comm first, Nat.add_assoc first]

theorem any_covers_eq (hlive : Live excluded' first' ↔ Live excluded first) :
    (excluded'.any fun span => span.covers first') =
      excluded.any fun span => span.covers first := by
  rw [Bool.eq_iff_iff, ← Bool.not_eq_false, ← Bool.not_eq_false]
  exact not_congr hlive

theorem openedAfter_renumbered (htext : token'.text = token.text) (hindex : index first = first')
    (hlive : Live excluded' first' ↔ Live excluded first) :
    openedAfter language markers excluded' (opened.map index) first' token' =
      (openedAfter language markers excluded opened first token).map index := by
  rw [openedAfter, openedAfter, any_covers_eq hlive, htext]
  split
  · rfl
  · split
    · cases opened with
      | none => simp [hindex]
      | some start => rfl
    · split <;> rfl

private theorem closedBy_renumbered (htext : token'.text = token.text)
    (hindex : index first = first')
    (hlive : Live excluded' first' ↔ Live excluded first) :
    closedBy language markers excluded' (opened.map index) first' token' =
      (closedBy language markers excluded opened first token).map (reindex index) := by
  rw [closedBy, closedBy, any_covers_eq hlive, htext]
  split
  · rfl
  · split
    · rfl
    · split
      · cases opened with
        | none => rfl
        | some start => simp [reindex, hindex]
      · rfl

theorem pairFrom_renumbered (language : Language) (markers : MarkerPair) (opened : Option Nat)
    (hrows : Renumbered index excluded excluded' first first' tokens tokens') :
    pairFrom language markers excluded' (opened.map index) first' tokens' =
      (pairFrom language markers excluded opened first tokens).map (reindex index) := by
  induction tokens generalizing opened first first' tokens' with
  | nil =>
      obtain rfl : tokens' = [] := by simpa using hrows.texts
      rfl
  | cons token rest ih =>
      obtain ⟨token', rest', rfl, htext, hindex, hlive, hrest⟩ := hrows.exists_cons
      rw [pairFrom_cons, pairFrom_cons, openedAfter_renumbered htext hindex hlive,
        closedBy_renumbered htext hindex hlive, ih _ hrest, List.map_append, Option.toList_map]

theorem openFrom_renumbered (language : Language) (markers : MarkerPair) (opened : Option Nat)
    (hrows : Renumbered index excluded excluded' first first' tokens tokens') :
    openFrom language markers excluded' (opened.map index) first' tokens' =
      (openFrom language markers excluded opened first tokens).map index := by
  induction tokens generalizing opened first first' tokens' with
  | nil =>
      obtain rfl : tokens' = [] := by simpa using hrows.texts
      rfl
  | cons token rest ih =>
      obtain ⟨token', rest', rfl, htext, hindex, hlive, hrest⟩ := hrows.exists_cons
      rw [openFrom, openFrom, openedAfter_renumbered htext hindex hlive, ih _ hrest]

theorem leftOpen_congr {language : Language} {markers : MarkerPair}
    (htexts : tokens'.map Token.text = tokens.map Token.text) :
    leftOpen language markers [] tokens' = leftOpen language markers [] tokens := by
  have hrows : Renumbered id [] [] 0 0 tokens tokens' :=
    ⟨htexts, fun _ _ => rfl, fun _ _ => Iff.rfl⟩
  have hstate := openFrom_renumbered language markers none hrows
  rwa [Option.map_none, Option.map_id] at hstate

theorem leftOpen_append_start {language : Language} {markers : MarkerPair} {earlier : List Token}
    (hopen : leftOpen language markers [] earlier = none)
    (hstart : Token.isMarker language markers.start token.text = true) :
    leftOpen language markers [] (earlier ++ [token]) = some earlier.length := by
  rw [leftOpen] at hopen
  rw [leftOpen, openFrom_append, hopen, Nat.zero_add]
  simp [openFrom, openedAfter, hstart]

end Renumbering

end Span
end Docblock
