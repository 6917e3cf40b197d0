import Docblock.Text.Case.Basic

namespace Docblock

/-! Lowering a text twice is lowering it once, since no character that lowering gives is
lowered again. -/

namespace CaseRow

theorem exists_distance_of_apply {row : CaseRow} {origin code : Nat}
    (happly : row.apply? origin = some code) :
    ∃ distance, code = row.image + distance ∧ distance ≤ row.last - row.first ∧
      distance % row.stride = 0 := by
  unfold CaseRow.apply? at happly
  split at happly
  · rename_i hrow
    exact ⟨origin - row.first, (Option.some.inj happly).symm, by omega, hrow.2.2⟩
  · contradiction

/-- Whether no image of a row belongs to another: the two lie apart, or one takes the even
code points and the other the odd ones. -/
def misses (row other : CaseRow) : Bool :=
  (row.image + (row.last - row.first)).blt other.first || other.last.blt row.image ||
    (other.stride.beq 2 && (row.stride.beq 2 || (row.last - row.first).beq 0) &&
      ((row.image + other.first) % 2).beq 1)

theorem apply_eq_none_of_misses {row other : CaseRow} (hmisses : row.misses other = true)
    {distance : Nat} (hle : distance ≤ row.last - row.first)
    (hstride : distance % row.stride = 0) : other.apply? (row.image + distance) = none := by
  unfold CaseRow.apply?
  refine if_neg ?_
  rintro ⟨hfirst, hlast, hother⟩
  simp only [misses, Bool.or_eq_true, Bool.and_eq_true, Nat.blt_eq, Nat.beq_eq] at hmisses
  rcases hmisses with (hbelow | habove) | ⟨⟨htwo, hsteps⟩, hparity⟩
  · omega
  · omega
  · rw [htwo] at hother
    rcases hsteps with htwo' | hsingle
    · rw [htwo'] at hstride
      omega
    · omega

def hasCharImages (row : CaseRow) : Bool :=
  row.image + (row.last - row.first) < 0xd800 ||
    0xdfff < row.image && row.image + (row.last - row.first) < 0x110000

theorem toNat_ofNat_of_hasCharImages {row : CaseRow} (hchars : row.hasCharImages = true)
    {distance : Nat} (hle : distance ≤ row.last - row.first) :
    (Char.ofNat (row.image + distance)).toNat = row.image + distance := by
  simp only [hasCharImages, Bool.or_eq_true, Bool.and_eq_true, decide_eq_true_eq] at hchars
  have hvalid : (row.image + distance).isValidChar := by
    unfold Nat.isValidChar
    omega
  rw [Char.ofNat, dif_pos hvalid]
  rfl

end CaseRow

theorem lowerRows_miss :
    (lowerRows.all fun row => lowerRows.all row.misses) = true := by
  decide +kernel

theorem lowerRows_miss_dotted :
    (lowerRows.all fun row => row.misses ⟨0x130, 0x130, 1, 0⟩) = true := by
  decide +kernel

theorem lowerRows_hasCharImages : lowerRows.all CaseRow.hasCharImages = true := by
  decide +kernel

theorem mapCase_cases (rows : List CaseRow) (c : Char) :
    mapCase rows c = c ∨
      ∃ row ∈ rows, ∃ code, row.apply? c.toNat = some code ∧ mapCase rows c = Char.ofNat code := by
  cases hfound : rows.findSome? fun row => row.apply? c.toNat with
  | none =>
      left
      rw [mapCase, hfound]
      rfl
  | some code =>
      right
      obtain ⟨row, hrow, happly⟩ := List.exists_of_findSome?_eq_some hfound
      refine ⟨row, hrow, code, happly, ?_⟩
      rw [mapCase, hfound]
      rfl

private theorem mapCase_eq_self {rows : List CaseRow} {c : Char}
    (hnone : ∀ row ∈ rows, row.apply? c.toNat = none) : mapCase rows c = c := by
  rw [mapCase, List.findSome?_eq_none_iff.mpr hnone]
  rfl

namespace Text

/-- Whether a character is its own lowercase form wherever it stands. -/
structure IsLower (c : Char) : Prop where
  ne_sigma : c ≠ 'Σ'
  ne_dotted : c ≠ 'İ'
  mapCase_eq : mapCase lowerRows c = c

instance (c : Char) : Decidable (IsLower c) :=
  decidable_of_iff (c ≠ 'Σ' ∧ c ≠ 'İ' ∧ mapCase lowerRows c = c)
    ⟨fun h => ⟨h.1, h.2.1, h.2.2⟩, fun h => ⟨h.ne_sigma, h.ne_dotted, h.mapCase_eq⟩⟩

theorem IsLower.lowerIn {c : Char} (hlower : IsLower c) (before after : Text) :
    lowerIn before c after = [c] := by
  rw [Text.lowerIn, if_neg hlower.ne_sigma, if_neg hlower.ne_dotted, hlower.mapCase_eq]

/-- An image of a row is in no row, and so it is neither of the characters with a rule of
their own: one of them is in a row, and the other has been looked up. -/
theorem isLower_of_apply {row : CaseRow} (hrow : row ∈ lowerRows) {origin code : Nat}
    (happly : row.apply? origin = some code) : IsLower (Char.ofNat code) := by
  obtain ⟨distance, rfl, hle, hstride⟩ := CaseRow.exists_distance_of_apply happly
  have hcode := CaseRow.toNat_ofNat_of_hasCharImages
    (List.all_eq_true.mp lowerRows_hasCharImages row hrow) hle
  have hmiss : ∀ other ∈ lowerRows, other.apply? (row.image + distance) = none :=
    fun other hother => CaseRow.apply_eq_none_of_misses
      (List.all_eq_true.mp (List.all_eq_true.mp lowerRows_miss row hrow) other hother) hle hstride
  constructor
  · intro hsigma
    rw [hsigma] at hcode
    have hnone := hmiss ⟨0x3a3, 0x3ab, 1, 0x3c3⟩ (by decide)
    rw [← hcode] at hnone
    contradiction
  · intro hdotted
    rw [hdotted] at hcode
    have hnone := CaseRow.apply_eq_none_of_misses
      (List.all_eq_true.mp lowerRows_miss_dotted row hrow) hle hstride
    rw [← hcode] at hnone
    contradiction
  · apply mapCase_eq_self
    rwa [hcode]

private theorem isLower_of_mem_lowerIn {before after : Text} {c d : Char}
    (hmem : d ∈ lowerIn before c after) : IsLower d := by
  unfold lowerIn at hmem
  split at hmem
  · have hd : d = 'ς' ∨ d = 'σ' := by
      split at hmem <;> simp_all
    rcases hd with rfl | rfl <;> decide +kernel
  · rename_i hsigma
    split at hmem
    · have hd : d = 'i' ∨ d = '\u0307' := by simpa using hmem
      rcases hd with rfl | rfl <;> decide +kernel
    · rename_i hdotted
      obtain rfl := List.mem_singleton.mp hmem
      rcases mapCase_cases lowerRows c with hsame | ⟨row, hrow, code, happly, himage⟩
      · rw [hsame]
        exact ⟨hsigma, hdotted, hsame⟩
      · rw [himage]
        exact isLower_of_apply hrow happly

private theorem isLower_of_mem_lowerFrom {before text : Text} {c : Char}
    (hmem : c ∈ lowerFrom before text) : IsLower c := by
  induction text generalizing before with
  | nil => contradiction
  | cons first rest ih =>
      rcases List.mem_append.mp hmem with hfirst | hrest
      · exact isLower_of_mem_lowerIn hfirst
      · exact ih hrest

theorem isLower_of_mem_lower {text : Text} {c : Char} (hmem : c ∈ text.lower) : IsLower c :=
  isLower_of_mem_lowerFrom hmem

private theorem lowerFrom_eq_self {before text : Text} (hlower : ∀ c ∈ text, IsLower c) :
    lowerFrom before text = text := by
  induction text generalizing before with
  | nil => rfl
  | cons c rest ih =>
      rw [List.forall_mem_cons] at hlower
      rw [lowerFrom, hlower.1.lowerIn, ih hlower.2]
      rfl

theorem lower_eq_self_iff {text : Text} : text.lower = text ↔ ∀ c ∈ text, IsLower c :=
  ⟨fun hself _ hc => isLower_of_mem_lower (hself ▸ hc), lowerFrom_eq_self⟩

theorem lower_lower (text : Text) : text.lower.lower = text.lower :=
  lower_eq_self_iff.mpr fun _ => isLower_of_mem_lower

end Text

theorem toLower_of_not_capital {c : Char} (hnot : ¬ (0x41 ≤ c.toNat ∧ c.toNat ≤ 0x5a)) :
    c.toLower = c :=
  dif_neg hnot

private theorem toLower_of_capital {c : Char} (hfirst : 0x41 ≤ c.toNat) (hlast : c.toNat ≤ 0x5a) :
    c.toLower = Char.ofNat (0x61 + (c.toNat - 0x41)) := by
  have hcapitals : ∀ code < 0x5b, 0x41 ≤ code →
      (Char.ofNat code).toLower = Char.ofNat (0x61 + (code - 0x41)) := by
    decide
  have hlower := hcapitals c.toNat (by omega) hfirst
  rwa [Char.ofNat_toNat] at hlower

private theorem lowerRows_tail_beyond_ascii :
    (lowerRows.tail.all fun row => Nat.ble 0x80 row.first) = true := by
  decide

theorem mapCase_lowerRows_of_ascii {c : Char} (hascii : c.toNat < 0x80) :
    mapCase lowerRows c = c.toLower := by
  have hothers : (lowerRows.tail.findSome? fun row => row.apply? c.toNat) = none := by
    refine List.findSome?_eq_none_iff.mpr fun row hrow => if_neg ?_
    have hfirst := Nat.le_of_ble_eq_true
      (List.all_eq_true.mp lowerRows_tail_beyond_ascii row hrow)
    omega
  have hrows : lowerRows = ⟨0x41, 0x5a, 1, 0x61⟩ :: lowerRows.tail := rfl
  rw [mapCase, hrows, List.findSome?_cons, hothers, CaseRow.apply?]
  by_cases hcapital : 0x41 ≤ c.toNat ∧ c.toNat ≤ 0x5a
  · rw [if_pos ⟨hcapital.1, hcapital.2, Nat.mod_one _⟩, toLower_of_capital hcapital.1 hcapital.2]
    rfl
  · rw [if_neg fun hrow => hcapital ⟨hrow.1, hrow.2.1⟩, toLower_of_not_capital hcapital]
    rfl

namespace Text

theorem IsLower.toLower_eq {c : Char} (hlower : IsLower c) : c.toLower = c := by
  by_cases hascii : c.toNat < 0x80
  · rw [← mapCase_lowerRows_of_ascii hascii, hlower.mapCase_eq]
  · exact toLower_of_not_capital (by omega)

theorem map_toLower_of_lower_eq_self {text : Text} (hself : text.lower = text) :
    text.map Char.toLower = text := by
  have hsame : text.map Char.toLower = text.map id :=
    List.map_congr_left fun c hc => (lower_eq_self_iff.mp hself c hc).toLower_eq
  rw [hsame, List.map_id]

private theorem lowerIn_of_ascii {c : Char} (hascii : c.toNat < 0x80) (before after : Text) :
    lowerIn before c after = [c.toLower] := by
  have hsigma : c ≠ 'Σ' := by
    rintro rfl
    contradiction
  have hdotted : c ≠ 'İ' := by
    rintro rfl
    contradiction
  rw [lowerIn, if_neg hsigma, if_neg hdotted, mapCase_lowerRows_of_ascii hascii]

theorem lowerFrom_eq_map_toLower {before text : Text}
    (hplain : ∀ c ∈ text, c.toNat < 0x80 ∨ IsLower c) :
    lowerFrom before text = text.map Char.toLower := by
  induction text generalizing before with
  | nil => rfl
  | cons c rest ih =>
      rw [List.forall_mem_cons] at hplain
      rw [lowerFrom, ih hplain.2, List.map_cons]
      rcases hplain.1 with hascii | hlower
      · rw [lowerIn_of_ascii hascii]
        rfl
      · rw [hlower.lowerIn, hlower.toLower_eq]
        rfl

end Text
end Docblock
