import Docblock.Proofs.Text.Lowercase

namespace Docblock.Text

def IsRaised (c : Char) : Prop :=
  0x41 ≤ c.toNat ∧ (c.toNat ≤ 0x5a ∨ 0x80 ≤ c.toNat)

instance (c : Char) : Decidable (IsRaised c) :=
  inferInstanceAs (Decidable (_ ∧ _))

def raises (row : CaseRow) : Bool :=
  Nat.ble 0x41 row.image &&
    (Nat.ble (row.image + (row.last - row.first)) 0x5a || Nat.ble 0x80 row.image)

private theorem upperRows_raise :
    (upperRows.all fun row => row.hasCharImages && raises row) = true := by
  decide +kernel

private theorem upperExpansions_raise :
    (upperExpansions.all fun (_, codes) => codes.all fun code => IsRaised (Char.ofNat code)) =
      true := by
  decide +kernel

private theorem isRaised_of_apply {row : CaseRow} (hrow : row ∈ upperRows) {origin code : Nat}
    (happly : row.apply? origin = some code) : IsRaised (Char.ofNat code) := by
  have hraises := List.all_eq_true.mp upperRows_raise row hrow
  rw [Bool.and_eq_true] at hraises
  obtain ⟨distance, rfl, hle, -⟩ := CaseRow.exists_distance_of_apply happly
  rw [IsRaised, CaseRow.toNat_ofNat_of_hasCharImages hraises.1 hle]
  simp only [raises, Bool.and_eq_true, Bool.or_eq_true, Nat.ble_eq] at hraises
  omega

private theorem mem_upperOf {c d : Char} (hmem : d ∈ upperOf c) : d = c ∨ IsRaised d := by
  unfold upperOf at hmem
  split at hmem
  · next codes hlookup =>
      obtain ⟨code, hcode, rfl⟩ := List.mem_map.mp hmem
      have hentry : (c.toNat, codes) ∈ upperExpansions := by
        obtain ⟨before, after, hsplit, -⟩ := List.lookup_eq_some_iff.mp hlookup
        rw [hsplit]
        exact List.mem_append_right _ List.mem_cons_self
      have hcodes := List.all_eq_true.mp upperExpansions_raise _ hentry
      exact .inr (of_decide_eq_true (List.all_eq_true.mp hcodes code hcode))
  · obtain rfl := List.mem_singleton.mp hmem
    rcases mapCase_cases upperRows c with hsame | ⟨row, hrow, code, happly, himage⟩
    · exact .inl hsame
    · exact .inr (himage ▸ isRaised_of_apply hrow happly)

theorem mem_capitalize {word : Text} {c : Char} (hmem : c ∈ word.capitalize) :
    c ∈ word ∨ IsRaised c := by
  cases word with
  | nil => exact .inl hmem
  | cons first rest =>
      rcases List.mem_append.mp hmem with hfirst | hrest
      · rcases mem_upperOf hfirst with rfl | hraised
        · exact .inl List.mem_cons_self
        · exact .inr hraised
      · exact .inl (List.mem_cons_of_mem first hrest)

end Docblock.Text
