import Docblock.Proofs.Field.Insertion
import Mathlib.Data.List.Nodup

namespace Docblock.FieldMap

def Distinct (map : FieldMap) : Prop :=
  (map.fields.map Field.slot).Nodup

theorem distinct_ofList (entries : List Field) : (ofList entries).Distinct :=
  nodup_slots_ofList entries

section Readers

variable {map : FieldMap}

theorem Distinct.nodup (hdistinct : map.Distinct) : map.fields.Nodup :=
  hdistinct.of_map Field.slot

theorem Distinct.eq_of_slot_eq (hdistinct : map.Distinct) {left right : Field}
    (hleft : left ∈ map.fields) (hright : right ∈ map.fields) (hslot : left.slot = right.slot) :
    left = right :=
  List.inj_on_of_nodup_map hdistinct hleft hright hslot

theorem Distinct.find?_eq_some_iff (hdistinct : map.Distinct) {slot : Slot} {field : Field} :
    map.fields.find? (fun other => other.slot = slot) = some field ↔
      field ∈ map.fields ∧ field.slot = slot := by
  constructor
  · intro hfound
    exact ⟨List.mem_of_find?_eq_some hfound, by simpa using List.find?_some hfound⟩
  · rintro ⟨hmem, rfl⟩
    cases hfound : map.fields.find? (fun other => other.slot = field.slot) with
    | none => simpa using List.find?_eq_none.mp hfound field hmem
    | some other =>
        have hslot : other.slot = field.slot := by simpa using List.find?_some hfound
        rw [hdistinct.eq_of_slot_eq (List.mem_of_find?_eq_some hfound) hmem hslot]

theorem reserved?_eq_at? (tag : ReservedTag) : map.reserved? tag = map.at? (.reserved tag) := by
  obtain ⟨fields⟩ := map
  induction fields with
  | nil => rfl
  | cons field rest ih =>
      unfold reserved? at? at ih ⊢
      rw [List.findSome?_cons, List.find?_cons]
      cases field with
      | reserved other content =>
          by_cases htag : other = tag
          · simp [htag, Field.slot, Field.content]
          · simpa [htag, Field.slot] using ih
      | custom name content => simpa [Field.slot] using ih
      | snippet index content => simpa [Field.slot] using ih

theorem Distinct.reserved?_eq_some_iff (hdistinct : map.Distinct) {tag : ReservedTag}
    {content : Text} : map.reserved? tag = some content ↔ .reserved tag content ∈ map.fields := by
  rw [reserved?_eq_at?, at?, Option.map_eq_some_iff]
  constructor
  · rintro ⟨field, hfound, rfl⟩
    obtain ⟨hmem, hslot⟩ := hdistinct.find?_eq_some_iff.mp hfound
    cases field with
    | reserved other content => exact Slot.reserved.inj hslot ▸ hmem
    | custom name content => cases hslot
    | snippet index content => cases hslot
  · exact fun hmem => ⟨_, hdistinct.find?_eq_some_iff.mpr ⟨hmem, rfl⟩, rfl⟩

theorem mem_custom {name content : Text} :
    (name, content) ∈ map.custom ↔ .custom name content ∈ map.fields := by
  rw [custom, List.mem_filterMap]
  constructor
  · rintro ⟨field, hmem, hfield⟩
    cases field <;> simp_all
  · exact fun hmem => ⟨_, hmem, rfl⟩

theorem mem_snippets {index : Nat} {content : Text} :
    (index, content) ∈ map.snippets ↔ .snippet index content ∈ map.fields := by
  rw [snippets, List.mem_mergeSort, List.mem_filterMap]
  constructor
  · rintro ⟨field, hmem, hfield⟩
    cases field <;> simp_all
  · exact fun hmem => ⟨_, hmem, rfl⟩

private theorem pairwise_le_snippets (map : FieldMap) :
    map.snippets.Pairwise fun left right => left.1 ≤ right.1 := by
  refine (List.pairwise_mergeSort ?_ ?_ _).imp of_decide_eq_true
  · simp only [decide_eq_true_eq]
    exact fun _ _ _ => Nat.le_trans
  · simp only [Bool.or_eq_true, decide_eq_true_eq]
    exact fun _ _ => Nat.le_total _ _

theorem Distinct.nodup_custom (hdistinct : map.Distinct) : map.custom.Nodup := by
  apply hdistinct.nodup.filterMap
  rintro left right ⟨key, content⟩ hleft hright
  cases left <;> cases right <;> simp_all

theorem Distinct.nodup_snippets (hdistinct : map.Distinct) : map.snippets.Nodup := by
  refine (List.mergeSort_perm _ _).nodup_iff.mpr (hdistinct.nodup.filterMap ?_)
  rintro left right ⟨key, content⟩ hleft hright
  cases left <;> cases right <;> simp_all

theorem Distinct.pairwise_snippets (hdistinct : map.Distinct) :
    map.snippets.Pairwise fun left right => left.1 < right.1 := by
  refine ((pairwise_le_snippets map).and hdistinct.nodup_snippets).imp_of_mem ?_
  rintro ⟨first, text⟩ ⟨second, other⟩ hfirst hsecond ⟨hle, hne⟩
  apply Nat.lt_of_le_of_ne hle
  rintro rfl
  have hsame := hdistinct.eq_of_slot_eq (mem_snippets.mp hfirst) (mem_snippets.mp hsecond) rfl
  rw [(Field.snippet.inj hsame).2] at hne
  contradiction

end Readers

end Docblock.FieldMap
