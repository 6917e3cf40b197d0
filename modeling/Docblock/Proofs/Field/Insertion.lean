import Docblock.Field

namespace Docblock

/-! Insertion keeps one field a slot.  A field with a new slot goes behind all others. -/

namespace Field

def isWritten : Field → Bool
  | .snippet _ _ => false
  | _ => true

def index? : Field → Option Nat
  | .snippet index _ => some index
  | _ => none

theorem isWritten_classify (name content : Text) : (classify name content).isWritten = true := by
  unfold classify
  cases ReservedTag.ofName? name <;> rfl

theorem slot_ne_snippet {field : Field} (hwritten : field.isWritten = true) (index : Nat) :
    field.slot ≠ .snippet index := by
  cases field with
  | reserved tag content => exact Slot.noConfusion
  | custom name content => exact Slot.noConfusion
  | snippet other content => contradiction

end Field

namespace FieldMap

theorem mem_of_mem_put {field entry : Field} {fields : List Field}
    (hmem : field ∈ put entry fields) : field = entry ∨ field ∈ fields := by
  induction fields with
  | nil => exact .inl (List.mem_singleton.mp hmem)
  | cons other rest ih =>
      rw [put] at hmem
      split at hmem
      · exact (List.mem_cons.mp hmem).imp_right (List.mem_cons_of_mem other)
      · rcases List.mem_cons.mp hmem with rfl | hrest
        · exact .inr List.mem_cons_self
        · exact (ih hrest).imp_right (List.mem_cons_of_mem other)

theorem slots_put (entry : Field) (fields : List Field) :
    (put entry fields).map Field.slot =
      if entry.slot ∈ fields.map Field.slot then fields.map Field.slot
      else fields.map Field.slot ++ [entry.slot] := by
  induction fields with
  | nil => rfl
  | cons other rest ih =>
      rw [put]
      by_cases hslot : other.slot = entry.slot
      · simp [hslot]
      · rw [if_neg hslot, List.map_cons, ih]
        by_cases hmem : entry.slot ∈ rest.map Field.slot
        · rw [if_pos hmem, if_pos (by simp [List.mem_map.mp hmem]), List.map_cons]
        · have hnew : entry.slot ∉ (other :: rest).map Field.slot := by
            rw [List.map_cons, List.mem_cons, not_or]
            exact ⟨fun heq => hslot heq.symm, hmem⟩
          rw [if_neg hmem, if_neg hnew, List.map_cons, List.cons_append]

private theorem nodup_slots_put (entry : Field) {fields : List Field}
    (hnodup : (fields.map Field.slot).Nodup) :
    ((put entry fields).map Field.slot).Nodup := by
  rw [slots_put]
  split
  · exact hnodup
  · rename_i hnew
    rw [List.nodup_append]
    refine ⟨hnodup, List.pairwise_singleton _ _, ?_⟩
    intro slot hslot new hmem heq
    rw [List.mem_singleton] at hmem
    exact hnew (hmem ▸ heq ▸ hslot)

theorem put_of_not_mem {entry : Field} {fields : List Field}
    (hnew : entry.slot ∉ fields.map Field.slot) : put entry fields = fields ++ [entry] := by
  induction fields with
  | nil => rfl
  | cons other rest ih =>
      rw [List.map_cons, List.mem_cons, not_or] at hnew
      rw [put, if_neg (fun heq => hnew.1 heq.symm), ih hnew.2, List.cons_append]

private theorem mem_of_mem_foldl_insert {field : Field} {entries : List Field} {map : FieldMap}
    (hmem : field ∈ (entries.foldl insert map).fields) :
    field ∈ map.fields ∨ field ∈ entries := by
  induction entries generalizing map with
  | nil => exact .inl hmem
  | cons entry rest ih =>
      rcases ih hmem with hinserted | hrest
      · rcases mem_of_mem_put hinserted with rfl | hmap
        · exact .inr List.mem_cons_self
        · exact .inl hmap
      · exact .inr (List.mem_cons_of_mem entry hrest)

private theorem nodup_slots_foldl_insert (entries : List Field) {map : FieldMap}
    (hnodup : (map.fields.map Field.slot).Nodup) :
    ((entries.foldl insert map).fields.map Field.slot).Nodup := by
  induction entries generalizing map with
  | nil => exact hnodup
  | cons entry rest ih => exact ih (nodup_slots_put entry hnodup)

theorem mem_of_mem_ofList {field : Field} {entries : List Field}
    (hmem : field ∈ (ofList entries).fields) : field ∈ entries :=
  (mem_of_mem_foldl_insert hmem).resolve_left List.not_mem_nil

theorem nodup_slots_ofList (entries : List Field) :
    ((ofList entries).fields.map Field.slot).Nodup :=
  nodup_slots_foldl_insert entries List.nodup_nil

theorem fields_ofList_ne_nil {entries : List Field} (hne : entries ≠ []) :
    (ofList entries).fields ≠ [] := by
  rcases List.eq_nil_or_concat entries with rfl | ⟨front, entry, rfl⟩
  · contradiction
  · intro hnil
    have hslots := slots_put entry (ofList front).fields
    rw [List.concat_eq_append, ofList, List.foldl_append] at hnil
    rw [show put entry (ofList front).fields = [] from hnil] at hslots
    split at hslots
    · rename_i hmem
      rw [← hslots] at hmem
      contradiction
    · simp at hslots

theorem fields_foldl_insert_of_nodup {entries : List Field} {map : FieldMap}
    (hnodup : ((map.fields ++ entries).map Field.slot).Nodup) :
    (entries.foldl insert map).fields = map.fields ++ entries := by
  induction entries generalizing map with
  | nil => exact (List.append_nil _).symm
  | cons entry rest ih =>
      have hnew : entry.slot ∉ map.fields.map Field.slot := by
        rw [List.map_append, List.nodup_append] at hnodup
        intro hmem
        exact hnodup.2.2 _ hmem _ (List.mem_map_of_mem List.mem_cons_self) rfl
      have hinsert : (map.insert entry).fields = map.fields ++ [entry] := put_of_not_mem hnew
      rw [List.foldl_cons, ih]
      · rw [hinsert, List.append_assoc, List.singleton_append]
      · rwa [hinsert, List.append_assoc, List.singleton_append]

end FieldMap
end Docblock
