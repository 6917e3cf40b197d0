import Docblock.Proofs.Field.Readers
import Docblock.Proofs.Lists
import Mathlib.Data.Finset.Card
import Mathlib.Data.List.Induction

namespace Docblock

/-! A map that is filled by insertions holds the last field of each slot, and its slots stand
in the order in which they were first filled. -/

inductive Slot.NamedBy : Text → Slot → Prop where
  | reserved (tag : ReservedTag) : NamedBy tag.toText (.reserved tag)
  | note : NamedBy "note".toList (.reserved .notes)
  | custom {name : Text} (hreserved : ∀ tag : ReservedTag, name ≠ tag.toText)
      (hnote : name ≠ "note".toList) : NamedBy name (.custom name)

private theorem ReservedTag.ofName?_eq_none {name : Text}
    (hreserved : ∀ tag : ReservedTag, name ≠ tag.toText) (hnote : name ≠ "note".toList) :
    ReservedTag.ofName? name = none := by
  have hname : name ≠ "name".toList := hreserved .name
  have hbrief : name ≠ "brief".toList := hreserved .brief
  have hnotes : ¬ (name = "notes".toList ∨ name = "note".toList) :=
    not_or_intro (hreserved .notes) hnote
  have hinputs : name ≠ "inputs".toList := hreserved .inputs
  have houtputs : name ≠ "outputs".toList := hreserved .outputs
  rw [ofName?, if_neg hname, if_neg hbrief, if_neg hnotes, if_neg hinputs, if_neg houtputs]

theorem Slot.NamedBy.ofName_eq {name : Text} {slot : Slot} (hnamed : Slot.NamedBy name slot) :
    Slot.ofName name = slot := by
  cases hnamed with
  | reserved tag => cases tag <;> rfl
  | note => rfl
  | custom hreserved hnote => rw [Slot.ofName, ReservedTag.ofName?_eq_none hreserved hnote]

theorem Slot.namedBy_ofName (name : Text) : Slot.NamedBy name (Slot.ofName name) := by
  have hnamed : ∃ slot, Slot.NamedBy name slot := by
    by_cases hreserved : ∃ tag : ReservedTag, name = tag.toText
    · obtain ⟨tag, rfl⟩ := hreserved
      exact ⟨_, .reserved tag⟩
    · by_cases hnote : name = "note".toList
      · subst hnote
        exact ⟨_, .note⟩
      · exact ⟨_, .custom (fun tag htag => hreserved ⟨tag, htag⟩) hnote⟩
  obtain ⟨slot, hslot⟩ := hnamed
  rwa [hslot.ofName_eq]

namespace FieldMap

def last? (entries : List Field) (slot : Slot) : Option Field :=
  (entries.filter fun field => field.slot = slot).getLast?

private theorem last?_append_singleton (entries : List Field) (entry : Field) (slot : Slot) :
    last? (entries ++ [entry]) slot =
      if entry.slot = slot then some entry else last? entries slot := by
  rw [last?, List.filter_append, List.getLast?_append]
  split
  · simp_all
  · simp_all [last?]

private theorem find?_put (entry : Field) (fields : List Field) (slot : Slot) :
    (put entry fields).find? (fun field => field.slot = slot) =
      if entry.slot = slot then some entry
      else fields.find? fun field => field.slot = slot := by
  induction fields with
  | nil => simp [put, List.find?_singleton]
  | cons other rest ih =>
      rw [put]
      by_cases hother : other.slot = entry.slot
      · -- The field that is replaced has the slot of the entry, so it hides no other.
        rw [if_pos hother, List.find?_cons, List.find?_cons, hother]
        by_cases hentry : entry.slot = slot <;> simp [hentry]
      · rw [if_neg hother, List.find?_cons, List.find?_cons, ih]
        by_cases hentry : entry.slot = slot
        · subst hentry
          simp [hother]
        · simp [hentry]

/-- A map that holds what a row of insertions leaves. -/
structure Records (entries : List Field) (map : FieldMap) : Prop where
  slots_eq : map.fields.map Field.slot = (entries.map Field.slot).eraseDups
  find?_eq : ∀ slot, map.fields.find? (fun field => field.slot = slot) = last? entries slot

theorem Records.insert {entries : List Field} {map : FieldMap} (hrecords : Records entries map)
    (entry : Field) : Records (entries ++ [entry]) (map.insert entry) where
  slots_eq := by
    rw [List.map_append, List.map_singleton, eraseDups_append_singleton, ← hrecords.slots_eq]
    refine (slots_put entry map.fields).trans (if_congr ?_ rfl rfl)
    rw [hrecords.slots_eq, List.mem_eraseDups]
  find?_eq slot := by
    rw [last?_append_singleton, ← hrecords.find?_eq slot]
    exact find?_put entry map.fields slot

theorem records_ofList (entries : List Field) : Records entries (ofList entries) := by
  induction entries using List.reverseRecOn with
  | nil => exact ⟨rfl, fun _ => rfl⟩
  | append_singleton entries entry ih =>
      rw [ofList, List.foldl_append]
      exact ih.insert entry

private theorem Records.at?_eq {entries : List Field} {map : FieldMap}
    (hrecords : Records entries map)
    (slot : Slot) : map.at? slot = (last? entries slot).map Field.content := by
  rw [at?, hrecords.find?_eq]

private theorem mem_ofList_iff {entries : List Field} {field : Field} :
    field ∈ (ofList entries).fields ↔ last? entries field.slot = some field := by
  rw [← (records_ofList entries).find?_eq, (distinct_ofList entries).find?_eq_some_iff]
  exact (and_iff_left rfl).symm

private theorem size_ofList (entries : List Field) :
    (ofList entries).size = (entries.map Field.slot).toFinset.card := by
  have hslots : ((ofList entries).fields.map Field.slot).toFinset =
      (entries.map Field.slot).toFinset := by
    ext slot
    rw [(records_ofList entries).slots_eq, List.mem_toFinset, List.mem_eraseDups,
      List.mem_toFinset]
  rw [← hslots, List.toFinset_card_of_nodup (distinct_ofList entries), List.length_map, size]

private theorem mem_snippet_indices_iff {entries : List Field} {index : Nat} :
    index ∈ (ofList entries).snippets.map Prod.fst ↔
      .snippet index ∈ entries.map Field.slot := by
  rw [← List.mem_eraseDups (l := entries.map Field.slot), ← (records_ofList entries).slots_eq,
    List.mem_map, List.mem_map]
  constructor
  · rintro ⟨⟨index, content⟩, hmem, rfl⟩
    exact ⟨_, mem_snippets.mp hmem, rfl⟩
  · rintro ⟨field, hmem, hslot⟩
    cases field with
    | reserved tag content => cases hslot
    | custom name content => cases hslot
    | snippet other content =>
        obtain rfl := Slot.snippet.inj hslot
        exact ⟨(other, content), mem_snippets.mpr hmem, rfl⟩

/-- After any row of insertions the slots are distinct and in the order of their first
insertion, each holds what was inserted last for it, and every reader says so. -/
theorem ofList_lastWins (entries : List Field) :
    let map := ofList entries
    (map.fields.map Field.slot).Nodup ∧
    map.fields.map Field.slot = (entries.map Field.slot).eraseDups ∧
    (∀ field, field ∈ map.fields ↔ last? entries field.slot = some field) ∧
    map.size = (entries.map Field.slot).toFinset.card ∧
    (∀ name, ∃ slot, Slot.NamedBy name.lower slot ∧
      map.get? name = (last? entries slot).map Field.content) ∧
    (∀ name tag, Slot.NamedBy name.lower (.reserved tag) → map.get? name = map.reserved? tag) ∧
    (∀ tag, map.reserved? tag = (last? entries (.reserved tag)).map Field.content) ∧
    (map.snippets.Pairwise fun left right => left.1 < right.1) ∧
    (∀ index, index ∈ map.snippets.map Prod.fst ↔ .snippet index ∈ entries.map Field.slot) ∧
    ∀ index content, (index, content) ∈ map.snippets ↔
      last? entries (.snippet index) = some (.snippet index content) := by
  intro map
  have hrecords := records_ofList entries
  have hreserved : ∀ tag, map.reserved? tag =
      (last? entries (.reserved tag)).map Field.content := by
    intro tag
    rw [reserved?_eq_at?, hrecords.at?_eq]
  have hget : ∀ name, map.get? name =
      (last? entries (Slot.ofName name.lower)).map Field.content :=
    fun name => hrecords.at?_eq _
  refine ⟨distinct_ofList entries, hrecords.slots_eq, fun _ => mem_ofList_iff, size_ofList entries,
    fun name => ⟨_, Slot.namedBy_ofName _, hget name⟩, ?_, hreserved,
    (distinct_ofList entries).pairwise_snippets, fun _ => mem_snippet_indices_iff, ?_⟩
  · intro name tag hnamed
    rw [hget, hreserved, hnamed.ofName_eq]
  · intro index content
    rw [mem_snippets, mem_ofList_iff]
    rfl

/-- Notes that are written twice around a snippet, under either of their names, beside custom
fields that are named like a snippet and like a reserved tag. -/
def mixedHistory : List Field :=
  [.classify "note".toList "old".toList, .custom "_code_snippet_0".toList "text".toList,
    .snippet 1 "b".toList, .snippet 0 "a".toList, .classify "notes".toList "new".toList,
    .custom "notes".toList "other".toList]

theorem get?_mixedHistory :
    Slot.NamedBy (Text.lower "NOTE".toList) (.reserved .notes) ∧
    (ofList mixedHistory).get? "NOTE".toList = (ofList mixedHistory).reserved? .notes ∧
    (ofList mixedHistory).reserved? .notes = some "new".toList := by
  have hlower : Text.lower "NOTE".toList = "note".toList := by decide +kernel
  have hnamed : Slot.NamedBy (Text.lower "NOTE".toList) (.reserved .notes) := by
    rw [hlower]
    exact .note
  obtain ⟨-, -, -, -, -, hagree, -⟩ := ofList_lastWins mixedHistory
  exact ⟨hnamed, hagree _ _ hnamed, by decide +kernel⟩

end FieldMap
end Docblock
