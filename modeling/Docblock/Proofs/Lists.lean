import Docblock.Text.Basic

namespace Docblock

section Lists

variable {α : Type}

theorem exists_first {holds : α → Prop} {item : α} {items : List α} (hmem : item ∈ items)
    (hitem : holds item) :
    ∃ before first after, items = before ++ first :: after ∧ holds first ∧
      ∀ other ∈ before, ¬ holds other := by
  induction items with
  | nil => contradiction
  | cons other rest ih =>
      by_cases hother : holds other
      · exact ⟨[], other, rest, rfl, hother, nofun⟩
      · rcases List.mem_cons.mp hmem with rfl | hmem
        · contradiction
        · obtain ⟨before, first, after, rfl, hfirst, hbefore⟩ := ih hmem
          exact ⟨other :: before, first, after, rfl, hfirst,
            List.forall_mem_cons.mpr ⟨hother, hbefore⟩⟩

theorem eraseDups_append_singleton [BEq α] [LawfulBEq α] (items : List α) (item : α) :
    (items ++ [item]).eraseDups =
      if item ∈ items then items.eraseDups else items.eraseDups ++ [item] := by
  rw [List.eraseDups_append, List.removeAll]
  split
  · simp_all
  · simp_all [List.eraseDups_cons]

end Lists

end Docblock
