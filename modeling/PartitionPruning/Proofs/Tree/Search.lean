import PartitionPruning.Tree.Search

/-! What a search for nodes finds, and where it goes on below a node. -/

namespace PartitionPruning

namespace Node

theorem of_mem_find {p : Node → Bool} {n s : Node} (h : s ∈ n.find p) : p s = true := by
  cases hn : p n with
  | true =>
    rw [find_of_true hn, List.mem_singleton] at h
    exact h ▸ hn
  | false =>
    rw [find_of_false hn, List.mem_flatMap] at h
    obtain ⟨child, hchild, hs⟩ := h
    exact of_mem_find hs
termination_by sizeOf n
decreasing_by exact sizeOf_lt_of_mem_searchChildren hchild

variable {n v : Node} {key : String}

/-! ### Where a search goes on -/

theorem mem_searchChildren_of_itemsOf (h : v ∈ n.itemsOf "children") : v ∈ n.searchChildren := by
  unfold itemsOf itemsOf? at h
  cases n with
  | object fs =>
    cases hfield : Fields.get? fs "children" with
    | none => simp [field?, hfield] at h
    | some w =>
      cases w with
      | array xs => simpa [searchChildren, field?, hfield, items?] using h
      | _ => simp [field?, hfield, items?] at h
  | _ => simp [field?] at h

theorem searchChildren_of_children {ns : List Node} (h : n.field? "children" = some (array ns)) :
    n.searchChildren = ns := by
  cases n with
  | object fs =>
    simp only [field?] at h
    simp [searchChildren, h]
  | _ => contradiction

theorem mem_searchChildren_of_child (hchildren : n.field? "children" = none)
    (h : n.field? "child" = some v) : v ∈ n.searchChildren := by
  cases n with
  | object fs =>
    simp only [field?] at hchildren h
    simp [searchChildren, hchildren, h]
  | _ => contradiction

/-- Without `children`, `child` and a pair of operands all values are searched. -/
theorem mem_searchChildren_of_field? (hchildren : n.field? "children" = none)
    (hchild : n.field? "child" = none)
    (hpair : n.field? "left" = none ∨ n.field? "right" = none) (h : n.field? key = some v) :
    v ∈ n.searchChildren := by
  cases n with
  | object fs =>
    simp only [field?] at hchildren hchild hpair h
    have hvalue : v ∈ Fields.values fs := List.mem_map.mpr ⟨_, Fields.mem_of_get? h, rfl⟩
    simp only [searchChildren, hchildren, hchild]
    rcases hpair with hleft | hright
    · simpa only [hleft] using hvalue
    · rw [hright]
      cases Fields.get? fs "left" <;> exact hvalue
  | _ => contradiction

/-- An operand is searched, with the other one or with all values. -/
theorem mem_searchChildren_of_operand (hchildren : n.field? "children" = none)
    (hchild : n.field? "child" = none) (hkey : key = "left" ∨ key = "right")
    (h : n.field? key = some v) : v ∈ n.searchChildren := by
  by_cases hpair : n.field? "left" = none ∨ n.field? "right" = none
  · exact mem_searchChildren_of_field? hchildren hchild hpair h
  · rw [not_or, ← ne_eq, ← ne_eq, Option.ne_none_iff_exists', Option.ne_none_iff_exists'] at hpair
    obtain ⟨⟨left, hleft⟩, ⟨right, hright⟩⟩ := hpair
    have hmem : v = left ∨ v = right := by
      rcases hkey with rfl | rfl
      · exact Or.inl (Option.some.inj (h.symm.trans hleft))
      · exact Or.inr (Option.some.inj (h.symm.trans hright))
    cases n with
    | object fs =>
      simp only [field?] at hchildren hchild hleft hright
      simpa [searchChildren, hchildren, hchild, hleft, hright] using hmem
    | _ => contradiction

end Node

end PartitionPruning
