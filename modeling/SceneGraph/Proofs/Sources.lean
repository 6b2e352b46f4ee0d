import SceneGraph.IdSource

/-!
# What a source of identifiers has passed

A source covers the identifiers that its counter has passed, and the largest one, which it takes to
be out of reach. What it covers it will not give out, until the counter has come to the end of the
word: from there on nothing is promised.
-/

namespace SceneGraph

namespace IdSource

variable {i : IdSource} {x : ComponentId}

/-- Whether the source will never give `id` out. -/
def Covers (i : IdSource) (id : ComponentId) : Prop := id.raw < i.next ∨ id.raw + 1 = 0

theorem next_reserve (i : IdSource) {id : ComponentId} (h : id.raw + 1 ≠ 0) :
    (i.reserve id).next = if i.next ≤ id.raw + 1 then id.raw + 1 else i.next := by
  rw [reserve, if_neg h]
  rfl

theorem covers_reserve (i : IdSource) (id : ComponentId) : (i.reserve id).Covers id := by
  by_cases h : id.raw + 1 = 0
  · exact Or.inr h
  · refine Or.inl ?_
    rw [i.next_reserve h]
    split <;> grind

theorem Covers.reserve (h : i.Covers x) (id : ComponentId) : (i.reserve id).Covers x := by
  by_cases hid : id.raw + 1 = 0
  · rwa [IdSource.reserve, if_pos hid]
  · refine h.imp_left fun hx => ?_
    rw [i.next_reserve hid]
    split <;> grind

section Allocation

variable (hi : i.next.toNat < UInt64.size - 1)
include hi

theorem toNat_next_succ : (i.next + 1).toNat = i.next.toNat + 1 := by
  have hsize : UInt64.size = 18446744073709551616 := rfl
  rw [UInt64.toNat_add]
  exact Nat.mod_eq_of_lt (by simp; omega)

theorem Covers.allocate (h : i.Covers x) : i.allocate.2.Covers x := by
  refine h.imp_left fun hx => ?_
  have hsucc := toNat_next_succ hi
  have hlt : x.raw < i.next + 1 := by
    rw [UInt64.lt_iff_toNat_lt] at hx ⊢
    omega
  exact hlt

theorem covers_allocated : i.allocate.2.Covers i.allocate.1 := by
  refine Or.inl ?_
  have hsucc := toNat_next_succ hi
  have hlt : i.next < i.next + 1 := by
    rw [UInt64.lt_iff_toNat_lt]
    omega
  exact hlt

/-- An identifier is new when it is given out. -/
theorem not_covers_allocated : ¬ i.Covers i.allocate.1 := by
  intro h
  have hsucc := toNat_next_succ hi
  rw [allocate_fst] at h
  rcases h with h | h
  · exact UInt64.lt_irrefl _ h
  · have hzero : (i.next + 1).toNat = 0 := congrArg UInt64.toNat h
    omega

end Allocation

end IdSource

end SceneGraph
