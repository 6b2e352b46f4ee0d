import Mathlib.Data.List.Basic
import Mathlib.Data.List.Induction
import SceneGraph.Component.Geometry

/-!
# Grouping meshes into batches

Meshes are added one by one, each to the batch of its material. What comes out is one batch for
each material, ordered by material, that holds its meshes and their matrices in the order in which
they came.
-/

namespace SceneGraph

namespace InstanceBatch

variable {bs : List InstanceBatch} {a b o o' : InstanceBatch} {material mesh : ComponentId}
  {world : Mat4}

/-- The batches have different materials and are ordered by them. -/
def Ordered (bs : List InstanceBatch) : Prop :=
  bs.Pairwise fun b b' => b.material.raw < b'.material.raw

theorem ne_of_raw_lt {i j : ComponentId} (h : i.raw < j.raw) : i ≠ j := by
  intro he
  rw [he] at h
  exact UInt64.lt_irrefl _ h

theorem Ordered.eq_of_material (h : Ordered bs) (hb : b ∈ bs) (ho : o ∈ bs)
    (he : b.material = o.material) : b = o := by
  induction bs with
  | nil => cases hb
  | cons a bs ih =>
    obtain ⟨ha, htail⟩ := List.pairwise_cons.mp h
    rcases List.mem_cons.mp hb with hb | hb
    · rcases List.mem_cons.mp ho with ho | ho
      · rw [hb, ho]
      · exact absurd (hb ▸ he) (ne_of_raw_lt (ha o ho))
    · rcases List.mem_cons.mp ho with ho | ho
      · exact absurd (ho ▸ he.symm) (ne_of_raw_lt (ha b hb))
      · exact ih htail hb ho

/-- The batch that a new mesh joins: that of its material, or else an empty one. -/
def Joins (bs : List InstanceBatch) (material : ComponentId) (o : InstanceBatch) : Prop :=
  o.material = material ∧ (o ∈ bs ∨ (∀ b ∈ bs, b.material ≠ material) ∧ o = { material })

theorem joins_of_mem (h : Ordered bs) (ho : o ∈ bs) (hm : o.material = material) :
    Joins bs material o' ↔ o' = o := by
  constructor
  · rintro ⟨hm', ho' | ⟨hnew, -⟩⟩
    · exact h.eq_of_material ho' ho (hm'.trans hm.symm)
    · exact absurd hm (hnew o ho)
  · rintro rfl
    exact ⟨hm, Or.inl ho⟩

theorem joins_of_new (h : ∀ b ∈ bs, b.material ≠ material) :
    Joins bs material o ↔ o = { material } := by
  constructor
  · rintro ⟨hm, ho | ⟨-, ho⟩⟩
    · exact absurd hm (h o ho)
    · exact ho
  · rintro rfl
    exact ⟨rfl, Or.inr ⟨h, rfl⟩⟩

theorem joins_cons (ha : a.material ≠ material) :
    Joins (a :: bs) material o ↔ Joins bs material o := by
  unfold Joins
  refine and_congr_right fun hm => ?_
  have hoa : o ≠ a := by
    rintro rfl
    exact ha hm
  simp [hoa, ha]

theorem exists_joins (bs : List InstanceBatch) (material : ComponentId) :
    ∃ o, Joins bs material o := by
  by_cases h : ∃ o ∈ bs, o.material = material
  · obtain ⟨o, ho, hm⟩ := h
    exact ⟨o, hm, Or.inl ho⟩
  · exact ⟨{ material }, rfl, Or.inr ⟨fun b hb hm => h ⟨b, hb, hm⟩, rfl⟩⟩

/-- An insertion changes the batch that the mesh joins and no other. -/
theorem mem_insert (h : Ordered bs) : b ∈ insert material mesh world bs ↔
    b ∈ bs ∧ b.material ≠ material ∨ ∃ o, Joins bs material o ∧ b = o.add mesh world := by
  induction bs with
  | nil =>
    have hj : ∀ o, Joins [] material o ↔ o = { material } := fun o => joins_of_new (by simp)
    simp [insert, hj]
  | cons a bs ih =>
    obtain ⟨ha, htail⟩ := List.pairwise_cons.mp h
    rw [insert]
    by_cases hm : a.material = material
    · have hj : ∀ o, Joins (a :: bs) material o ↔ o = a := fun o =>
        joins_of_mem h (List.mem_cons_self ..) hm
      have hne : b ∈ bs → b.material ≠ material := fun hb he =>
        ne_of_raw_lt (ha b hb) (hm.trans he.symm)
      rw [if_pos hm]
      simp only [hj, List.mem_cons, exists_eq_left]
      constructor
      · rintro (hb | hb)
        · exact Or.inr hb
        · exact Or.inl ⟨Or.inr hb, hne hb⟩
      · rintro (⟨hb | hb, hb'⟩ | hb)
        · exact absurd (hb ▸ hm) hb'
        · exact Or.inr hb
        · exact Or.inl hb
    · rw [if_neg hm]
      by_cases hlt : material.raw < a.material.raw
      · have hnew : ∀ b ∈ a :: bs, b.material ≠ material := by
          intro b hb he
          rcases List.mem_cons.mp hb with rfl | hb
          · exact hm he
          · exact ne_of_raw_lt (UInt64.lt_trans hlt (ha b hb)) he.symm
        rw [if_pos hlt]
        simp only [joins_of_new hnew, exists_eq_left]
        constructor
        · intro hb
          rcases List.mem_cons.mp hb with hb | hb
          · exact Or.inr hb
          · exact Or.inl ⟨hb, hnew b hb⟩
        · rintro (⟨hb, -⟩ | hb)
          · exact List.mem_cons_of_mem _ hb
          · exact List.mem_cons.mpr (Or.inl hb)
      · rw [if_neg hlt]
        simp only [joins_cons hm, List.mem_cons, ih htail]
        constructor
        · rintro (rfl | ⟨hb, hb'⟩ | hb)
          · exact Or.inl ⟨Or.inl rfl, hm⟩
          · exact Or.inl ⟨Or.inr hb, hb'⟩
          · exact Or.inr hb
        · rintro (⟨rfl | hb, hb'⟩ | hb)
          · exact Or.inl rfl
          · exact Or.inr (Or.inl ⟨hb, hb'⟩)
          · exact Or.inr (Or.inr hb)

theorem Ordered.insert (h : Ordered bs) (material mesh : ComponentId) (world : Mat4) :
    Ordered (insert material mesh world bs) := by
  induction bs with
  | nil => exact List.pairwise_singleton _ _
  | cons a bs ih =>
    obtain ⟨ha, htail⟩ := List.pairwise_cons.mp h
    rw [InstanceBatch.insert]
    by_cases hm : a.material = material
    · rw [if_pos hm]
      exact List.pairwise_cons.mpr ⟨ha, htail⟩
    · rw [if_neg hm]
      by_cases hlt : material.raw < a.material.raw
      · rw [if_pos hlt]
        refine List.pairwise_cons.mpr ⟨fun b hb => ?_, h⟩
        rcases List.mem_cons.mp hb with rfl | hb
        · exact hlt
        · exact UInt64.lt_trans hlt (ha b hb)
      · rw [if_neg hlt]
        have hgt : a.material.raw < material.raw := by
          have hne : a.material.raw ≠ material.raw := fun he => hm (congrArg ComponentId.mk he)
          exact UInt64.lt_of_le_of_ne (UInt64.not_lt.mp hlt) hne
        refine List.pairwise_cons.mpr ⟨fun b hb => ?_, ih htail⟩
        rcases (mem_insert htail).mp hb with ⟨hb, -⟩ | ⟨o, ho, rfl⟩
        · exact ha b hb
        · exact ho.1 ▸ hgt

end InstanceBatch

/-- The batches `bs` of the meshes `l`, drawn with the materials and at the places given. -/
structure Grouping (material : ComponentId → ComponentId) (world : ComponentId → Mat4)
    (l : List ComponentId) (bs : List InstanceBatch) : Prop where
  ordered : InstanceBatch.Ordered bs
  covers : ∀ id ∈ l, ∃ b ∈ bs, b.material = material id
  used : ∀ b ∈ bs, ∃ id ∈ l, material id = b.material
  meshes : ∀ b ∈ bs, b.meshes = l.filter fun id => material id = b.material
  instances : ∀ b ∈ bs, b.instances.live = b.meshes.flatMap fun id => Layout.mat4.write (world id)

namespace Grouping

variable {material : ComponentId → ComponentId} {world : ComponentId → Mat4}
  {l : List ComponentId} {bs : List InstanceBatch} {b o : InstanceBatch} {id : ComponentId}

theorem nil : Grouping material world [] [] where
  ordered := List.Pairwise.nil
  covers := by simp
  used := by simp
  meshes := by simp
  instances := by simp

/-- The batch that a mesh joins holds the earlier meshes of its material. -/
theorem joined (h : Grouping material world l bs) (ho : InstanceBatch.Joins bs (material id) o) :
    o.meshes = l.filter (fun x => material x = material id) ∧
      o.instances.live = o.meshes.flatMap fun id => Layout.mat4.write (world id) := by
  obtain ⟨hm, ho | ⟨hnew, rfl⟩⟩ := ho
  · refine ⟨?_, h.instances o ho⟩
    rw [h.meshes o ho, hm]
  · have hnone : l.filter (fun x => material x = material id) = [] := by
      refine List.filter_eq_nil_iff.mpr fun x hx he => ?_
      obtain ⟨b, hb, hbm⟩ := h.covers x hx
      exact hnew b hb (hbm.trans (of_decide_eq_true he))
    rw [hnone]
    exact ⟨rfl, rfl⟩

theorem snoc (h : Grouping material world l bs) (id : ComponentId) :
    Grouping material world (l ++ [id]) (InstanceBatch.insert (material id) id (world id) bs) where
  ordered := h.ordered.insert _ _ _
  covers := by
    intro x hx
    by_cases hxm : material x = material id
    · obtain ⟨o, ho⟩ := InstanceBatch.exists_joins bs (material id)
      have hadd : (o.add id (world id)).material = material id := ho.1
      exact ⟨_, (InstanceBatch.mem_insert h.ordered).mpr (Or.inr ⟨o, ho, rfl⟩),
        hadd.trans hxm.symm⟩
    · have hxl : x ∈ l := by
        rcases List.mem_append.mp hx with hx | hx
        · exact hx
        · exact absurd (congrArg material (List.mem_singleton.mp hx)) hxm
      obtain ⟨b, hb, hbm⟩ := h.covers x hxl
      refine ⟨b, (InstanceBatch.mem_insert h.ordered).mpr (Or.inl ⟨hb, ?_⟩), hbm⟩
      rw [hbm]
      exact hxm
  used := by
    intro b hb
    rcases (InstanceBatch.mem_insert h.ordered).mp hb with ⟨hb, -⟩ | ⟨o, ho, rfl⟩
    · obtain ⟨x, hx, hxm⟩ := h.used b hb
      exact ⟨x, List.mem_append_left _ hx, hxm⟩
    · exact ⟨id, by simp, ho.1.symm⟩
  meshes := by
    intro b hb
    rw [List.filter_append]
    rcases (InstanceBatch.mem_insert h.ordered).mp hb with ⟨hb, hne⟩ | ⟨o, ho, rfl⟩
    · rw [h.meshes b hb, List.filter_singleton, decide_eq_false hne.symm, cond_false,
        List.append_nil]
    · have hm : (o.add id (world id)).material = material id := ho.1
      rw [hm, List.filter_singleton, decide_eq_true rfl, cond_true, ← (h.joined ho).1]
      rfl
  instances := by
    intro b hb
    rcases (InstanceBatch.mem_insert h.ordered).mp hb with ⟨hb, -⟩ | ⟨o, ho, rfl⟩
    · exact h.instances b hb
    · simp [InstanceBatch.add, (h.joined ho).2]

theorem of_foldl (material : ComponentId → ComponentId) (world : ComponentId → Mat4)
    (l : List ComponentId) : Grouping material world l
      (l.foldl (fun bs id => InstanceBatch.insert (material id) id (world id) bs) []) := by
  induction l using List.reverseRecOn with
  | nil => exact nil
  | append_singleton l id ih =>
    rw [List.foldl_append]
    exact ih.snoc id

theorem mem_meshes (h : Grouping material world l bs) (hb : b ∈ bs) :
    id ∈ b.meshes ↔ id ∈ l ∧ material id = b.material := by
  rw [h.meshes b hb, List.mem_filter, decide_eq_true_iff]

theorem exists_material_iff (h : Grouping material world l bs) (m : ComponentId) :
    (∃ b ∈ bs, b.material = m) ↔ ∃ id ∈ l, material id = m := by
  constructor
  · rintro ⟨b, hb, rfl⟩
    exact h.used b hb
  · rintro ⟨id, hid, rfl⟩
    exact h.covers id hid

theorem existsUnique (h : Grouping material world l bs) (hid : id ∈ l) :
    ∃! b, b ∈ bs ∧ id ∈ b.meshes := by
  obtain ⟨b, hb, hm⟩ := h.covers id hid
  refine ⟨b, ⟨hb, (h.mem_meshes hb).mpr ⟨hid, hm.symm⟩⟩, fun b' hb' => ?_⟩
  obtain ⟨hb', hmesh⟩ := hb'
  exact h.ordered.eq_of_material hb' hb (((h.mem_meshes hb').mp hmesh).2.symm.trans hm.symm)

end Grouping

section Matrices

theorem drop_written (ws : List Mat4) (i : ℕ) :
    (ws.flatMap Layout.mat4.write).drop (Layout.mat4.size * i) =
      (ws.drop i).flatMap Layout.mat4.write := by
  induction i generalizing ws with
  | zero => simp
  | succ i ih =>
    cases ws with
    | nil => simp
    | cons w ws =>
      rw [List.flatMap_cons, Nat.mul_succ, Nat.add_comm, ← List.drop_drop,
        ← Layout.mat4.length_write w, List.drop_left, Layout.mat4.length_write w, ih]
      rfl

theorem length_written (ws : List Mat4) :
    (ws.flatMap Layout.mat4.write).length = Layout.mat4.size * ws.length := by
  induction ws with
  | nil => rfl
  | cons w ws ih =>
    rw [List.flatMap_cons, List.length_append, ih, Layout.mat4.length_write, List.length_cons,
      Nat.mul_succ, Nat.add_comm]

/-- The matrices of a batch are read back as they were written. -/
theorem InstanceBatch.matrices_of_live {b : InstanceBatch} {ws : List Mat4}
    (h : b.instances.live = ws.flatMap Layout.mat4.write) : b.matrices = ws := by
  have hcount : b.count = ws.length := by
    have hsize : b.instances.size = Layout.mat4.size * ws.length := by
      rw [← length_written, ← h, Arena.length_live]
      rfl
    rw [count, hsize, Nat.mul_div_cancel_left _ (by decide)]
  refine List.ext_getElem (by simp [matrices, hcount]) fun i hi hi' => ?_
  simp only [matrices, List.getElem_map, List.getElem_range]
  rw [h, drop_written, List.drop_eq_getElem_cons hi', List.flatMap_cons, Layout.mat4.read_write]

end Matrices

end SceneGraph
