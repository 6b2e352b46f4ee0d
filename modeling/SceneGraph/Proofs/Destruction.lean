import SceneGraph.Proofs.Validity

/-!
# Destruction keeps scenes valid

What refers to a component is told before the component goes: the children of a node are handed
over to its parent and its mesh is unbound, and the nodes bound to a geometry or drawn with a
material are bound to nothing or drawn with nothing.
-/

namespace SceneGraph.Scene

variable {s s' : Scene} {id x : ComponentId} {n : Node} {slot : Slot}

/-- The node `id`, with the record `n`, taken out of the hierarchy. -/
def handedOver (s : Scene) (id : ComponentId) (n : Node) : Scene :=
  n.children.foldl (fun s c => s.adopt n.parent c)
    ((s.modifyNode id fun n => { n with children := [], mesh := none }).detach id)

/-- The node `id`, with the record `n`, taken out of the hierarchy and out of its geometry. -/
def orphaned (s : Scene) (id : ComponentId) (n : Node) : Scene :=
  (s.handedOver id n).modifyGeometry (n.mesh.getD {}).geometry fun g => g.unbind id

/-- The geometries of the meshes drawn with a material. -/
def drawnWith (s : Scene) (id : ComponentId) : List ComponentId :=
  s.nodes.rows.filterMap fun n => match n.mesh with
    | some b => if b.material = id then some b.geometry else none
    | none => none

theorem nodeEdit_handedOver (s : Scene) (id : ComponentId) (n : Node) :
    NodeEdit s (s.handedOver id n) := by
  have he : NodeEdit s (s.modifyNode id fun n => { n with children := [], mesh := none }) :=
    .modifyNode s id fun _ => rfl
  exact (he.trans (nodeEdit_detach _ _)).trans (nodeEdit_adoptAll _ _ _)

namespace Valid

section Nodes

variable [Mat4.Arithmetic]

/-- The node `id` without children and without a mesh binding. -/
theorem handover_start (h : Valid s) (hn : s.nodeAt id = some n) :
    View.Handover (s.modifyNode id fun n => { n with children := [], mesh := none }).nodeAt id .null
      n.children := by
  rw [nodeAt_modifyNode h.sound]
  exact .start h.forest h.fresh.marked hn fun _ => ⟨rfl, rfl, rfl⟩

theorem nodeAt_stripped (h : Valid s) (hn : s.nodeAt id = some n) :
    ((s.modifyNode id fun n => { n with children := [], mesh := none }).detach id).nodeAt =
      (s.nodeAt.modify id fun n => { n with children := [], mesh := none }).unlink id := by
  have he : NodeEdit s (s.modifyNode id fun n => { n with children := [], mesh := none }) :=
    .modifyNode s id fun _ => rfl
  rw [nodeAt_detach (he.sound h.sound) (h.handover_start hn).rooted, nodeAt_modifyNode h.sound]

/-- The children are about to be handed over to the parent. -/
theorem handover_stripped (h : Valid s) (hn : s.nodeAt id = some n) :
    View.Handover ((s.nodeAt.modify id fun n => { n with children := [], mesh := none }).unlink id)
      id n.parent n.children := by
  have hstart := h.handover_start hn
  rw [nodeAt_modifyNode h.sound] at hstart
  have hid : s.nodeAt.modify id (fun n => { n with children := [], mesh := none }) id =
      some { n with children := [], mesh := none } := View.modify_of_some hn
  have hunlink := hstart.unlink hid
  exact hunlink

theorem nodeAt_handedOver (h : Valid s) (hn : s.nodeAt id = some n) :
    (s.handedOver id n).nodeAt =
      ((s.nodeAt.modify id fun n => { n with children := [], mesh := none }).unlink id).hand
        n.parent n.children := by
  have he : NodeEdit s (s.modifyNode id fun n => { n with children := [], mesh := none }) :=
    .modifyNode s id fun _ => rfl
  have hhand := h.handover_stripped hn
  rw [← h.nodeAt_stripped hn] at hhand ⊢
  exact nodeAt_adoptAll ((he.trans (nodeEdit_detach _ _)).sound h.sound) hhand

/-- What holds when the children of `id` have been handed over to its parent. -/
structure Orphaned (s t : Scene) (id : ComponentId) (n : Node) : Prop where
  edit : NodeEdit s t
  handover : View.Handover t.nodeAt id n.parent []
  root : t.nodeAt.up id = none
  local_eq : ∀ x, x ≠ id → t.nodeAt.LocalFresh x
  world_eq : ∀ x, x ≠ id → t.nodeAt.WorldFresh x
  drawn : ∀ x, x ≠ id → t.nodeAt.drawn x = s.nodeAt.drawn x
  draws : t.nodeAt.draws id = none

theorem orphaned_spec (h : Valid s) (hn : s.nodeAt id = some n) :
    Orphaned s (s.handedOver id n) id n := by
  have hedit := nodeEdit_handedOver s id n
  have hv := h.nodeAt_handedOver hn
  have hhand := h.handover_stripped hn
  have hmod : (s.nodeAt.modify id fun n => { n with children := [], mesh := none }) =
      s.nodeAt.edit fun x n => { n with
        children := if x = id then [] else n.children
        mesh := if x = id then none else n.mesh } := by
    refine View.edit_congr fun x n _ => ?_
    split <;> rfl
  have hid : s.nodeAt.modify id (fun n => { n with children := [], mesh := none }) id =
      some { n with children := [], mesh := none } := View.modify_of_some hn
  rw [hmod] at hv hhand hid
  generalize hbare : (s.nodeAt.edit fun x n => { n with
    children := if x = id then [] else n.children
    mesh := if x = id then none else n.mesh }) = v at *
  have hfresh : View.Fresh v := hbare ▸ h.fresh.edit fun _ _ => rfl
  have hdrawn : (s.handedOver id n).nodeAt.drawn = v.drawn := by
    rw [hv, View.drawn_hand, View.drawn_unlink]
  have hnot : id ∉ n.children := by
    rw [← hhand.left]
    exact fun hup => hhand.rooted.ne_parent hup rfl
  refine ⟨hedit, ?_, ?_, ?_, ?_, ?_, ?_⟩
  · rw [hv]
    exact hhand.hand
  · rw [hv, View.up_hand_of_not_mem hnot, View.up_unlink]
    simp
  · intro x _
    rw [hv]
    exact ((hfresh.local_eq x).unlink id).hand _ _
  · intro x hx
    rw [hv]
    exact ((hfresh.world_eq x).unlink hx).hand _ _
  · intro x hx
    rw [hdrawn, ← hbare]
    exact View.drawn_edit_of fun m _ => ⟨if_neg hx, rfl⟩
  · rw [View.draws_of_drawn (congrFun hdrawn id), View.draws_of_some hid]
    rfl

omit [Mat4.Arithmetic] in
/-- A component of another kind is not found as a node. -/
theorem rowAt_other {α : Type} {t : Table α} {role : Role} (hs : s.slots.get? id = some slot)
    (hk : ¬ role.accepts slot.kind) : rowAt s.slots role t id = none :=
  rowAt_of_not_accepts (show s.slots.get? id = some ⟨slot.kind, slot.index⟩ from hs) hk

theorem destroyNode (h : Valid s) (hn : s.nodeAt id = some n)
    (hslot : s.slots.get? id = some slot) (hk : Role.node.accepts slot.kind) :
    Valid ((s.orphaned id n).removeSlot id slot) := by
  have hspec := h.orphaned_spec hn
  unfold orphaned
  generalize s.handedOver id n = t at *
  have hst : Sound t := hspec.edit.sound h.sound
  have he : GeometryEdit t (t.modifyGeometry (n.mesh.getD {}).geometry fun g => g.unbind id) :=
    .modifyGeometry t _ (Geometry.id_unbind id)
  have hw : (t.modifyGeometry (n.mesh.getD {}).geometry fun g => g.unbind id).geometryAt =
      s.geometryAt.modify (n.mesh.getD {}).geometry fun g => g.unbind id := by
    rw [geometryAt_modifyGeometry hst, hspec.edit.geometryAt]
  have hdraws : s.nodeAt.draws id = (n.mesh.getD {}).geometry.nonNull := by
    rw [View.draws_of_some hn]
    cases n.mesh <;> rfl
  have hb : View.Batched t.nodeAt
      (s.geometryAt.modify (n.mesh.getD {}).geometry fun g => g.unbind id) :=
    h.batched.unbind hspec.drawn hdraws hspec.draws (geometryAt_null h.sound)
  have hslot' : (t.modifyGeometry (n.mesh.getD {}).geometry fun g => g.unbind id).slots.get? id =
      some slot := by
    rw [he.slots, hspec.edit.slots, hslot]
  have hr := removeSlot_removal (he.sound hst) hslot'
  have hnone : s.geometryAt id = none := by
    refine rowAt_other hslot fun hg => ?_
    exact Role.not_accepts (by decide) _ hg hk
  refine ⟨hr.sound (he.sound hst), ?_, ?_, ?_⟩
  · rw [hr.nodes.2, he.nodeAt]
    exact .erase hspec.handover.rooted hspec.handover.linked hspec.root
      fun x hx => by simpa using (hspec.handover.left x).mp hx
  · rw [hr.nodes.2, he.nodeAt]
    exact .erase hspec.handover.marked hspec.local_eq hspec.world_eq (h.rooted.ne_null hn)
      fun x hx => by simpa using (hspec.handover.left x).mp hx
  · have hgone : (s.geometryAt.modify (n.mesh.getD {}).geometry fun g => g.unbind id) id = none :=
      View.edit_eq_none.mpr hnone
    rw [hr.nodes.2, he.nodeAt, hr.geometries.2, hw, View.erase_of_none hgone]
    exact hb.eraseNode hspec.draws

end Nodes

section Others

/-- The removal of a component that is not a node. -/
theorem of_removal [Mat4.Arithmetic] {t : Scene} (ht : Sound t) (hf : View.Forest t.nodeAt)
    (hm : View.Fresh t.nodeAt) (hnone : t.nodeAt id = none) (hslot : t.slots.get? id = some slot)
    (hb : View.Batched t.nodeAt (t.geometryAt.erase id)) : Valid (t.removeSlot id slot) := by
  have hr := removeSlot_removal ht hslot
  have hv : (t.removeSlot id slot).nodeAt = t.nodeAt := by
    rw [hr.nodes.2, View.erase_of_none hnone]
  refine ⟨hr.sound ht, hv ▸ hf, hv ▸ hm, ?_⟩
  rw [hv, hr.geometries.2]
  exact hb

theorem destroyTexture [Mat4.Arithmetic] (h : Valid s) (hslot : s.slots.get? id = some slot)
    (hk : slot.kind = .texture) : Valid (s.removeSlot id slot) := by
  have hnode : s.nodeAt id = none := rowAt_other hslot (by rw [hk]; decide)
  have hgeometry : s.geometryAt id = none := rowAt_other hslot (by rw [hk]; decide)
  refine of_removal h.sound h.forest h.fresh hnode hslot ?_
  rw [View.erase_of_none hgeometry]
  exact h.batched

theorem destroyShader [Mat4.Arithmetic] (h : Valid s) (hslot : s.slots.get? id = some slot)
    (hk : slot.kind = .shader) : Valid ((s.forgetShader id).removeSlot id slot) := by
  have hnode : s.nodeAt id = none := rowAt_other hslot (by rw [hk]; decide)
  have hgeometry : s.geometryAt id = none := rowAt_other hslot (by rw [hk]; decide)
  refine of_removal (h.sound.forgetShader id) h.forest h.fresh hnode hslot ?_
  exact (View.erase_of_none hgeometry).symm ▸ h.batched

/-- Clearing a reference of every mesh on a list. -/
theorem clearEach {f : MeshBinding → MeshBinding} (hf : ∀ b, f (f b) = f b) (hs : Sound s)
    (l : List ComponentId) :
    NodeEdit s (l.foldl (fun s m => s.modifyNode m fun n => { n with mesh := n.mesh.map f }) s) ∧
      (l.foldl (fun s m => s.modifyNode m fun n => { n with mesh := n.mesh.map f }) s).nodeAt =
        s.nodeAt.edit fun x n => { n with mesh := if x ∈ l then n.mesh.map f else n.mesh } := by
  induction l generalizing s with
  | nil => exact ⟨.refl s, (View.edit_id fun _ _ _ => by simp).symm⟩
  | cons id l ih =>
    have he : NodeEdit s (s.modifyNode id fun n => { n with mesh := n.mesh.map f }) :=
      .modifyNode s id fun _ => rfl
    obtain ⟨he', hv'⟩ := ih (he.sound hs)
    refine ⟨he.trans he', ?_⟩
    rw [List.foldl_cons, hv', nodeAt_modifyNode hs, View.modify, View.edit_edit]
    refine View.edit_congr fun x n _ => ?_
    by_cases hx : x = id
    · subst hx
      by_cases hl : x ∈ l <;> simp [hl, hf, Function.comp_def]
    · by_cases hl : x ∈ l <;> simp [hx, hl]

theorem destroyGeometry [Mat4.Arithmetic] (h : Valid s) (hslot : s.slots.get? id = some slot)
    (hk : slot.kind = .geometry) : Valid ((s.forgetGeometry id).removeSlot id slot) := by
  have hnode : s.nodeAt id = none := rowAt_other hslot (by rw [hk]; decide)
  obtain ⟨g, hg⟩ := (h.sound.geometries.slot_iff).mp
    ⟨slot.kind, slot.index, hslot, by rw [hk]; decide⟩
  have hforget : s.forgetGeometry id = g.bindings.foldl (fun s mesh => s.modifyNode mesh fun n =>
      { n with mesh := n.mesh.map fun b => { b with geometry := .null } }) s := by
    rw [forgetGeometry, geometry_eq_ok.mpr hg]
  obtain ⟨he, hv⟩ := clearEach (f := fun b => { b with geometry := .null }) (fun _ => rfl) h.sound
    g.bindings
  rw [← hforget] at he hv
  have hmem := h.batched.mem hg
  refine of_removal (he.sound h.sound) ?_ ?_ ?_ (he.slots ▸ hslot) ?_
  · rw [hv]
    exact h.forest.edit (fun _ _ => rfl) fun _ _ => rfl
  · rw [hv]
    exact h.fresh.edit fun _ _ => rfl
  · rw [hv]
    exact View.edit_eq_none.mpr hnode
  · rw [he.geometryAt, hv]
    refine h.batched.eraseGeometry (fun m hm => ?_) fun m hm => ?_
    · refine View.drawn_edit_of fun n _ => ⟨if_neg ?_, rfl⟩
      rwa [hmem]
    · cases hn : s.nodeAt m with
      | none => exact View.draws_of_none (View.edit_eq_none.mpr hn)
      | some n =>
        rw [View.draws_of_some (View.edit_of_some hn)]
        simp only [if_pos ((hmem m).mpr hm)]
        cases n.mesh <;> rfl

/-- A mesh binding without its reference to the material `id`. -/
def clearMaterial (id : ComponentId) (b : MeshBinding) : MeshBinding :=
  if b.material = id then { b with material := .null } else b

theorem clearMaterial_of_ne {b : MeshBinding} (h : b.material ≠ id) : clearMaterial id b = b :=
  if_neg h

theorem geometry_clearMaterial (id : ComponentId) (b : MeshBinding) :
    (clearMaterial id b).geometry = b.geometry := by
  unfold clearMaterial
  split
  · rfl
  · rfl

/-- The nodes lose their references to a material, and the geometries of those that had one become
stale. -/
theorem forgetMaterial_spec (hs : Sound s) (id : ComponentId) :
    Sound (s.forgetMaterial id) ∧ (s.forgetMaterial id).slots = s.slots ∧
      ((s.forgetMaterial id).nodeAt =
        s.nodeAt.edit fun _ n => { n with mesh := n.mesh.map (clearMaterial id) }) ∧
      (s.forgetMaterial id).geometryAt = s.geometryAt.edit fun x g =>
        if decide (x ∈ s.drawnWith id) then { g with instancesStale := true } else g := by
  let t : Scene :=
    { s with nodes := s.nodes.map fun n => { n with mesh := n.mesh.map (clearMaterial id) } }
  have he : NodeEdit s t := by
    refine ⟨Placed.ids_map ?_ s.nodes, rfl⟩
    exact fun _ => rfl
  have hv : t.nodeAt = s.nodeAt.edit fun _ n => { n with mesh := n.mesh.map (clearMaterial id) } :=
    funext fun x => rowAt_map _
  obtain ⟨he', hw⟩ := Rebuild.staleEach (q := fun s : Scene => s) (b := t)
    (f := fun s g => s.modifyGeometry g fun g => { g with instancesStale := true })
    (fun b id hb => Rebuild.stale_spec hb id) (he.sound hs) (s.drawnWith id)
  have hforget : s.forgetMaterial id = (s.drawnWith id).foldl
      (fun s g => s.modifyGeometry g fun g => { g with instancesStale := true }) t := rfl
  rw [← hforget] at he' hw
  refine ⟨he'.sound (he.sound hs), he'.slots, he'.nodeAt.trans hv, ?_⟩
  rw [hw, he.geometryAt]

theorem mem_drawnWith {m : ComponentId} {b : MeshBinding} (hs : Sound s) (hn : s.nodeAt m = some n)
    (hb : n.mesh = some b) (hm : b.material = id) : b.geometry ∈ s.drawnWith id := by
  refine List.mem_filterMap.mpr ⟨n, ((mem_nodes hs).mp hn).1, ?_⟩
  rw [hb]
  exact if_pos hm

/-- The drawing of a node changes only if it was drawn with the material. -/
theorem drawn_clearMaterial {m g : ComponentId} (hs : Sound s) (hm : s.nodeAt.draws m = some g)
    (hg : g ∉ s.drawnWith id) :
    (s.nodeAt.edit fun _ n => { n with mesh := n.mesh.map (clearMaterial id) }).drawn m =
      s.nodeAt.drawn m := by
  refine View.drawn_edit_of fun n hn => ⟨?_, rfl⟩
  rw [View.draws_of_some hn] at hm
  obtain ⟨b, hb, hbg⟩ := Option.bind_eq_some_iff.mp hm
  obtain ⟨-, rfl⟩ := ComponentId.nonNull_eq_some_iff.mp hbg
  have hne : b.material ≠ id := fun hmaterial => hg (mem_drawnWith hs hn hb hmaterial)
  rw [hb, Option.map_some, clearMaterial_of_ne hne]

theorem destroyMaterial [Mat4.Arithmetic] (h : Valid s) (hslot : s.slots.get? id = some slot)
    (hk : slot.kind = .material) : Valid ((s.forgetMaterial id).removeSlot id slot) := by
  have hnode : s.nodeAt id = none := rowAt_other hslot (by rw [hk]; decide)
  have hgeometry : s.geometryAt id = none := rowAt_other hslot (by rw [hk]; decide)
  obtain ⟨hs, hslots, hv, hw⟩ := forgetMaterial_spec h.sound id
  refine of_removal hs ?_ ?_ ?_ (hslots ▸ hslot) ?_
  · rw [hv]
    exact h.forest.edit (fun _ _ => rfl) fun _ _ => rfl
  · rw [hv]
    exact h.fresh.edit fun _ _ => rfl
  · rw [hv]
    exact View.edit_eq_none.mpr hnode
  · rw [hv, hw, View.erase_of_none (View.edit_eq_none.mpr hgeometry)]
    refine h.batched.remark (fun x => decide (x ∈ s.drawnWith id))
      (View.draws_map (geometry_clearMaterial id)) fun m g hm hne => decide_eq_true ?_
    by_contra hout
    exact hne (drawn_clearMaterial h.sound hm hout)

end Others

end Valid

end SceneGraph.Scene
