import SceneGraph.Proofs.Marking

/-!
# What the destruction of a node leaves

Only the node itself goes. Its children are appended to those of its parent, in their order, and
are stale from then on; a mesh leaves the geometry that it draws. Handing the children over one by
one marks the nodes above once for each child, with the links half moved; as nothing above the
parent depends on those links, all of it comes to one edit of the other nodes. The row that the
removal moves may be any of them, so that they are told apart by their identifiers and never by
their places.
-/

namespace SceneGraph

theorem Staleness.max_max (a b : Staleness) : max (max a b) b = max a b := by
  cases a <;> cases b <;> rfl

namespace View

variable {v : View Node} {c d p x : ComponentId} {cs : List ComponentId} {n : Node}

open Classical in
/-- The record `n` of `x` once `p` has got the children `cs`. -/
noncomputable def received (v : View Node) (p : ComponentId) (cs : List ComponentId)
    (x : ComponentId) (n : Node) : Node :=
  { n with
    parent := if x ∈ cs then p else n.parent
    children := if x = p then n.children ++ cs else n.children
    stale :=
      if x ∈ cs then max n.stale .world
      else if cs ≠ [] ∧ Under v.up p x then max n.stale .descendents
      else n.stale }

theorem received_nil (v : View Node) (p x : ComponentId) (n : Node) : v.received p [] x n = n := by
  simp [received]

namespace Handover

/-- No child that is handed over is above the one that gets it. -/
theorem not_under_child (h : Handover v d p cs) (hx : x ∈ cs) : ¬ Under v.up p x := by
  intro hu
  exact h.apart (hu.trans (Above.of_parent ((h.left x).mpr hx)).under)

/-- Above the new parent, the links are as before. -/
theorem under_step (h : Handover v d p (c :: cs)) (x : ComponentId) :
    Under ((v.link p c).flag c .world).up p x ↔ Under v.up p x := by
  rw [up_flag]
  exact Under.iff_of_eq_off h.child.2.2 fun y hy => up_link_of_ne p hy

theorem above_link (h : Handover v d p (c :: cs)) (hn : v x = some n) :
    Above (v.link p c).up x c ↔ Under v.up p x := by
  obtain ⟨-, ⟨m, hm⟩, hpc⟩ := h.child
  have hc : v.link p c c = some _ := edit_of_some hm
  have hx : v.link p c x = some _ := edit_of_some hn
  rw [← under_parent_iff h.rooted_link hc hx]
  simp only [if_true]
  exact Under.iff_of_eq_off hpc fun y hy => up_link_of_ne p hy

/-- What the first of the children changes, and then the others. -/
theorem received_cons (h : Handover v d p (c :: cs)) (hn : v x = some n) :
    ∃ m, (v.link p c).flag c .world x = some m ∧
      ((v.link p c).flag c .world).received p cs x m = v.received p (c :: cs) x n := by
  classical
  have hnew : (v.link p c).flag c .world x = some _ := edit_of_some (edit_of_some hn)
  refine ⟨_, hnew, ?_⟩
  have hcs : c ∉ cs := (List.nodup_cons.mp h.nodup).1
  have hparent : (if x ∈ cs then p else if x = c then p else n.parent) =
      if x ∈ c :: cs then p else n.parent := by
    by_cases hxs : x ∈ cs <;> simp [hxs]
  have hchildren : (if x = p then (if x = p then n.children ++ [c] else n.children) ++ cs
      else if x = p then n.children ++ [c] else n.children) =
        if x = p then n.children ++ c :: cs else n.children := by
    split
    · simp
    · rfl
  simp only [received, h.under_step, h.above_link hn, hparent, hchildren]
  congr 1
  by_cases hxs : x ∈ c :: cs
  · -- a child is not above the new parent, so that it is marked once
    have hu : ¬ Under v.up p x := h.not_under_child hxs
    rcases List.mem_cons.mp hxs with rfl | hxs
    · simp [hcs, hu]
    · have hxc : x ≠ c := fun he => hcs (he ▸ hxs)
      simp [hxs, hxc, hu]
  · rw [List.mem_cons, not_or] at hxs
    by_cases hu : Under v.up p x <;> simp [hxs, hu, Staleness.max_max]

/-- All the children at once. -/
theorem hand_eq (h : Handover v d p cs) : v.hand p cs = v.edit (v.received p cs) := by
  induction cs generalizing v with
  | nil => exact (edit_id fun x n _ => v.received_nil p x n).symm
  | cons c cs ih =>
    have hrest : v.hand p (c :: cs) =
        ((v.link p c).flag c .world).edit (((v.link p c).flag c .world).received p cs) := ih h.step
    rw [hrest]
    funext x
    cases hn : v x with
    | none =>
      have hnone : (v.link p c).flag c .world x = none := edit_eq_none.mpr (edit_eq_none.mpr hn)
      rw [edit_eq_none.mpr hnone, edit_eq_none.mpr hn]
    | some n =>
      obtain ⟨m, hm, hmn⟩ := h.received_cons hn
      rw [edit_of_some hm, edit_of_some hn, hmn]

end Handover

end View

namespace Scene

variable {s s' : Scene} {id x : ComponentId} {m n : Node} {g : Geometry} {k : ComponentKind}

open Classical in
/-- What becomes of another node `m` when the node `n` is destroyed. -/
noncomputable def bereft (s : Scene) (n m : Node) : Node :=
  { m with
    parent := if m.id ∈ n.children then n.parent else m.parent
    children := if m.id = n.parent then swapErase m.children n.id ++ n.children else m.children
    stale :=
      if m.id ∈ n.children then max m.stale .world
      else if n.children ≠ [] ∧ Relation.TransGen s.HasParent n.id m.id then
        max m.stale .descendents
      else m.stale }

/-- What becomes of a geometry when the node `n` is destroyed. -/
def released (n : Node) (g : Geometry) : Geometry :=
  if n.mesh.map MeshBinding.geometry = some g.id then
    { g with bindings := swapErase g.bindings n.id, instancesStale := true }
  else g

/-- What becomes of another component when the node `n` is destroyed. -/
noncomputable def spared (s : Scene) (n : Node) : Component → Component
  | .transform m => .transform (s.bereft n m)
  | .mesh m => .mesh (s.bereft n m)
  | .geometry g => .geometry (released n g)
  | c => c

section Handed

variable [Mat4.Arithmetic] (hv : Valid s) (hn : s.nodeAt id = some n)
include hv hn

theorem Valid.nodeAt_unlinked (hx : x ≠ id) (hm : s.nodeAt x = some m) :
    (s.nodeAt.modify id fun n => { n with children := [], mesh := none }).unlink id x =
      some { m with
        children := if x = n.parent then swapErase m.children id else m.children } := by
  have hup : (s.nodeAt.modify id fun n => { n with children := [], mesh := none }).up =
      s.nodeAt.up := View.up_modify fun _ => rfl
  have hparent : s.nodeAt.up id = some x ↔ x = n.parent := by
    rw [View.up_of_some hn, ComponentId.nonNull_eq_some_iff, @eq_comm _ x]
    exact and_iff_right_of_imp fun he => he ▸ hv.rooted.ne_null hm
  have hmx : s.nodeAt.modify id (fun n => { n with children := [], mesh := none }) x = some m := by
    rw [View.modify_of_ne hx, hm]
  rw [View.unlink, View.edit_of_some hmx, hup]
  simp only [if_neg hx, hparent]

theorem Valid.under_unlinked (hx : s.nodeAt x = some m) :
    Under ((s.nodeAt.modify id fun n => { n with children := [], mesh := none }).unlink id).up
      n.parent x ↔ Relation.TransGen s.HasParent id x := by
  have hup : (s.nodeAt.modify id fun n => { n with children := [], mesh := none }).up =
      s.nodeAt.up := View.up_modify fun _ => rfl
  rw [← above_iff_transGen, ← View.under_parent_iff hv.rooted hn hx, View.up_unlink, hup]
  exact Under.iff_of_eq_off (hv.rooted.not_under_parent hn) fun y hy => if_neg hy

theorem Valid.handedOver_eq (hx : x ≠ id) :
    (s.handedOver id n).nodeAt x = (s.nodeAt x).map (s.bereft n) := by
  rw [hv.nodeAt_handedOver hn, (hv.handover_stripped hn).hand_eq]
  cases hm : s.nodeAt x with
  | none =>
    have hnone : (s.nodeAt.modify id fun n => { n with children := [], mesh := none }).unlink id x =
        none := View.edit_eq_none.mpr (View.edit_eq_none.mpr hm)
    exact View.edit_eq_none.mpr hnone
  | some m =>
    obtain rfl : m.id = x := hv.sound.nodes.row_id hm
    obtain rfl : n.id = id := hv.sound.nodes.row_id hn
    rw [View.edit_of_some (hv.nodeAt_unlinked hn hx hm), Option.map_some, View.received,
      hv.under_unlinked hn hm, bereft]
    by_cases hp : m.id = n.parent <;> simp [hp]

end Handed

section Destroyed

variable [Mat4.Arithmetic] (hv : Valid s) (hn : s.nodeAt id = some n)
include hv hn

theorem Valid.bindings_released (hg : s.geometryAt x = some g) :
    (if g.id = (n.mesh.getD {}).geometry then g.unbind id else g) = released n g := by
  obtain rfl : g.id = x := hv.sound.geometries.row_id hg
  obtain rfl : n.id = id := hv.sound.nodes.row_id hn
  have hnull : g.id ≠ .null := by
    intro he
    rw [he, geometryAt_null hv.sound] at hg
    cases hg
  have hmem : n.id ∈ g.bindings ↔ n.mesh.map MeshBinding.geometry = some g.id := by
    rw [hv.batched.mem hg, View.draws_of_some hn]
    cases n.mesh with
    | none => simp
    | some b =>
      simp only [Option.bind_some, Option.map_some, Option.some.injEq,
        ComponentId.nonNull_eq_some_iff]
      exact ⟨fun h => h.2, fun h => ⟨h ▸ hnull, h⟩⟩
  unfold released Geometry.unbind
  rw [if_congr hmem rfl rfl]
  cases hmesh : n.mesh with
  | none => simp [hnull]
  | some b =>
    by_cases hb : b.geometry = g.id
    · simp [hb]
    · simp [hb, Ne.symm hb]

/-- The geometries once the node is unbound. -/
theorem Valid.geometries_orphaned :
    (s.orphaned id n).geometries = s.geometries.map (released n) := by
  have hedit := nodeEdit_handedOver s id n
  have hmap : (s.orphaned id n).geometries = s.geometries.map fun g =>
      if g.id = (n.mesh.getD {}).geometry then g.unbind id else g := by
    rw [orphaned, hedit.rest]
    exact modifyRow_eq_map (s := s) hv.sound.geometries (Geometry.id_unbind id) _
  rw [hmap, Table.map, Table.map]
  refine congrArg Table.mk (List.map_congr_left fun g hg => ?_)
  exact hv.bindings_released hn ((mem_geometries hv.sound).mpr ⟨hg, rfl⟩)

/-- The scene without the node. -/
theorem Valid.destroyed_eq {i : ℕ} (hslot : s.slots.get? id = some ⟨k, i⟩)
    (hk : Role.node.accepts k) : (s.orphaned id n).removeSlot id ⟨k, i⟩ =
      { s with
        nodes := ⟨(swapEraseIdx s.nodes.rows i).map (s.bereft n)⟩
        geometries := s.geometries.map (released n)
        slots := slotsWithout s.slots id i (swapEraseIdx s.nodes.ids i)[i]? } := by
  have hedit := nodeEdit_handedOver s id n
  have hg : GeometryEdit (s.handedOver id n) (s.orphaned id n) :=
    .modifyGeometry _ _ (Geometry.id_unbind id)
  have ht : Sound (s.orphaned id n) := hg.sound (hedit.sound hv.sound)
  have hids : (s.orphaned id n).nodes.ids = s.nodes.ids := by
    rw [hg.rest]
    exact hedit.ids
  have hslots : (s.orphaned id n).slots = s.slots := hg.slots.trans hedit.slots
  have hplaced := ht.nodes
  rw [hslots] at hplaced
  -- the rows are compared through look-ups, so that it does not matter which one was moved
  have hnodes : (⟨swapEraseIdx (s.orphaned id n).nodes.rows i⟩ : Table Node) =
      Table.map ⟨swapEraseIdx s.nodes.rows i⟩ (s.bereft n) := by
    have hremoved := (erased_row hplaced hslot hk).1
    refine hremoved.table_eq ?_ (funext fun x => ?_)
    · rw [Placed.ids_map (f := s.bereft n) fun _ => rfl, Placed.ids_swapErase,
        Placed.ids_swapErase, hids]
    · rw [rowAt_map, hplaced.rowAt_swapErase hslot hk, hids,
        hv.sound.nodes.rowAt_swapErase hslot hk]
      by_cases hx : x = id
      · simp [hx]
      · have hrow := hv.handedOver_eq hn hx
        rw [← hg.nodeAt, nodeAt, hslots] at hrow
        rw [if_neg hx, if_neg hx, hrow]
        rfl
  rw [removeSlot_node ht (hslots ▸ hslot) hk, hnodes, hids, hslots, hg.rest, hedit.rest,
    hv.geometries_orphaned hn]
  rfl

/-- The other components are found as before, and are what the destruction leaves of them. -/
theorem Valid.component_destroyed {i : ℕ} (hslot : s.slots.get? id = some ⟨k, i⟩) (hx : x ≠ id) :
    ((s.orphaned id n).removeSlot id ⟨k, i⟩).component x =
      (s.component x).map (s.spared n) := by
  have hedit := nodeEdit_handedOver s id n
  have hg : GeometryEdit (s.handedOver id n) (s.orphaned id n) :=
    .modifyGeometry _ _ (Geometry.id_unbind id)
  have hslots : (s.orphaned id n).slots = s.slots := hg.slots.trans hedit.slots
  have hr := removeSlot_removal (hg.sound (hedit.sound hv.sound)) (hslots ▸ hslot)
  generalize (s.orphaned id n).removeSlot id ⟨k, i⟩ = s' at *
  have hkind : s'.kindOf? x = s.kindOf? x := by
    rw [kindOf?, slot?, hr.kinds, if_neg hx, hslots]
    rfl
  have hnode : s'.nodeAt x = (s.nodeAt x).map (s.bereft n) := by
    rw [hr.nodes.2, View.erase, if_neg hx, hg.nodeAt, hv.handedOver_eq hn hx]
  have hgeometry : s'.geometryAt x = (s.geometryAt x).map (released n) := by
    rw [hr.geometries.2, View.erase, if_neg hx, geometryAt, hslots, hv.geometries_orphaned hn,
      rowAt_map]
    rfl
  have hrest : (s.orphaned id n).materialAt = s.materialAt ∧
      (s.orphaned id n).shaderAt = s.shaderAt ∧ (s.orphaned id n).textureAt = s.textureAt := by
    rw [hg.rest, hedit.rest]
    exact ⟨rfl, rfl, rfl⟩
  have hmaterial : s'.materialAt x = s.materialAt x := by
    rw [hr.materials.2, View.erase, if_neg hx, hrest.1]
  have hshader : s'.shaderAt x = s.shaderAt x := by
    rw [hr.shaders.2, View.erase, if_neg hx, hrest.2.1]
  have htexture : s'.textureAt x = s.textureAt x := by
    rw [hr.textures.2, View.erase, if_neg hx, hrest.2.2]
  have hrow : ∀ k, s'.rowOf k x = (s.rowOf k x).map (s.spared n) := by
    intro k
    cases k <;> simp [rowOf, View.map, hnode, hgeometry, hmaterial, hshader, htexture,
      Function.comp_def, spared]
  rw [component_eq, component_eq, hkind]
  cases s.kindOf? x with
  | none => rfl
  | some k =>
    simp only [Option.bind_some, hrow]
    cases s.rowOf k x <;> rfl

end Destroyed

/-- Destroying a node is never refused. The last row takes the place of its row, and the other
components stay what they are but for the links to the node and the staleness that these ask for. -/
theorem Reachable.destroy_node [Mat4.Arithmetic] (h : Reachable s) (hn : s.node id = .ok n) :
    ∃ kind i s', s.slot? id = some ⟨kind, i⟩ ∧ s.nodes.get? i = some n ∧
      destroy id s = .ok kind s' ∧ s'.contains id = false ∧
      s'.nodes.rows = (swapEraseIdx s.nodes.rows i).map (s.bereft n) ∧
      s'.geometries = s.geometries.map (released n) ∧ s'.materials = s.materials ∧
      s'.shaders = s.shaders ∧ s'.textures = s.textures ∧ s'.ids = s.ids ∧
      ∀ x, x ≠ id → s'.component x = (s.component x).map (s.spared n) := by
  have hv := h.valid
  obtain ⟨kind, i, hslot, hk, hrow⟩ := rowAt_eq_some.mp (node_eq_ok.mp hn)
  obtain ⟨m, hm, hrun⟩ := run_destroyNode hv.sound hslot hk
  obtain rfl : n = m := Option.some.inj ((node_eq_ok.mp hn).symm.trans hm)
  have hother := fun x => hv.component_destroyed (x := x) hm hslot
  rw [hv.destroyed_eq hm hslot hk] at hrun hother
  refine ⟨kind, i, _, hslot, hrow, hrun, ?_, rfl, rfl, rfl, rfl, rfl, rfl, fun x hx => hother x hx⟩
  have hid : s.nodes.ids[i]? = some id := (hv.sound.nodes id i).mp ⟨kind, hslot, hk⟩
  have hmoved : (swapEraseIdx s.nodes.ids i)[i]? ≠ some id :=
    fun he => ((hv.sound.nodes.moved_iff hid).mp he).1 rfl
  rw [contains, IdMap.contains, get?_slotsWithout hmoved, if_pos rfl]
  rfl

/-- A mesh with two children, stored before the root that it is below. -/
def grafted : Scene :=
  List.foldl Operation.run {}
    [.insert .geometry ⟨3⟩ "leaf", .apply (.createMesh ⟨6⟩ ⟨3⟩ .null "bough") default,
      .insert .transform ⟨7⟩ "twig", .insert .transform ⟨8⟩ "bud", .insert .transform ⟨5⟩ "trunk",
      .addChild ⟨6⟩ ⟨7⟩, .addChild ⟨6⟩ ⟨8⟩, .addChild ⟨5⟩ ⟨6⟩]

/-- The row that takes the place of the mesh is that of its parent. -/
theorem destroy_node_grafted :
    grafted.Reachable ∧ ∃ s', destroy ⟨6⟩ grafted = .ok .mesh s' ∧ s'.contains ⟨6⟩ = false ∧
      s'.nodes.rows.map (fun m => (m.id, m.parent, m.children)) =
        [(⟨5⟩, .null, [⟨7⟩, ⟨8⟩]), (⟨7⟩, ⟨5⟩, []), (⟨8⟩, ⟨5⟩, [])] ∧
      s'.geometries.rows.map Geometry.bindings = [[]] := by
  have h : grafted.Reachable := Reachable.empty.runs (by decide)
  obtain ⟨kind, i, s', hslot, -, hrun, hgone, hrows, hgeometries, -⟩ :=
    h.destroy_node (show grafted.node ⟨6⟩ = .ok _ from rfl)
  obtain ⟨rfl, rfl⟩ : kind = .mesh ∧ i = 0 := by
    have hfound : grafted.slot? ⟨6⟩ = some ⟨.mesh, 0⟩ := by decide +kernel
    rw [hfound, Option.some.injEq, Slot.mk.injEq] at hslot
    exact ⟨hslot.1.symm, hslot.2.symm⟩
  refine ⟨h, s', hrun, hgone, ?_, ?_⟩
  · rw [hrows, List.map_map]
    rfl
  · rw [hgeometries, Table.map, List.map_map]
    rfl

end Scene

end SceneGraph
