import SceneGraph.Proofs.EagerMatrices
import SceneGraph.Proofs.Grouping

/-!
# The batches of a reachable scene

Unless a geometry is stale, its batches group the meshes that are bound to it now, by the material
that each has now and with the world matrix that each has now. Rebuilding all matrices and then
all stale geometries brings every geometry there.
-/

namespace SceneGraph.Scene

variable {s s' : Scene} {id x : ComponentId} {n : Node} {g : Geometry} {l : List ComponentId}

/-- The material of a mesh; null for what is no mesh. -/
def materialOf (s : Scene) (id : ComponentId) : ComponentId :=
  match s.node id with
  | .ok n => (n.mesh.getD {}).material
  | .error _ => .null

/-- The cached world matrix of a node; the identity for what is no node. -/
def worldOf (s : Scene) (id : ComponentId) : Mat4 :=
  match s.node id with
  | .ok n => n.worldMatrix
  | .error _ => .identity

/-- The batches of a geometry group its meshes as they are. -/
structure Grouped (s : Scene) (g : Geometry) : Prop where
  nodup : g.bindings.Nodup
  bound : ∀ id, id ∈ g.bindings ↔ ∃ n b, s.node id = .ok n ∧ n.mesh = some b ∧ b.geometry = g.id
  ordered : g.batches.Pairwise fun b b' => b.material.raw < b'.material.raw
  materials : ∀ m, (∃ b ∈ g.batches, b.material = m) ↔ ∃ id ∈ g.bindings, s.materialOf id = m
  meshes : ∀ b ∈ g.batches, b.meshes = g.bindings.filter fun id => s.materialOf id = b.material
  once : ∀ id ∈ g.bindings, ∃! b, b ∈ g.batches ∧ id ∈ b.meshes
  instances : ∀ b ∈ g.batches,
    b.instances.live = b.meshes.flatMap fun id => Layout.mat4.write (s.worldOf id)
  size : ∀ b ∈ g.batches, b.instances.size = 64 * b.meshes.length
  matrices : ∀ b ∈ g.batches, b.matrices = b.meshes.map s.worldOf

theorem materialOf_eq (hn : s.nodeAt id = some n) :
    s.materialOf id = (n.mesh.getD {}).material := by
  rw [materialOf, node_eq_ok.mpr hn]

theorem worldOf_eq (hn : s.nodeAt id = some n) : s.worldOf id = n.worldMatrix := by
  rw [worldOf, node_eq_ok.mpr hn]

/-- The batches of nodes that exist are a grouping. -/
theorem batches_grouping (h : ∀ id ∈ l, ∃ n, s.nodeAt id = some n) :
    Grouping s.materialOf s.worldOf l (s.nodeAt.batches l) := by
  have hfold : s.nodeAt.batches l = l.foldl (fun bs id =>
      InstanceBatch.insert (s.materialOf id) id (s.worldOf id) bs) [] := by
    refine List.foldl_ext _ _ _ fun bs id hid => ?_
    obtain ⟨n, hn⟩ := h id hid
    rw [View.drawn_of_some hn, materialOf_eq hn, worldOf_eq hn]
  rw [hfold]
  exact .of_foldl _ _ l

theorem Valid.mem_bindings [Mat4.Arithmetic] (hv : Valid s) (hg : s.geometryAt g.id = some g) :
    id ∈ g.bindings ↔ ∃ n b, s.nodeAt id = some n ∧ n.mesh = some b ∧ b.geometry = g.id := by
  rw [hv.batched.mem hg id, View.draws]
  simp only [Option.bind_eq_some_iff, ComponentId.nonNull_eq_some_iff]
  constructor
  · rintro ⟨n, hn, b, hb, -, hgeometry⟩
    exact ⟨n, b, hn, hb, hgeometry⟩
  · rintro ⟨n, b, hn, hb, hgeometry⟩
    have hnull : g.id ≠ .null := by
      intro he
      rw [he, geometryAt_null hv.sound] at hg
      cases hg
    exact ⟨n, hn, b, hb, hgeometry ▸ hnull, hgeometry⟩

theorem Valid.grouped [Mat4.Arithmetic] (hv : Valid s) (hg : s.geometryAt g.id = some g)
    (hs : g.instancesStale = false) : s.Grouped g := by
  have hgroup : Grouping s.materialOf s.worldOf g.bindings g.batches := by
    rw [hv.batched.cached hg hs]
    refine batches_grouping fun id hid => ?_
    obtain ⟨n, -, hn, -⟩ := (hv.mem_bindings hg).mp hid
    exact ⟨n, hn⟩
  have hlive : ∀ b ∈ g.batches,
      b.instances.live = (b.meshes.map s.worldOf).flatMap Layout.mat4.write := by
    intro b hb
    rw [List.flatMap_map]
    exact hgroup.instances b hb
  refine ⟨hv.batched.nodup hg, fun id => ?_, hgroup.ordered, hgroup.exists_material_iff,
    hgroup.meshes, fun id hid => hgroup.existsUnique hid, hgroup.instances, fun b hb => ?_,
    fun b hb => ?_⟩
  · simp only [hv.mem_bindings hg, node_eq_ok]
  · have hlength := congrArg List.length (hlive b hb)
    rw [length_written, List.length_map, Arena.length_live] at hlength
    exact hlength
  · exact InstanceBatch.matrices_of_live (hlive b hb)

section Rebuilds

theorem geometryEdit_rebatch (s : Scene) (id : ComponentId) : GeometryEdit s (s.rebatch id) :=
  .modifyGeometry s id fun _ => rfl

theorem geometryEdit_rebatchAll (s : Scene) (l : List ComponentId) :
    GeometryEdit s (l.foldl rebatch s) := by
  induction l generalizing s with
  | nil => exact .refl s
  | cons id l ih => exact (geometryEdit_rebatch s id).trans (ih _)

/-- What is stale after batching anew was stale before, and was not batched anew. -/
theorem stale_of_rebatchAll (hs : Sound s) (hg : (l.foldl rebatch s).geometryAt x = some g)
    (hstale : g.instancesStale = true) :
    x ∉ l ∧ ∃ g', s.geometryAt x = some g' ∧ g'.instancesStale = true := by
  induction l generalizing s with
  | nil => exact ⟨by simp, g, hg, hstale⟩
  | cons id l ih =>
    obtain ⟨hx, g₁, hg₁, hstale₁⟩ := ih ((geometryEdit_rebatch s id).sound hs) hg
    rw [rebatch, geometryAt_modifyGeometry hs] at hg₁
    obtain ⟨g', hg', rfl⟩ := View.edit_eq_some.mp hg₁
    by_cases hxid : x = id
    · rw [if_pos hxid] at hstale₁
      cases hstale₁
    · rw [if_neg hxid] at hstale₁
      exact ⟨by simp [hxid, hx], g', hg', hstale₁⟩

theorem fresh_rebuildStaleGeometries (hs : Sound s)
    (hg : s.rebuildStaleGeometries.2.geometryAt x = some g) : g.instancesStale = false := by
  by_contra hstale
  rw [Bool.not_eq_false] at hstale
  obtain ⟨hx, g', hg', hstale'⟩ := stale_of_rebatchAll hs hg hstale
  obtain ⟨hmem, hid⟩ := (mem_geometries hs).mp hg'
  exact hx (List.mem_map.mpr ⟨g', List.mem_filter.mpr ⟨hmem, hstale'⟩, hid⟩)

end Rebuilds

/-- On a reachable scene the batches of a geometry that is not stale are those of its meshes as
they are, and after rebuilding all matrices and then all stale geometries no geometry is stale and
all matrices in the batches are those of eager recomputation. -/
theorem batches_grouped [Mat4.Arithmetic] (h : Reachable s) :
    (∀ g ∈ s.geometries.rows, g.instancesStale = false → s.Grouped g) ∧
    ∀ s', s' = s.rebuildAllMatrices.1.rebuildStaleGeometries.2 →
      ∀ g ∈ s'.geometries.rows, g.instancesStale = false ∧ s'.Grouped g ∧
        ∀ id ∈ g.bindings, s.Eager id (s'.worldOf id) := by
  have hv := h.valid
  refine ⟨fun g hg hs => hv.grouped ((mem_geometries hv.sound).mpr ⟨hg, rfl⟩) hs, ?_⟩
  intro s' hs' g hmem
  have hv₁ := hv.rebuildAllMatrices
  have hv' : Valid s' := by
    rw [hs']
    exact (steps_rebuildStaleGeometries _).valid hv₁
  have hnodes : s'.nodeAt = s.rebuildAllMatrices.1.nodeAt := by
    rw [hs']
    exact (geometryEdit_rebatchAll _ _).nodeAt
  have hg := (mem_geometries hv'.sound).mpr ⟨hmem, rfl⟩
  have hfresh : g.instancesStale = false := by
    rw [hs'] at hg
    exact fresh_rebuildStaleGeometries hv₁.sound hg
  refine ⟨hfresh, hv'.grouped hg hfresh, fun id hid => ?_⟩
  obtain ⟨n, -, hn, -⟩ := (hv'.mem_bindings hg).mp hid
  rw [worldOf_eq hn]
  rw [hnodes] at hn
  exact hv.eager_rebuilt hn

/-- Three meshes that draw one geometry with two materials; the last was moved at the end. -/
def staffed : Scene :=
  List.foldl Operation.run {}
    [.insert .geometry ⟨5⟩ "cube", .insert .material ⟨6⟩ "red", .insert .material ⟨7⟩ "blue",
      .apply (.createMesh ⟨8⟩ ⟨5⟩ ⟨7⟩ "left") default,
      .apply (.createMesh ⟨9⟩ ⟨5⟩ ⟨6⟩ "middle") default,
      .apply (.createMesh ⟨10⟩ ⟨5⟩ ⟨7⟩ "right") default,
      .rebuildStaleGeometries, .setPosition ⟨10⟩ .one]

theorem batches_grouped_staffed :
    staffed.Reachable ∧ ∃ g ∈ staffed.geometries.rows, g.instancesStale = false ∧
      g.batches.map InstanceBatch.meshes = [[⟨9⟩], [⟨8⟩, ⟨10⟩]] ∧ staffed.Grouped g ∧
      ∃ g' ∈ staffed.rebuildAllMatrices.1.rebuildStaleGeometries.2.geometries.rows,
        staffed.rebuildAllMatrices.1.rebuildStaleGeometries.2.Grouped g' := by
  have h : staffed.Reachable := Reachable.empty.runs (by decide)
  obtain ⟨hgrouped, hrebuilt⟩ := batches_grouped h
  obtain ⟨g, hg, hstale, hmeshes⟩ : ∃ g ∈ staffed.geometries.rows, g.instancesStale = false ∧
      g.batches.map InstanceBatch.meshes = [[⟨9⟩], [⟨8⟩, ⟨10⟩]] := by decide +kernel
  obtain ⟨g', hg', -⟩ :
      ∃ g' ∈ staffed.rebuildAllMatrices.1.rebuildStaleGeometries.2.geometries.rows,
        g'.id = ⟨5⟩ := by decide +kernel
  exact ⟨h, g, hg, hstale, hmeshes, hgrouped g hg hstale, g', hg', (hrebuilt _ rfl g' hg').2.1⟩

end SceneGraph.Scene
