import SceneGraph.Proofs.Reachable
import SceneGraph.Proofs.Revisions

/-!
# References between components

A mesh refers to a geometry and a material, a material to a shader, and a geometry lists the meshes
that are bound to it. In a reachable scene nothing refers to what is gone, not even where the
identifier was given to something else since, and the two sides of each binding agree.
-/

namespace SceneGraph.Scene

variable {s : Scene} {id x : ComponentId}

/-- The geometry that a mesh names, which may be null; none if there is no such mesh. -/
def geometryOf (s : Scene) (id : ComponentId) : Option ComponentId :=
  match s.mesh id with
  | .ok n => n.mesh.map MeshBinding.geometry
  | .error _ => none

theorem closed_empty : View.Closed (contents {}) where
  mesh h := by cases h
  live h := by cases h

theorem Reachable.closed [Mat4.Arithmetic] (h : Reachable s) : View.Closed s.contents := by
  induction h with
  | empty => exact closed_empty
  | run h op ha ih => exact (steps_run h.valid h.covered op ha).closed h.valid ih

/-- What has a kind is found in the table of that kind. -/
theorem exists_of_kind {α : Type} [Row α] {role : Role} {t : Table α} {k : ComponentKind}
    (hs : Sound s) (h : Placed s.slots role t.ids) (hk : s.contents.kindOf? id = some k)
    (ha : role.accepts k) : ∃ a, s.find role t id = .ok a := by
  rw [kindOf?_contents hs] at hk
  obtain ⟨⟨k, i⟩, hslot, rfl⟩ := Option.map_eq_some_iff.mp hk
  obtain ⟨a, ha⟩ := h.slot_iff.mp ⟨k, i, hslot, ha⟩
  exact ⟨a, find_eq_ok_iff.mpr ha⟩

/-- A node with a mesh binding is a mesh. -/
theorem mesh_of_nodeAt {n : Node} (hc : View.Closed s.contents) (hn : s.nodeAt id = some n)
    (hb : n.mesh.isSome) : s.mesh id = .ok n := by
  obtain ⟨k, i, hslot, hk, hi⟩ := rowAt_eq_some.mp hn
  obtain ⟨k', hx, -⟩ := contents_of_nodeAt hn
  obtain rfl : k = k' :=
    Option.some.inj ((kindOf?_of_slot hslot).symm.trans (kindOf?_of_contents hx))
  obtain rfl : k = .mesh := (hc.mesh hx).mp hb
  exact find_eq_ok_iff.mpr (rowAt_eq_some.mpr ⟨.mesh, i, hslot, rfl, hi⟩)

/-- The two ways to say which geometry a node is bound to. -/
theorem geometryOf_eq_some (hc : View.Closed s.contents) (hid : id ≠ .null) (m : ComponentId) :
    s.geometryOf m = some id ↔ s.nodeAt.draws m = some id := by
  cases hn : s.nodeAt m with
  | none =>
    rw [View.draws_of_none hn]
    unfold geometryOf
    cases hm : s.mesh m with
    | error e => simp
    | ok n => simp [nodeAt_of_mesh hm] at hn
  | some n =>
    rw [View.draws_of_some hn]
    cases hb : n.mesh with
    | none =>
      unfold geometryOf
      cases hm : s.mesh m with
      | error e => simp
      | ok n' =>
        obtain rfl : n = n' := Option.some.inj (hn.symm.trans (nodeAt_of_mesh hm))
        simp [hb]
    | some b =>
      have hm := mesh_of_nodeAt hc hn (by rw [hb]; rfl)
      simp only [geometryOf, hm, hb, Option.map_some, Option.bind_some, Option.some.injEq]
      exact eq_comm.trans (View.nonNull_eq_some hid).symm

/-- Meshes and materials refer to what exists, and a geometry lists each mesh that names it once and
no other. -/
theorem Reachable.references [Mat4.Arithmetic] (h : Reachable s) :
    (∀ id n b, s.mesh id = .ok n → n.mesh = some b →
      (b.geometry ≠ .null → ∃ g, s.geometry b.geometry = .ok g) ∧
      (b.material ≠ .null → ∃ m, s.material b.material = .ok m)) ∧
    (∀ id m, s.material id = .ok m → m.shader ≠ .null → ∃ a, s.shader m.shader = .ok a) ∧
    ∀ id g, s.geometry id = .ok g →
      ∀ m, g.bindings.count m = if s.geometryOf m = some id then 1 else 0 := by
  have hs := h.valid.sound
  have hc := h.closed
  refine ⟨fun id n b hn hb => ?_, fun id m hm hne => ?_, fun id g hg m => ?_⟩
  · obtain ⟨k, hx, -⟩ := contents_of_nodeAt (nodeAt_of_mesh hn)
    exact ⟨fun hne => exists_of_kind hs hs.geometries (hc.live hx (.geometry hb) hne) rfl,
      fun hne => exists_of_kind hs hs.materials (hc.live hx (.material hb) hne) rfl⟩
  · have hx := contents_of_materialAt (material_eq_ok.mp hm)
    exact exists_of_kind hs hs.shaders (hc.live hx .shader hne) rfl
  · have hg := geometry_eq_ok.mp hg
    -- a mesh that is bound to nothing names the null identifier, which no geometry has
    have hid : id ≠ .null := View.ne_null_of_some (geometryAt_null hs) hg
    have hmem : m ∈ g.bindings ↔ s.geometryOf m = some id :=
      (h.valid.batched.mem hg m).trans (geometryOf_eq_some hc hid m).symm
    rw [(h.valid.batched.nodup hg).count]
    simp only [hmem]

/-- Two meshes went from a cube and a material, which are gone, to other geometries. The identifiers
of the two were used again, each for something of another kind. -/
def recast : Scene :=
  List.foldl Operation.run {}
    [.insert .geometry ⟨5⟩ "cube", .insert .geometry ⟨6⟩ "ball", .insert .material ⟨7⟩ "red",
      .apply (.createMesh ⟨8⟩ ⟨5⟩ ⟨7⟩ "left") default,
      .apply (.createMesh ⟨9⟩ ⟨5⟩ ⟨7⟩ "right") default,
      .updateMesh ⟨9⟩ ⟨6⟩ ⟨7⟩, .destroy ⟨5⟩, .destroy ⟨7⟩, .insert .texture ⟨5⟩ "sky",
      .insert .geometry ⟨7⟩ "cone", .updateMesh ⟨8⟩ ⟨7⟩ .null]

theorem references_recast :
    recast.Reachable ∧ recast.kindOf? ⟨5⟩ = some .texture ∧
      (∃ g, recast.geometry ⟨6⟩ = .ok g ∧ g.bindings.count ⟨8⟩ = 0 ∧ g.bindings.count ⟨9⟩ = 1) ∧
      ∃ g, recast.geometry ⟨7⟩ = .ok g ∧ g.bindings.count ⟨8⟩ = 1 ∧ g.bindings.count ⟨9⟩ = 0 := by
  have h : recast.Reachable := Reachable.empty.runs (by decide)
  obtain ⟨-, -, hbindings⟩ := h.references
  have hleft : recast.geometryOf ⟨8⟩ = some ⟨7⟩ := by decide +kernel
  have hright : recast.geometryOf ⟨9⟩ = some ⟨6⟩ := by decide +kernel
  obtain ⟨ball, hball⟩ : ∃ g, recast.geometry ⟨6⟩ = .ok g := ⟨_, rfl⟩
  obtain ⟨cone, hcone⟩ : ∃ g, recast.geometry ⟨7⟩ = .ok g := ⟨_, rfl⟩
  refine ⟨h, rfl, ⟨ball, hball, ?_, ?_⟩, cone, hcone, ?_, ?_⟩
  · simp [hbindings _ _ hball, hleft]
  · simp [hbindings _ _ hball, hright]
  · simp [hbindings _ _ hcone, hleft]
  · simp [hbindings _ _ hcone, hright]

end SceneGraph.Scene
