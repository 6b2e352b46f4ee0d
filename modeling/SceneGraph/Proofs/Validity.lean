import SceneGraph.Proofs.Rebuilds

/-!
# Valid scenes

A scene is valid if it is sound, its nodes form a forest, its matrices are fresh as far as the
staleness of the nodes promises it, and so are the batches of its geometries. Every edit of
a scene keeps it valid; the destruction of components is left to a module of its own.
-/

namespace SceneGraph.Scene

variable {s s' : Scene} {id c p x : ComponentId} {n m : Node}

structure Valid [Mat4.Arithmetic] (s : Scene) : Prop where
  sound : Sound s
  forest : View.Forest s.nodeAt
  fresh : View.Fresh s.nodeAt
  batched : View.Batched s.nodeAt s.geometryAt

namespace Valid

variable [Mat4.Arithmetic]

theorem rooted (h : Valid s) : View.Rooted s.nodeAt := h.forest.toRooted

/-- An edit of nodes that the batches do not see. -/
theorem of_nodeEdit (h : Valid s) (he : NodeEdit s s') (hf : View.Forest s'.nodeAt)
    (hm : View.Fresh s'.nodeAt) (hd : s'.nodeAt.drawn = s.nodeAt.drawn) : Valid s' where
  sound := he.sound h.sound
  forest := hf
  fresh := hm
  batched := by
    rw [he.geometryAt]
    exact h.batched.congr hd

/-- An edit of geometries. -/
theorem of_geometryEdit (h : Valid s) (he : GeometryEdit s s')
    (hb : View.Batched s.nodeAt s'.geometryAt) : Valid s' where
  sound := he.sound h.sound
  forest := he.nodeAt ▸ h.forest
  fresh := he.nodeAt ▸ h.fresh
  batched := he.nodeAt ▸ hb

/-- An edit of what is neither a node nor a geometry. -/
theorem of_same (h : Valid s) (hs : Sound s') (hn : s'.nodeAt = s.nodeAt)
    (hg : s'.geometryAt = s.geometryAt) : Valid s' where
  sound := hs
  forest := hn ▸ h.forest
  fresh := hn ▸ h.fresh
  batched := by
    rw [hn, hg]
    exact h.batched

/-- The source of identifiers makes no difference. -/
theorem source (h : Valid s) (ids : IdSource) : Valid { s with ids } := by
  refine h.of_same ?_ rfl rfl
  exact { h.sound with }

theorem material {f : Material → Material} (h : Valid s) (hf : ∀ m, (f m).id = m.id)
    (id : ComponentId) : Valid (s.modifyMaterial id f) :=
  h.of_same (h.sound.modifyMaterial hf id) rfl rfl

theorem shader {f : Shader → Shader} (h : Valid s) (hf : ∀ a, (f a).id = a.id)
    (id : ComponentId) : Valid (s.modifyShader id f) :=
  h.of_same (h.sound.modifyShader hf id) rfl rfl

theorem texture {f : Texture → Texture} (h : Valid s) (hf : ∀ a, (f a).id = a.id)
    (id : ComponentId) : Valid (s.modifyTexture id f) :=
  h.of_same (h.sound.modifyTexture hf id) rfl rfl

section Addition

/-- The matrices of a new node are what its place gives. -/
theorem new_local (id : ComponentId) (name : String) :
    (Node.new id name).localMatrix = (Node.new id name).computeLocal :=
  Mat4.Arithmetic.ofScaleRotationPosition_default.symm

theorem new_world (id : ComponentId) (name : String) :
    (Node.new id name).worldMatrix = .identity * (Node.new id name).localMatrix :=
  Mat4.Arithmetic.identity_mul_identity.symm

theorem add (h : Valid s) (kind : ComponentKind) (name : String) (hid : id ≠ .null)
    (hfree : s.slots.get? id = none) : Valid (s.add kind id name) := by
  have hnode : s.nodeAt id = none := rowAt_of_free hfree
  have hgeometry : s.geometryAt id = none := rowAt_of_free hfree
  have hsound : Sound (s.add kind id name) := h.sound.add hid hfree
  have hinsert : ∀ n, newNode kind id name = some n →
      n.parent = .null ∧ n.children = [] ∧ n.localMatrix = n.computeLocal ∧
        n.worldMatrix = .identity * n.localMatrix ∧
        (n.mesh.bind fun b => b.geometry.nonNull) = none := by
    intro n hn
    cases kind with
    | transform =>
      cases hn
      exact ⟨rfl, rfl, new_local id name, new_world id name, rfl⟩
    | mesh =>
      cases hn
      exact ⟨rfl, rfl, new_local id name, new_world id name, rfl⟩
    | _ => cases hn
  cases hnew : newNode kind id name with
  | some n =>
    obtain ⟨hp, hch, hl, hw, hb⟩ := hinsert n hnew
    have hv : (s.add kind id name).nodeAt = s.nodeAt.insert id n := by
      rw [nodeAt_add h.sound hfree, hnew]
    have hg : (s.add kind id name).geometryAt = s.geometryAt := by
      rw [geometryAt_add h.sound hfree, if_neg]
      intro hk
      rw [hk] at hnew
      cases hnew
    refine ⟨hsound, ?_, ?_, ?_⟩
    · rw [hv]
      exact h.forest.insert hid hnode hp hch
    · rw [hv]
      exact h.fresh.insert h.rooted hid hnode hp hl hw
    · rw [hv, hg]
      exact h.batched.insertNode hnode hb
  | none =>
    have hv : (s.add kind id name).nodeAt = s.nodeAt := by
      rw [nodeAt_add h.sound hfree, hnew]
    refine ⟨hsound, hv ▸ h.forest, hv ▸ h.fresh, ?_⟩
    rw [hv, geometryAt_add h.sound hfree]
    split
    · exact h.batched.insertGeometry hgeometry rfl rfl
    · exact h.batched

end Addition

section Nodes

theorem rename (h : Valid s) (id : ComponentId) (name : String) :
    Valid (s.modifyNode id (Row.rename name)) := by
  have he : NodeEdit s (s.modifyNode id (Row.rename name)) :=
    .modifyNode s id fun _ => rfl
  have hv : (s.modifyNode id (Row.rename name)).nodeAt = s.nodeAt.edit fun x n =>
      { n with name := if x = id then Name.clamp name else n.name } := by
    rw [nodeAt_modifyNode h.sound]
    refine View.edit_congr fun x n _ => ?_
    split <;> rfl
  refine h.of_nodeEdit he ?_ ?_ ?_
  · rw [hv]
    exact h.forest.edit (fun _ _ => rfl) fun _ _ => rfl
  · rw [hv]
    exact h.fresh.edit fun _ _ => rfl
  · rw [hv]
    exact View.drawn_edit fun _ _ => ⟨rfl, rfl⟩

/-- The marking goes its way whatever the node has been given. -/
theorem nodeAt_placed {f : Node → Node} (h : Valid s) (id : ComponentId)
    (hf : ∀ n, f n =
      { n with position := (f n).position, rotation := (f n).rotation, scale := (f n).scale }) :
    ((s.modifyNode id f).flag id .local).nodeAt = (s.modifyNode id f).nodeAt.flag id .local := by
  have he : NodeEdit s (s.modifyNode id f) := .modifyNode s id fun n => by rw [hf]
  have hparent : ∀ n, (f n).parent = n.parent := fun n => by rw [hf]
  have hmod : (s.modifyNode id f).nodeAt = s.nodeAt.modify id f := nodeAt_modifyNode h.sound f id
  have hr : View.Rooted (s.modifyNode id f).nodeAt := by
    rw [hmod]
    exact h.rooted.modify hparent
  refine nodeAt_flag (he.sound h.sound) hr (fun x hx => ?_) _
  rw [hmod]
  refine (h.fresh.marked x).modify (hr.ne_of_above hx).symm hparent fun n hn => ?_
  rw [hf]
  exact hn

theorem place {f : Node → Node} (h : Valid s) (id : ComponentId)
    (hf : ∀ n, f n =
      { n with position := (f n).position, rotation := (f n).rotation, scale := (f n).scale }) :
    Valid ((s.modifyNode id f).flag id .local) := by
  have he : NodeEdit s (s.modifyNode id f) := .modifyNode s id fun n => by rw [hf]
  have hparent : ∀ n, (f n).parent = n.parent := fun n => by rw [hf]
  have hchildren : ∀ n, (f n).children = n.children := fun n => by rw [hf]
  have hmesh : ∀ n, (f n).mesh = n.mesh := fun n => by rw [hf]
  have hworld : ∀ n, (f n).worldMatrix = n.worldMatrix := fun n => by rw [hf]
  have hv := h.nodeAt_placed id hf
  rw [nodeAt_modifyNode h.sound] at hv
  refine h.of_nodeEdit (he.trans (nodeEdit_flag _ _ _)) ?_ ?_ ?_
  · rw [hv]
    have hforest : View.Forest (s.nodeAt.modify id f) := h.forest.modify hparent hchildren
    exact ⟨hforest.toRooted.flag _ _, fun p => (hforest.linked p).flag _ _⟩
  · rw [hv]
    exact h.fresh.place h.rooted id hf
  · rw [hv, View.drawn_flag]
    exact View.drawn_edit fun x n => ⟨View.keeps_if hmesh x n, View.keeps_if hworld x n⟩

theorem flag (h : Valid s) (id : ComponentId) (g : Staleness) : Valid (s.flag id g) := by
  have hv : (s.flag id g).nodeAt = s.nodeAt.flag id g :=
    nodeAt_flag h.sound h.rooted (fun x _ => h.fresh.marked x) g
  refine h.of_nodeEdit (nodeEdit_flag _ _ _) ?_ ?_ ?_
  · rw [hv]
    exact ⟨h.rooted.flag _ _, fun p => (h.forest.linked p).flag _ _⟩
  · rw [hv]
    exact h.fresh.flag h.rooted id g
  · rw [hv, View.drawn_flag]

end Nodes

section Links

theorem nodeAt_detached (h : Valid s) (c : ComponentId) :
    ((s.detach c).flag c .world).nodeAt = (s.nodeAt.unlink c).flag c .world := by
  have hv := nodeAt_detach h.sound h.rooted c
  rw [← hv]
  refine nodeAt_flag ((nodeEdit_detach s c).sound h.sound) ?_ (fun x _ => ?_) _
  · rw [hv]
    exact h.rooted.unlink c
  · rw [hv]
    exact (h.fresh.marked x).unlink c

theorem detach (h : Valid s) (c : ComponentId) : Valid ((s.detach c).flag c .world) := by
  have hv := h.nodeAt_detached c
  refine h.of_nodeEdit ((nodeEdit_detach s c).trans (nodeEdit_flag _ _ _)) ?_ ?_ ?_
  · rw [hv]
    exact ⟨(h.rooted.unlink c).flag _ _, fun p => ((h.forest.linked p).unlink c).flag _ _⟩
  · rw [hv]
    exact h.fresh.detach h.rooted c
  · rw [hv, View.drawn_flag, View.drawn_unlink]

theorem rooted_attached (h : Valid s) (hc : s.nodeAt c = some n) (hp : s.nodeAt p = some m)
    (hpc : ¬ Under s.nodeAt.up p c) : View.Rooted ((s.nodeAt.unlink c).link p c) := by
  refine (h.rooted.unlink c).link (View.edit_of_some hc) (fun _ => ⟨_, View.edit_of_some hp⟩) ?_
  intro hu
  refine hpc (hu.congr fun x q _ hx => ?_)
  simp only [View.up_unlink] at hx
  split at hx
  · cases hx
  · exact hx

theorem nodeAt_attached (h : Valid s) (hc : s.nodeAt c = some n) (hp : s.nodeAt p = some m)
    (hpc : ¬ Under s.nodeAt.up p c) :
    ((s.detach c).adopt p c).nodeAt = ((s.nodeAt.unlink c).link p c).flag c .world := by
  have hv := nodeAt_detach h.sound h.rooted c
  rw [← hv]
  refine nodeAt_adopt (n := { n with
      parent := .null
      children := if s.nodeAt.up c = some c then swapErase n.children c else n.children })
    ((nodeEdit_detach s c).sound h.sound) ?_ (fun x _ => ?_) ?_
  · rw [hv]
    exact h.rooted_attached hc hp hpc
  · rw [hv]
    exact (h.fresh.marked x).unlink c
  · rw [hv]
    refine View.edit_eq_some.mpr ⟨n, hc, ?_⟩
    rw [if_pos rfl]

theorem attach (h : Valid s) (hc : s.nodeAt c = some n) (hp : s.nodeAt p = some m)
    (hpc : ¬ Under s.nodeAt.up p c) : Valid ((s.detach c).adopt p c) := by
  have hv := h.nodeAt_attached hc hp hpc
  have hr := h.rooted_attached hc hp hpc
  refine h.of_nodeEdit ((nodeEdit_detach s c).trans (nodeEdit_adopt _ _ _)) ?_ ?_ ?_
  · rw [hv]
    refine ⟨hr.flag _ _, fun q => View.LinkedAt.flag ?_ _ _⟩
    refine ((h.forest.linked q).unlink c).link (h.rooted.unlink c) (View.edit_of_some hc) ?_
    rw [View.up_unlink]
    simp
  · rw [hv]
    exact h.fresh.attach hr hc
  · rw [hv, View.drawn_flag, View.drawn_link, View.drawn_unlink]

/-- The start of taking all children from `p`. -/
theorem handover_bare (h : Valid s) (hp : s.nodeAt p = some n) :
    View.Handover (s.modifyNode p fun n => { n with children := [] }).nodeAt p .null
      n.children := by
  rw [nodeAt_modifyNode h.sound]
  exact .start h.forest h.fresh.marked hp fun _ => ⟨rfl, rfl, rfl⟩

theorem bare (h : Valid s) (hp : s.nodeAt p = some n) :
    Valid (n.children.foldl (fun s c => s.adopt .null c)
      (s.modifyNode p fun n => { n with children := [] })) := by
  have he : NodeEdit s (s.modifyNode p fun n => { n with children := [] }) :=
    .modifyNode s p fun _ => rfl
  have hstart := h.handover_bare hp
  have hv := nodeAt_adoptAll (he.sound h.sound) hstart
  have hmod : (s.modifyNode p fun n => { n with children := [] }).nodeAt =
      s.nodeAt.edit fun x n => { n with children := if x = p then [] else n.children } := by
    rw [nodeAt_modifyNode h.sound]
    refine View.edit_congr fun x n _ => ?_
    split <;> rfl
  have hfresh : View.Fresh (s.modifyNode p fun n => { n with children := [] }).nodeAt := by
    rw [hmod]
    exact h.fresh.edit fun _ _ => rfl
  refine h.of_nodeEdit (he.trans (nodeEdit_adoptAll _ _ _)) ?_ ?_ ?_
  · rw [hv]
    exact hstart.hand.forest
  · rw [hv]
    exact ⟨hstart.hand.marked, fun x => (hfresh.local_eq x).hand _ _,
      fun x => (hfresh.world_eq x).hand _ _⟩
  · rw [hv, View.drawn_hand, hmod]
    exact View.drawn_edit fun _ _ => ⟨rfl, rfl⟩

end Links

section Geometries

/-- An edit of geometries that leaves alone what is drawn. -/
def Inert (f : Geometry → Geometry) : Prop :=
  ∀ g, (f g).id = g.id ∧ (f g).bindings = g.bindings ∧ (f g).batches = g.batches ∧
    (f g).instancesStale = g.instancesStale

theorem geometry {f : Geometry → Geometry} (h : Valid s) (hf : Inert f) (id : ComponentId) :
    Valid (s.modifyGeometry id f) := by
  refine h.of_geometryEdit (.modifyGeometry s id fun g => (hf g).1) ?_
  rw [geometryAt_modifyGeometry h.sound]
  refine h.batched.editGeometries (fun x g => ?_) fun x g hs => ?_
  · split
    · exact (hf g).2.1
    · rfl
  · split at hs
    · rw [if_pos ‹_›]
      exact ⟨(hf g).2.2.2 ▸ hs, (hf g).2.2.1⟩
    · rw [if_neg ‹_›]
      exact ⟨hs, rfl⟩

theorem geometries {f : Geometry → Geometry} (h : Valid s) (hf : Inert f) :
    Valid { s with geometries := s.geometries.map f } := by
  refine h.of_geometryEdit ⟨Placed.ids_map (fun g => (hf g).1) s.geometries, rfl⟩ ?_
  have hw : Scene.geometryAt { s with geometries := s.geometries.map f } =
      s.geometryAt.edit fun _ => f :=
    funext fun x => rowAt_map f
  rw [hw]
  exact h.batched.editGeometries (fun _ g => (hf g).2.1) fun _ g hs =>
    ⟨(hf g).2.2.2 ▸ hs, (hf g).2.2.1⟩

omit [Mat4.Arithmetic] in
theorem batchesOf_eq (s : Scene) (l : List ComponentId) : s.batchesOf l = s.nodeAt.batches l := by
  unfold batchesOf View.batches
  apply List.foldl_ext
  intro bs id _
  cases hn : s.nodeAt id with
  | none =>
    obtain ⟨e, he⟩ := find_eq_error hn
    simp [node, he, View.drawn, hn]
  | some n => simp [node_eq_ok.mpr hn, View.drawn, hn]

theorem rebatch (h : Valid s) (id : ComponentId) : Valid (s.rebatch id) := by
  refine h.of_geometryEdit (.modifyGeometry s id fun _ => rfl) ?_
  rw [Scene.rebatch, geometryAt_modifyGeometry h.sound]
  simp only [batchesOf_eq]
  exact h.batched.rebatch id

theorem rebuild (h : Valid s) (hn : s.nodeAt id = some n) : Valid (s.rebuiltFrom id).1 := by
  have hs := rebuiltFrom_spec h.sound h.forest h.fresh.marked hn
  exact ⟨hs.sound, hs.rebuilt.forest h.forest, hs.rebuilt.fresh h.rooted h.fresh,
    hs.batched h.batched⟩

end Geometries

end Valid

/-- The scene with another mesh binding at the node `id`. -/
abbrev remesh (s : Scene) (id : ComponentId) (b : Option MeshBinding) : Scene :=
  s.modifyNode id fun n => { n with mesh := b }

/-- The mesh `id`, with the record `n`, bound anew. -/
def rebind (s : Scene) (id : ComponentId) (n : Node) (geometry material : ComponentId) : Scene :=
  let old := n.mesh.getD {}
  let t := s.remesh id (some { geometry, material })
  if old.geometry ≠ geometry then
    (t.modifyGeometry old.geometry fun g => g.unbind id).modifyGeometry geometry fun g => g.bind id
  else if old.material ≠ material then
    t.modifyGeometry geometry fun g => { g with instancesStale := true }
  else t

theorem nodeEdit_remesh (s : Scene) (id : ComponentId) (b : Option MeshBinding) :
    NodeEdit s (s.remesh id b) :=
  .modifyNode s id fun _ => rfl

theorem draws_of_nodeAt (hn : s.nodeAt id = some n) :
    s.nodeAt.draws id = (n.mesh.getD {}).geometry.nonNull := by
  rw [View.draws_of_some hn]
  cases n.mesh with
  | none => rfl
  | some b => rfl

namespace Valid

section Meshes

variable {b : MeshBinding}

variable [Mat4.Arithmetic]

/-- The nodes with another mesh binding at `id`. -/
theorem nodeAt_remesh (h : Valid s) (id : ComponentId) (b : Option MeshBinding) :
    (s.remesh id b).nodeAt =
      s.nodeAt.edit fun x n => { n with mesh := if x = id then b else n.mesh } := by
  rw [nodeAt_modifyNode h.sound]
  refine View.edit_congr fun x n _ => ?_
  split <;> rfl

theorem of_remesh {t : Scene} {b : Option MeshBinding} (h : Valid s)
    (he : GeometryEdit (s.remesh id b) t)
    (hb : View.Batched (s.remesh id b).nodeAt t.geometryAt) : Valid t := by
  have hv := h.nodeAt_remesh id b
  refine ⟨he.sound ((nodeEdit_remesh s id b).sound h.sound), ?_, ?_, ?_⟩
  · rw [he.nodeAt, hv]
    exact h.forest.edit (fun _ _ => rfl) fun _ _ => rfl
  · rw [he.nodeAt, hv]
    exact h.fresh.edit fun _ _ => rfl
  · rw [he.nodeAt]
    exact hb

theorem nodeAt_remeshed (h : Valid s) (hn : s.nodeAt id = some n) (b : MeshBinding) :
    (s.remesh id (some b)).nodeAt id = some { n with mesh := some b } := by
  rw [h.nodeAt_remesh, View.edit_of_some hn, if_pos rfl]

theorem drawn_remesh (h : Valid s) (b : MeshBinding) (hx : x ≠ id) :
    (s.remesh id (some b)).nodeAt.drawn x = s.nodeAt.drawn x := by
  rw [h.nodeAt_remesh]
  exact View.drawn_edit_of fun m _ => ⟨if_neg hx, rfl⟩

theorem draws_remeshed (h : Valid s) (hn : s.nodeAt id = some n) (b : MeshBinding) :
    (s.remesh id (some b)).nodeAt.draws id = b.geometry.nonNull :=
  draws_of_nodeAt (h.nodeAt_remeshed hn b)

/-- As long as a mesh keeps its geometry, every node is drawn where it was. -/
theorem draws_remesh (h : Valid s) (hn : s.nodeAt id = some n)
    (hb : (n.mesh.getD {}).geometry = b.geometry) (x : ComponentId) :
    (s.remesh id (some b)).nodeAt.draws x = s.nodeAt.draws x := by
  by_cases hx : x = id
  · rw [hx, h.draws_remeshed hn, draws_of_nodeAt hn, hb]
  · exact View.draws_of_drawn (h.drawn_remesh b hx)

/-- Binding a mesh to what it is bound to already changes nothing that is drawn. -/
theorem remesh_same (h : Valid s) (hn : s.nodeAt id = some n) (hb : n.mesh.getD {} = b) :
    Valid (s.remesh id (some b)) := by
  refine h.of_remesh (.refl _) ?_
  rw [(nodeEdit_remesh s id _).geometryAt]
  refine h.batched.keep (h.draws_remesh hn (congrArg MeshBinding.geometry hb)) fun x g hx => ?_
  by_cases hxid : x = id
  · rw [hxid, View.draws_of_some hn] at hx
    have hmesh : n.mesh = some b := by
      cases hm : n.mesh with
      | none => simp [hm] at hx
      | some o =>
        rw [hm] at hb
        exact congrArg some hb
    rw [hxid, View.drawn_of_some (h.nodeAt_remeshed hn b), View.drawn_of_some hn, hmesh]
  · exact h.drawn_remesh b hxid

/-- A mesh with another material makes its geometry stale. -/
theorem remesh_material (h : Valid s) (hn : s.nodeAt id = some n)
    (hb : (n.mesh.getD {}).geometry = b.geometry) :
    Valid ((s.remesh id (some b)).modifyGeometry b.geometry fun g =>
      { g with instancesStale := true }) := by
  have he := nodeEdit_remesh s id (some b)
  refine h.of_remesh (.modifyGeometry _ _ fun _ => rfl) ?_
  rw [geometryAt_modifyGeometry (he.sound h.sound), he.geometryAt]
  have hbatched := h.batched.remark (fun g => decide (g = b.geometry)) (h.draws_remesh hn hb)
    fun x g hx hne => ?_
  · simpa [View.modify] using hbatched
  · by_cases hxid : x = id
    · rw [hxid, draws_of_nodeAt hn, hb, ComponentId.nonNull_eq_some_iff] at hx
      exact decide_eq_true hx.2.symm
    · exact absurd (h.drawn_remesh b hxid) hne

/-- A mesh that goes to another geometry leaves the one and joins the other. -/
theorem remesh_geometry (h : Valid s) (hn : s.nodeAt id = some n)
    (hg : b.geometry ≠ .null → ∃ g, s.geometryAt b.geometry = some g) :
    Valid (((s.remesh id (some b)).modifyGeometry (n.mesh.getD {}).geometry fun g =>
      g.unbind id).modifyGeometry b.geometry fun g => g.bind id) := by
  have he := nodeEdit_remesh s id (some b)
  have hs := he.sound h.sound
  have hunbind : GeometryEdit (s.remesh id (some b)) ((s.remesh id (some b)).modifyGeometry
      (n.mesh.getD {}).geometry fun g => g.unbind id) :=
    .modifyGeometry _ _ (Geometry.id_unbind id)
  refine h.of_remesh (hunbind.trans (.modifyGeometry _ _ fun _ => rfl)) ?_
  rw [geometryAt_modifyGeometry (hunbind.sound hs), geometryAt_modifyGeometry hs, he.geometryAt]
  exact h.batched.rebind (fun x hx => h.drawn_remesh b hx) (draws_of_nodeAt hn)
    (h.draws_remeshed hn b) (geometryAt_null h.sound) hg

theorem rebind {geometry material : ComponentId} (h : Valid s) (hn : s.nodeAt id = some n)
    (hg : geometry ≠ .null → ∃ g, s.geometryAt geometry = some g) :
    Valid (s.rebind id n geometry material) := by
  unfold Scene.rebind
  by_cases hgeo : (n.mesh.getD {}).geometry = geometry
  · rw [if_neg (not_not.mpr hgeo)]
    by_cases hmat : (n.mesh.getD {}).material = material
    · rw [if_neg (not_not.mpr hmat)]
      exact h.remesh_same hn (congrArg₂ MeshBinding.mk hgeo hmat)
    · rw [if_pos hmat]
      exact h.remesh_material (b := ⟨geometry, material⟩) hn hgeo
  · rw [if_pos hgeo]
    exact h.remesh_geometry (b := ⟨geometry, material⟩) hn hg

end Meshes

end Valid

end SceneGraph.Scene
