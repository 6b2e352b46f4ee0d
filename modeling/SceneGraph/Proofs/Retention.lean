import SceneGraph.Proofs.IndependentWrites

/-!
# What keeps the parts of geometries

The vertex data of a geometry is written by a few commands, its batches are made by rebuilding them,
and whether they wait to be uploaded is decided there and where they are handed out. No other edit
has a hand in it, accepted or refused, as long as the geometry lives. Each edit is put together from
questions and smaller edits, and the property goes through the composition. It is stated for any
part of a geometry, and what may concern the part is left to the writes and to the rebuilds.
-/

namespace SceneGraph

namespace Geometry

variable {γ : Type} {q : Geometry → γ}

/-- A part of geometries that neither their names nor their meshes belong to, nor whether anything
has changed. -/
class Apart (q : Geometry → γ) : Prop where
  name : ∀ (g : Geometry) (name : String), q { g with name } = q g
  drawn : ∀ (g : Geometry) (bindings : List ComponentId) (instancesStale : Bool),
    q { g with bindings, instancesStale } = q g
  dirty : ∀ (g : Geometry) (verticesDirty : Bool), q { g with verticesDirty } = q g

/-- A part of geometries that batches do not belong to. -/
class Unbatched (q : Geometry → γ) : Prop where
  batches : ∀ (g : Geometry) (batches : List InstanceBatch) (instancesStale uploadPending : Bool),
    q { g with batches, instancesStale, uploadPending } = q g

theorem Unbatched.takeUpload [Unbatched q] (g : Geometry) : q g.takeUpload.2 = q g := by
  unfold Geometry.takeUpload
  split
  · exact Unbatched.batches g g.batches g.instancesStale false
  · rfl

variable [Apart q]

theorem Apart.unbind (g : Geometry) (mesh : ComponentId) : q (g.unbind mesh) = q g := by
  unfold Geometry.unbind
  split
  · exact Apart.drawn g _ _
  · rfl

theorem Apart.stale_if (g : Geometry) (p : Prop) [Decidable p] :
    q (if p then { g with instancesStale := true } else g) = q g := by
  split
  · exact Apart.drawn g _ _
  · rfl

end Geometry

open SceneGraph.Geometry (Apart Unbatched)

namespace Operation

/-- Whether an operation rebuilds batches or hands them out. -/
def uploads : Operation → Bool
  | rebuildGeometry _ | rebuildStaleGeometries | takeInstanceUpload _ | takeAll => true
  | _ => false

/-- The command that an operation carries out, if there is one for it. -/
def command? : Operation → Option Command
  | setName id name => some (.setName id name)
  | destroy id => some (.destroy id)
  | setPosition id position => some (.setPosition id position)
  | setRotation id rotation => some (.setRotation id rotation)
  | setScale id scale => some (.setScale id scale)
  | addChild parent child => some (.addChild parent child)
  | removeChild parent child => some (.removeChild parent child)
  | removeAllChildren parent => some (.removeAllChildren parent)
  | setVertexAttribute geometry location components data =>
    some (.setVertexAttribute geometry location components data)
  | setIndices geometry indices => some (.setIndices geometry indices)
  | setVertexCount geometry count => some (.setVertexCount geometry count)
  | setIndicesCount geometry count => some (.setIndicesCount geometry count)
  | updateMesh mesh geometry material => some (.updateMesh mesh geometry material)
  | setMaterialUniform material slot value => some (.setMaterialUniform material slot value)
  | writeTexture texture pixels => some (.textureWrite texture pixels)
  | apply command _ => some command
  | _ => none

end Operation

namespace Scene

variable {α β γ : Type} {q : Geometry → γ} {s s' : Scene} {x id : ComponentId} {k' : Geometry}
  {c : Command} {op : Operation}

/-- The part `q` of the geometry `x` is as it was, and that of a new one if `x` is new. -/
structure Retains (q : Geometry → γ) (x : ComponentId) (s s' : Scene) : Prop where
  sound : Sound s'
  kept : (s'.geometryAt x).map q = (s.geometryAt x).map q ∨
    s.geometryAt x = none ∧ ∃ name, (s'.geometryAt x).map q = some (q (.new x name))

namespace Retains

theorem refl (hs : Sound s) : Retains q x s s := ⟨hs, .inl rfl⟩

theorem trans {s'' : Scene} (h : Retains q x s s') (h' : Retains q x s' s'') :
    Retains q x s s'' := by
  refine ⟨h'.sound, ?_⟩
  rcases h.kept with hsame | ⟨hnone, name, hnew⟩
  · rcases h'.kept with hsame' | ⟨hnone', name, hnew⟩
    · exact .inl (hsame'.trans hsame)
    · rw [hnone', Option.map_none, eq_comm, Option.map_eq_none_iff] at hsame
      exact .inr ⟨hsame, name, hnew⟩
  · rcases h'.kept with hsame' | ⟨hnone', -⟩
    · exact .inr ⟨hnone, name, hsame'.trans hnew⟩
    · rw [hnone'] at hnew
      cases hnew

theorem of_geometryAt (hs : Sound s') (h : s'.geometryAt = s.geometryAt) : Retains q x s s' :=
  ⟨hs, .inl (by rw [h])⟩

theorem of_nodeEdit (hs : Sound s) (h : NodeEdit s s') : Retains q x s s' :=
  of_geometryAt (h.sound hs) h.geometryAt

theorem of_edit {f : ComponentId → Geometry → Geometry} (hs : Sound s')
    (h : s'.geometryAt = s.geometryAt.edit f) (hf : ∀ g, q (f x g) = q g) : Retains q x s s' := by
  refine ⟨hs, .inl ?_⟩
  rw [h, View.edit, Option.map_map]
  exact congrArg (fun r => (s.geometryAt x).map r) (funext hf)

theorem modifyGeometry {f : Geometry → Geometry} (hs : Sound s) (hid : ∀ g, (f g).id = g.id)
    (hf : x = id → ∀ g, q (f g) = q g) : Retains q x s (s.modifyGeometry id f) := by
  refine of_edit ((GeometryEdit.modifyGeometry s id hid).sound hs)
    (geometryAt_modifyGeometry hs f id) fun g => ?_
  split
  · next hx => exact hf hx g
  · rfl

theorem modifyMaterial {f : Material → Material} (hs : Sound s) (hf : ∀ m, (f m).id = m.id) :
    Retains q x s (s.modifyMaterial id f) := of_geometryAt (hs.modifyMaterial hf id) rfl

theorem modifyShader {f : Shader → Shader} (hs : Sound s) (hf : ∀ a, (f a).id = a.id) :
    Retains q x s (s.modifyShader id f) := of_geometryAt (hs.modifyShader hf id) rfl

theorem modifyTexture {f : Texture → Texture} (hs : Sound s) (hf : ∀ t, (f t).id = t.id) :
    Retains q x s (s.modifyTexture id f) := of_geometryAt (hs.modifyTexture hf id) rfl

theorem add (hs : Sound s) (hid : id ≠ .null) (hfree : s.slots.get? id = none)
    (kind : ComponentKind) (name : String) : Retains q x s (s.add kind id name) := by
  refine ⟨hs.add hid hfree, ?_⟩
  have hview : (s.add kind id name).geometryAt = _ := geometryAt_add hs hfree
  rw [hview]
  split
  · by_cases hx : x = id
    · subst hx
      exact .inr ⟨rowAt_of_free hfree, name, by rw [View.insert, if_pos rfl]; rfl⟩
    · rw [View.insert, if_neg hx]
      exact .inl rfl
  · exact .inl rfl

theorem removeSlot {slot : Slot} (h : Retains q x s s') (hslot : s'.slots.get? id = some slot)
    (hx : x ≠ id) : Retains q x s (s'.removeSlot id slot) := by
  have hr := removeSlot_removal h.sound hslot
  refine h.trans ⟨hr.sound h.sound, .inl ?_⟩
  rw [hr.geometries.2, View.erase, if_neg hx]

end Retains

/-- The edit leaves the part `q` of `x` alone, accepted or refused. -/
def Retaining (q : Geometry → γ) (x : ComponentId) (e : SceneEdit α) : Prop :=
  ∀ ⦃s⦄, Sound s → Retains q x s (s.after e)

namespace Retaining

variable {e : SceneEdit α} {f : α → SceneEdit β}

theorem after_eq {a : α} (h : e s = .ok a s') : s.after e = s' := by
  rw [after, h]

theorem bind (h : Retaining q x e) (hf : ∀ a, Retaining q x (f a)) : Retaining q x (e >>= f) := by
  intro s hs
  have hfirst := h hs
  unfold after at hfirst ⊢
  cases he : e s with
  | ok a t =>
    rw [he] at hfirst
    rw [bind_ok he]
    exact hfirst.trans (hf a hfirst.sound)
  | error err t =>
    rw [he] at hfirst
    rw [bind_error he]
    exact hfirst

theorem pure (a : α) : Retaining q x (Pure.pure a) := fun _ hs => .refl hs

theorem throw (err : SceneError) : Retaining q x (MonadExcept.throw err : SceneEdit α) :=
  fun _ hs => .refl hs

theorem throw_bind (err : SceneError) :
    Retaining q x ((MonadExcept.throw err : SceneEdit α) >>= f) := fun _ hs => .refl hs

theorem get : Retaining q x (get : SceneEdit Scene) := fun _ hs => .refl hs

theorem modify {g : Scene → Scene} (h : ∀ {s}, Sound s → Retains q x s (g s)) :
    Retaining q x (modify g : SceneEdit Unit) := fun _ hs => h hs

theorem ask (look : Scene → Except SceneError α) : Retaining q x (Scene.ask look) := by
  intro s hs
  unfold after Scene.ask
  cases look s with
  | ok a => exact .refl hs
  | error err => exact .refl hs

theorem askIf {b : Bool} {look : Scene → Except SceneError α} {e : SceneEdit β}
    (h : Retaining q x e) :
    Retaining q x (if b = true then Scene.ask look >>= fun _ => e else e) := by
  split
  · exact .bind (.ask look) fun _ => h
  · exact h

theorem discard (h : Retaining q x e) : Retaining q x (discard e) := by
  rw [discard_eq]
  exact h.bind fun _ => .pure ()

theorem forM {δ : Type} {f : δ → SceneEdit PUnit} (h : ∀ c, Retaining q x (f c)) (l : List δ) :
    Retaining q x (l.forM f) := by
  induction l with
  | nil => exact .pure _
  | cons c l ih => exact .bind (h c) fun _ => ih

section Updates

variable (id : ComponentId)

theorem updateNode {f : Node → Node} (hf : ∀ n, (f n).id = n.id) :
    Retaining q x (updateNode id f) :=
  .bind (.ask _) fun _ => .modify fun hs => .of_nodeEdit hs (.modifyNode _ id hf)

theorem updateGeometry {f : Geometry → Geometry} (hid : ∀ g, (f g).id = g.id)
    (hf : x = id → ∀ g, q (f g) = q g) : Retaining q x (updateGeometry id f) :=
  .bind (.ask _) fun _ => .modify fun hs => .modifyGeometry hs hid hf

theorem updateMaterial {f : Material → Material} (hf : ∀ m, (f m).id = m.id) :
    Retaining q x (updateMaterial id f) :=
  .bind (.ask _) fun _ => .modify fun hs => .modifyMaterial hs hf

theorem updateShader {f : Shader → Shader} (hf : ∀ a, (f a).id = a.id) :
    Retaining q x (updateShader id f) :=
  .bind (.ask _) fun _ => .modify fun hs => .modifyShader hs hf

theorem updateTexture {f : Texture → Texture} (hf : ∀ t, (f t).id = t.id) :
    Retaining q x (updateTexture id f) :=
  .bind (.ask _) fun _ => .modify fun hs => .modifyTexture hs hf

end Updates

end Retaining

section Hierarchy

theorem retaining_setStale (id : ComponentId) (g : Staleness) : Retaining q x (setStale id g) :=
  .bind (.ask _) fun _ => .modify fun hs => .of_nodeEdit hs (nodeEdit_flag _ id g)

/-- A node gets other values of its own and is flagged. -/
theorem retaining_place (id : ComponentId) {f : Node → Node} (hf : ∀ n, (f n).id = n.id) :
    Retaining q x (do updateNode id f; setStale id .local) :=
  .bind (.updateNode id hf) fun _ => retaining_setStale id .local

theorem retaining_setPosition (id : ComponentId) (position : Vec3) :
    Retaining q x (setPosition id position) := retaining_place id fun _ => rfl

theorem retaining_setRotation (id : ComponentId) (rotation : Quat) :
    Retaining q x (setRotation id rotation) := retaining_place id fun _ => rfl

theorem retaining_setScale (id : ComponentId) (scale : Vec3) :
    Retaining q x (setScale id scale) := retaining_place id fun _ => rfl

theorem retaining_addChild (p c : ComponentId) : Retaining q x (addChild p c) := by
  refine .bind (.ask _) fun _ => .bind (.ask _) fun n => .bind .get fun s => ?_
  dsimp only
  split
  · exact .throw_bind _
  · split
    · exact .pure ()
    · exact .bind (.modify fun hs => .of_nodeEdit hs (nodeEdit_detach _ c)) fun _ =>
        .bind (.updateNode c fun _ => rfl) fun _ =>
          .bind (.updateNode p fun _ => rfl) fun _ => retaining_setStale c .world

theorem retaining_removeChild (p c : ComponentId) : Retaining q x (removeChild p c) := by
  refine .bind (.ask _) fun _ => .bind (.ask _) fun n => ?_
  dsimp only
  split
  · exact .throw_bind _
  · exact .bind (.modify fun hs => .of_nodeEdit hs (nodeEdit_detach _ c)) fun _ =>
      retaining_setStale c .world

theorem retaining_removeAllChildren (p : ComponentId) : Retaining q x (removeAllChildren p) := by
  refine .bind (.ask _) fun n => .bind (.modify fun hs => ?_) fun _ =>
    .bind (.forM (fun c => ?_) _) fun _ => .pure _
  · exact .of_nodeEdit hs (.modifyNode _ p fun _ => rfl)
  · exact .bind (.modify fun hs => .of_nodeEdit hs (.modifyNode _ c fun _ => rfl)) fun _ =>
      retaining_setStale c .world

theorem retaining_reparent (c : ComponentId) (p : Option ComponentId) :
    Retaining q x (reparent c p) := by
  cases p with
  | some p => exact retaining_addChild p c
  | none =>
    refine .bind (.ask _) fun n => ?_
    split
    · exact .pure ()
    · exact retaining_removeChild _ c

end Hierarchy

section Components

theorem sound_source (hs : Sound s) (ids : IdSource) : Sound { s with ids } :=
  ⟨hs.nodes, hs.geometries, hs.materials, hs.shaders, hs.textures, hs.null⟩

theorem retaining_insert (kind : ComponentKind) (id : ComponentId) (name : String) :
    Retaining q x (insert kind id name) := by
  intro s hs
  unfold after
  rcases insert_cases (s := s) kind id name with ⟨e, he⟩ | ⟨hid, hfree, ht⟩
  · rw [he]
    exact .refl hs
  · rw [ht]
    have hsource : Retains q x s (s.reserve id) := .of_geometryAt (sound_source hs _) rfl
    exact hsource.trans (.add hsource.sound hid hfree kind name)

theorem retaining_setVertexAttribute {id : ComponentId} {location components : UInt32}
    {data : List Scalar}
    (h : x = id → ∀ g : Geometry, q (g.assign (.stream location.toNat components data)) = q g) :
    Retaining q x (setVertexAttribute id location components data) := by
  refine .bind (.ask _) fun _ => ?_
  dsimp only
  split
  · exact .throw_bind _
  · split
    · next hlocation =>
      refine .modify fun hs => .modifyGeometry hs (fun _ => rfl) fun hx g => ?_
      rw [← Geometry.assign_stream hlocation]
      exact h hx g
    · exact .throw _

/-- Any other vertex data is assigned as it is. -/
theorem retaining_updateGeometry_assign {id : ComponentId} {d : Datum}
    (h : x = id → ∀ g : Geometry, q (g.assign d) = q g) :
    Retaining q x (updateGeometry id (Geometry.assign d)) :=
  .updateGeometry id (Assignable.id_assign d) h

theorem retaining_setShaderSource (id : ComponentId) (vertex fragment : String) :
    Retaining q x (setShaderSource id vertex fragment) := .updateShader id fun _ => rfl

theorem retaining_setMaterialShader (id shader : ComponentId) :
    Retaining q x (setMaterialShader id shader) := .askIf (.updateMaterial id fun _ => rfl)

theorem retaining_setMaterialUniform (id : ComponentId) (slot : UInt32) (value : Vec4) :
    Retaining q x (setMaterialUniform id slot value) := by
  refine .bind (.ask _) fun _ => ?_
  split
  · exact .modify fun hs => .modifyMaterial hs fun _ => rfl
  · exact .throw _

theorem retaining_acknowledgeMaterial (id : ComponentId) : Retaining q x (acknowledgeMaterial id) :=
  .bind (.ask _) fun _ =>
    .bind (.modify fun hs => .modifyMaterial hs fun _ => rfl) fun _ => .pure _

theorem retaining_resizeTexture (id : ComponentId) (width height : UInt32) :
    Retaining q x (resizeTexture id width height) := .updateTexture id fun _ => rfl

theorem retaining_writeTexture (id : ComponentId) (pixels : Bytes) :
    Retaining q x (writeTexture id pixels) := by
  refine .bind (.ask _) fun t => ?_
  dsimp only
  split
  · exact .throw_bind _
  · exact .modify fun hs => .modifyTexture hs fun _ => rfl

theorem retaining_acknowledgeTexture (id : ComponentId) : Retaining q x (acknowledgeTexture id) :=
  .bind (.ask _) fun _ =>
    .bind (.modify fun hs => .modifyTexture hs fun _ => rfl) fun _ => .pure _

end Components

section Apart

variable [Apart q]

theorem retaining_setName (id : ComponentId) (name : String) : Retaining q x (setName id name) := by
  refine .bind (.ask _) fun c => .modify fun hs => ?_
  cases c with
  | transform | mesh => exact .of_nodeEdit hs (.modifyNode _ id fun _ => rfl)
  | geometry => exact .modifyGeometry hs (fun _ => rfl) fun _ g => Apart.name g _
  | material => exact .modifyMaterial hs fun _ => rfl
  | shader => exact .modifyShader hs fun _ => rfl
  | texture => exact .modifyTexture hs fun _ => rfl

theorem retaining_takeVertexChanges (id : ComponentId) : Retaining q x (takeVertexChanges id) :=
  .bind (.ask _) fun _ =>
    .bind (.modify fun hs => .modifyGeometry hs (fun _ => rfl) fun _ g => Apart.dirty g _)
      fun _ => .pure _

theorem retaining_bindMesh (id geometry material : ComponentId) :
    Retaining q x (bindMesh id geometry material) := by
  have hbind : Retaining q x (if (!geometry.isNull) = true then
      Scene.updateGeometry geometry fun g => g.bind id else Pure.pure ()) := by
    split
    · exact .updateGeometry geometry (fun _ => rfl) fun _ g => Apart.drawn g _ _
    · exact .pure ()
  refine .bind (.ask _) fun n => .bind (.modify fun hs => ?_) fun _ => ?_
  · exact .of_nodeEdit hs (.modifyNode _ id fun _ => rfl)
  generalize n.mesh.getD {} = old
  by_cases hmoved : old.geometry ≠ geometry
  · simp only [if_pos hmoved]
    by_cases hold : (!old.geometry.isNull) = true
    · simp only [if_pos hold]
      refine .bind (.modify fun hs => ?_) fun _ => hbind
      exact .modifyGeometry hs (Geometry.id_unbind id) fun _ g => Apart.unbind g id
    · simp only [if_neg hold]
      exact hbind
  · simp only [if_neg hmoved]
    split
    · exact .updateGeometry geometry (fun _ => rfl) fun _ g => Apart.drawn g _ _
    · exact .pure ()

theorem retaining_updateMesh (id geometry material : ComponentId) :
    Retaining q x (updateMesh id geometry material) := by
  rw [updateMesh_eq]
  refine .askIf (.askIf (.bind .get fun s => ?_))
  split
  · exact .bind (retaining_insert .mesh id "mesh") fun _ => retaining_bindMesh id geometry material
  · exact retaining_bindMesh id geometry material

/-- Before a component is removed the geometries are as they were. -/
theorem run_destroy (hs : Sound s) {slot : Slot} (hslot : s.slots.get? id = some slot)
    (x : ComponentId) : ∃ t, Retains q x s t ∧ t.slots.get? id = some slot ∧
      destroy id s = .ok slot.kind (t.removeSlot id slot) := by
  have hfound : s.slot? id = some slot := hslot
  have hnode : Role.node.accepts slot.kind → ∃ t, Retains q x s t ∧ t.slots.get? id = some slot ∧
      destroy id s = .ok slot.kind (t.removeSlot id slot) := by
    intro hk
    obtain ⟨n, hn, hrun⟩ := run_destroyNode hs hslot hk
    have he := nodeEdit_handedOver s id n
    have hg : GeometryEdit (s.handedOver id n) (s.orphaned id n) :=
      .modifyGeometry _ _ (Geometry.id_unbind id)
    have hunbind : Retains q x (s.handedOver id n) (s.orphaned id n) :=
      .modifyGeometry (he.sound hs) (Geometry.id_unbind id) fun _ g => Apart.unbind g id
    exact ⟨_, (Retains.of_nodeEdit hs he).trans hunbind, hg.slots.trans he.slots ▸ hslot, hrun⟩
  cases hk : slot.kind with
  | transform => exact hk ▸ hnode (by rw [hk]; rfl)
  | mesh => exact hk ▸ hnode (by rw [hk]; rfl)
  | geometry =>
    have he := nodeEdit_forgetGeometry hs id
    refine ⟨s.forgetGeometry id, .of_nodeEdit hs he, he.slots ▸ hslot, ?_⟩
    simp only [destroy, bind_ok run_get, hfound, hk]
    rfl
  | material =>
    obtain ⟨hs', hslots, -, hw⟩ := Valid.forgetMaterial_spec hs id
    refine ⟨s.forgetMaterial id, .of_edit hs' hw fun g => ?_, hslots ▸ hslot, ?_⟩
    · exact Apart.stale_if g _
    · simp only [destroy, bind_ok run_get, hfound, hk]
      rfl
  | shader =>
    refine ⟨s.forgetShader id, .of_geometryAt (hs.forgetShader id) rfl, hslot, ?_⟩
    simp only [destroy, bind_ok run_get, hfound, hk]
    rfl
  | texture =>
    refine ⟨s, .refl hs, hslot, ?_⟩
    simp only [destroy, bind_ok run_get, hfound, hk]
    rfl

/-- A geometry is left alone whatever else is destroyed. -/
theorem retaining_destroy (hx : x ≠ id) : Retaining q x (destroy id) := by
  intro s hs
  cases hslot : s.slot? id with
  | none =>
    unfold after
    rw [destroy, bind_ok run_get, hslot]
    exact .refl hs
  | some slot =>
    obtain ⟨t, ht, hslot', hrun⟩ := run_destroy (q := q) hs hslot x
    rw [Retaining.after_eq hrun]
    exact ht.removeSlot hslot' hx

end Apart

section Commands

variable [Apart q]

/-- Only the command that destroys a geometry and those that write to it touch a part of it. -/
theorem retaining_command (hx : c ≠ .destroy x)
    (hwrite : ∀ d, c.write? = some (x, d) → ∀ g : Geometry, q (g.assign d) = q g) :
    Retaining q x c.edit := by
  cases c with
  | createTransform id name => exact retaining_insert .transform id name
  | setName id name => exact retaining_setName id name
  | destroy id => exact (retaining_destroy fun he => hx (congrArg Command.destroy he.symm)).discard
  | addChild parent child => exact retaining_addChild parent child
  | removeChild parent child => exact retaining_removeChild parent child
  | removeAllChildren parent => exact (retaining_removeAllChildren parent).discard
  | reparent child parent => exact retaining_reparent child parent.nonNull
  | setPosition id position => exact retaining_setPosition id position
  | setRotation id rotation => exact retaining_setRotation id rotation
  | setScale id scale => exact retaining_setScale id scale
  | createGeometry id name => exact retaining_insert .geometry id name
  | setVertexAttribute id location components data =>
    exact retaining_setVertexAttribute fun he => hwrite _ (he ▸ rfl)
  | setIndices id indices =>
    exact retaining_updateGeometry_assign (d := .indices indices) fun he => hwrite _ (he ▸ rfl)
  | setVertexCount id count =>
    exact retaining_updateGeometry_assign (d := .vertexOverride count) fun he => hwrite _ (he ▸ rfl)
  | setIndicesCount id count =>
    exact retaining_updateGeometry_assign (d := .indexOverride count) fun he => hwrite _ (he ▸ rfl)
  | createShader id vertex fragment =>
    exact .bind (retaining_insert .shader id "shader") fun _ =>
      retaining_setShaderSource id vertex fragment
  | createMaterial id shader name =>
    exact .askIf (.bind (retaining_insert .material id name) fun _ =>
      retaining_setMaterialShader id shader)
  | setMaterialUniform material slot value =>
    exact retaining_setMaterialUniform material slot value
  | createMesh id geometry material name =>
    refine .bind .get fun s => ?_
    dsimp only
    split
    · exact .throw_bind _
    · exact .bind (retaining_updateMesh id geometry material) fun _ => retaining_setName id name
  | updateMesh mesh geometry material => exact retaining_updateMesh mesh geometry material
  | createTexture id width height name =>
    exact .bind (retaining_insert .texture id name) fun _ => retaining_resizeTexture id width height
  | textureWrite texture pixels => exact retaining_writeTexture texture pixels
  | copyTextureToCpu texture => exact (Retaining.ask _).discard

theorem after_discard (e : SceneEdit α) : s.after (discard e) = s.after e := by
  rw [discard_eq, after, after]
  cases he : e s with
  | ok a t =>
    rw [bind_ok he]
    rfl
  | error err t => rw [bind_error he]

/-- A geometry that is destroyed takes all its parts with it. -/
theorem retains_or_gone_destroy (hs : Sound s) (x : ComponentId) :
    Retains q x s (s.after (destroy x)) ∨ (s.after (destroy x)).geometryAt x = none := by
  cases hslot : s.slot? x with
  | none =>
    have hrun : destroy x s = .error (.notFound x) s := by
      rw [destroy, bind_ok run_get, hslot]
      rfl
    rw [after, hrun]
    exact .inl (.refl hs)
  | some slot =>
    obtain ⟨t, ht, hslot', hrun⟩ := run_destroy (q := q) hs hslot x
    rw [Retaining.after_eq hrun, (removeSlot_removal ht.sound hslot').geometries.2]
    exact .inr (if_pos rfl)

theorem retains_or_gone_command (hs : Sound s)
    (hwrite : ∀ d, c.write? = some (x, d) → ∀ g : Geometry, q (g.assign d) = q g) :
    Retains q x s (s.after c.edit) ∨ (s.after c.edit).geometryAt x = none := by
  by_cases hx : c = .destroy x
  · have hsame : s.after (Command.destroy x).edit = s.after (destroy x) := after_discard _
    rw [hx, hsame]
    exact retains_or_gone_destroy hs x
  · exact .inl (retaining_command hx hwrite hs)

/-- An operation with a command for it does what the command does. -/
theorem run_of_command? [Mat4.Arithmetic] (h : op.command? = some c) :
    op.run s = s.after c.edit := by
  cases op with
  | apply command readbacks =>
    cases h
    exact s.afterCommand_eq c readbacks
  | destroy | removeAllChildren =>
    cases h
    exact (after_discard _).symm
  | setName | setPosition | setRotation | setScale | addChild | removeChild | setVertexAttribute
  | setIndices | setVertexCount | setIndicesCount | updateMesh | setMaterialUniform
  | writeTexture =>
    cases h
    rfl
  | _ => cases h

end Commands

section Rebuilds

section Matrices

variable [Apart q]

variable [Mat4.Arithmetic]

theorem Retains.rebuiltFrom {root : ComponentId} {n : Node} (hv : Valid s)
    (hn : s.nodeAt root = some n) : Retains q x s (s.rebuiltFrom root).1 := by
  have hspec := rebuiltFrom_spec hv.sound hv.forest hv.fresh.marked hn
  obtain ⟨marked, hw, -⟩ := hspec.marked
  exact .of_edit hspec.sound hw fun g => Apart.stale_if g _

theorem Retains.rebuildMatrices (hv : Valid s) (root : ComponentId) :
    Retains q x s (s.after (Scene.rebuildMatrices root)) := by
  unfold after Scene.rebuildMatrices
  cases hi : s.indexOf .node root with
  | error e =>
    rw [bind_error (run_ask_error hi)]
    exact .refl hv.sound
  | ok i =>
    rw [bind_ok (run_ask_ok hi)]
    obtain ⟨n, hn⟩ := nodeAt_of_indexOf hv.sound hi
    exact .rebuiltFrom hv hn

theorem Retains.rebuildAllMatrices (hv : Valid s) : Retains q x s s.rebuildAllMatrices.1 := by
  have key : ∀ (l : List ComponentId) (s : Scene) (stats : RebuildStats), Valid s →
      Retains q x s (l.foldl rebuildRoot (s, stats)).1 := by
    intro l
    induction l with
    | nil => exact fun s stats hv => .refl hv.sound
    | cons root l ih =>
      intro s stats hv
      cases hi : s.indexOf .node root with
      | error e =>
        have hskip : rebuildRoot (s, stats) root = (s, stats) := by simp only [rebuildRoot, hi]
        rw [List.foldl_cons, hskip]
        exact ih s stats hv
      | ok i =>
        obtain ⟨n, hn⟩ := nodeAt_of_indexOf hv.sound hi
        have hroot : (rebuildRoot (s, stats) root).1 = _ := rebuildRoot_fst stats hn
        have hv' : Valid (rebuildRoot (s, stats) root).1 := hroot ▸ hv.rebuild hn
        have hfirst : Retains q x s (rebuildRoot (s, stats) root).1 := hroot ▸ .rebuiltFrom hv hn
        exact hfirst.trans (ih _ _ hv')
  exact key _ s {} hv

end Matrices

section Batches

variable [Unbatched q]

theorem Retains.rebatch (hs : Sound s) (id : ComponentId) : Retains q x s (s.rebatch id) :=
  .modifyGeometry hs (fun _ => rfl) fun _ g => Unbatched.batches g _ _ _

theorem retaining_rebuildGeometry (id : ComponentId) : Retaining q x (rebuildGeometry id) :=
  .bind (.ask _) fun _ => .bind (.modify fun hs => .rebatch hs id) fun _ =>
    .bind .get fun _ => .pure _

theorem Retains.rebatchAll (l : List ComponentId) (hs : Sound s) :
    Retains q x s (l.foldl Scene.rebatch s) := by
  induction l generalizing s with
  | nil => exact .refl hs
  | cons id l ih =>
    have hfirst : Retains q x s (s.rebatch id) := .rebatch hs id
    exact hfirst.trans (ih hfirst.sound)

theorem retaining_takeInstanceUpload (id : ComponentId) :
    Retaining q x (takeInstanceUpload id) := by
  refine .bind (.ask _) fun _ => .bind (.modify fun hs => ?_) fun _ => .pure _
  exact .modifyGeometry hs (fun g => (inert_takeUpload g).1) fun _ g => Unbatched.takeUpload g

end Batches

end Rebuilds

section Operations

theorem Retains.create (hs : Sound s) (hc : Covered s) (hi : s.ids.next.toNat < UInt64.size - 1)
    (kind : ComponentKind) (name : String) : Retains q x s (s.create kind name).2 := by
  obtain ⟨hid, hfree⟩ := fresh_allocated hc hi
  have hsource : Retains q x s s.allocate.2 := .of_geometryAt (sound_source hs _) rfl
  exact hsource.trans (.add hsource.sound hid hfree kind name)

theorem geometryAt_takeAll (s : Scene) : s.takeAll.2.geometryAt =
    s.geometryAt.edit fun _ g => g.takeUpload.2.takeVertexChanges.2 :=
  funext fun _ => rowAt_map _

theorem Retains.takeAll [Apart q] [Unbatched q] (hs : Sound s) : Retains q x s s.takeAll.2 := by
  have hids : s.takeAll.2.geometries.ids = s.geometries.ids :=
    Placed.ids_map (α := Geometry) (f := fun g => g.takeUpload.2.takeVertexChanges.2)
      (fun g => (inert_takeUpload g).1) s.geometries
  have he : GeometryEdit s s.takeAll.2 := ⟨hids, rfl⟩
  refine .of_edit (he.sound hs) s.geometryAt_takeAll fun g => ?_
  exact (Apart.dirty g.takeUpload.2 false).trans (Unbatched.takeUpload g)

/-- All other operations leave a part of a geometry alone for as long as it lives. -/
theorem retains_or_gone [Mat4.Arithmetic] [Apart q] (hv : Valid s) (hc : Covered s)
    (ha : op.Allowed s) (hwrite : ∀ c d, op.command? = some c → c.write? = some (x, d) →
      ∀ g : Geometry, q (g.assign d) = q g)
    (hop : op.uploads = true → Unbatched q) :
    Retains q x s (op.run s) ∨ (op.run s).geometryAt x = none := by
  have hs := hv.sound
  cases hcommand : op.command? with
  | some c =>
    rw [run_of_command? hcommand]
    exact retains_or_gone_command hs fun d => hwrite c d hcommand
  | none =>
    cases op with
    | allocate => exact .inl (.of_geometryAt (sound_source hs _) rfl)
    | reserve id => exact .inl (.of_geometryAt (sound_source hs _) rfl)
    | create kind name => exact .inl (.create hs hc (ha rfl) kind name)
    | insert kind id name => exact .inl (retaining_insert kind id name hs)
    | setStale id flag => exact .inl (retaining_setStale id flag hs)
    | reparent child parent => exact .inl (retaining_reparent child parent hs)
    | rebuildMatrices root => exact .inl (.rebuildMatrices hv root)
    | rebuildAllMatrices => exact .inl (.rebuildAllMatrices hv)
    | takeVertexChanges geometry => exact .inl (retaining_takeVertexChanges geometry hs)
    | setShaderSource shader vertex fragment =>
      exact .inl (retaining_setShaderSource shader vertex fragment hs)
    | setMaterialShader material shader =>
      exact .inl (retaining_setMaterialShader material shader hs)
    | acknowledgeMaterial material => exact .inl (retaining_acknowledgeMaterial material hs)
    | resizeTexture texture width height =>
      exact .inl (retaining_resizeTexture texture width height hs)
    | acknowledgeTexture texture => exact .inl (retaining_acknowledgeTexture texture hs)
    | rebuildGeometry id =>
      have := hop rfl
      exact .inl (retaining_rebuildGeometry id hs)
    | rebuildStaleGeometries =>
      have := hop rfl
      exact .inl (.rebatchAll _ hs)
    | takeInstanceUpload id =>
      have := hop rfl
      exact .inl (retaining_takeInstanceUpload id hs)
    | takeAll =>
      have := hop rfl
      exact .inl (.takeAll hs)
    | _ => cases hcommand

/-- A geometry that is there after any other operation has the part that it had, or is new. -/
theorem kept_or_new [Mat4.Arithmetic] [Apart q] (hv : Valid s) (hc : Covered s) (ha : op.Allowed s)
    (hwrite : ∀ c d, op.command? = some c → c.write? = some (x, d) →
      ∀ g : Geometry, q (g.assign d) = q g)
    (hop : op.uploads = true → Unbatched q) (hk' : (op.run s).geometryAt x = some k') :
    (∃ k, s.geometryAt x = some k ∧ q k' = q k) ∨
      s.geometryAt x = none ∧ ∃ name, q k' = q (.new x name) := by
  rcases retains_or_gone hv hc ha hwrite hop with hretains | hgone
  · have hkept := hretains.kept
    rw [hk', Option.map_some] at hkept
    rcases hkept with hsame | ⟨hnone, name, hnew⟩
    · obtain ⟨k, hk, hkk'⟩ := Option.map_eq_some_iff.mp hsame.symm
      exact .inl ⟨k, hk, hkk'.symm⟩
    · exact .inr ⟨hnone, name, Option.some.inj hnew⟩
  · rw [hgone] at hk'
    cases hk'

end Operations

section Logs

variable {ε : Type} {note : Scene → ComponentId → Operation → Option ε} {k : Geometry}

/-- A log of what operations do to the geometry `x`, with another operation. While there is no
geometry `x` there is nothing to note. -/
def noted (note : Scene → ComponentId → Operation → Option ε) (x : ComponentId) (s : Scene)
    (log : List ε) (op : Operation) : List ε :=
  if (s.geometryAt x).isSome then log ++ (note s x op).toList else []

theorem noted_of_live (hk : s.geometryAt x = some k) (log : List ε) (op : Operation) :
    s.noted note x log op = log ++ (note s x op).toList := by
  rw [noted, hk]
  rfl

theorem noted_of_gone (hgone : s.geometryAt x = none) (log : List ε) (op : Operation) :
    s.noted note x log op = [] := by
  rw [noted, hgone]
  rfl

end Logs

end Scene

end SceneGraph
