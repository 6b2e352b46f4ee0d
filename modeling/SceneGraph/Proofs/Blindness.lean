import SceneGraph.Proofs.Caches
import SceneGraph.Proofs.Edits
import SceneGraph.Scene.Apply

/-!
# Commands do not look at caches

Scenes that are alike accept a command together, or refuse it together and for the same reason, and
are alike afterwards. Each edit is put together from questions and smaller edits, and the property
goes through the composition: what the first part answers may differ in what is cached only.
-/

namespace SceneGraph

namespace Scene

variable {α β : Type} {s s' : Scene}

/-- The same result up to `R`, on scenes that stay alike; an error is a refusal. -/
inductive Results (R : α → α → Prop) : EStateM.Result SceneError Scene α →
    EStateM.Result SceneError Scene α → Prop
  | ok {a b : α} {s s' : Scene} (h : R a b) (hs : Alike s s') : Results R (.ok a s) (.ok b s')
  | error {e : SceneError} {s s' : Scene} (h : e.IsRefusal) (hs : Alike s s') :
    Results R (.error e s) (.error e s')

/-- The edits do the same, up to `R`, on scenes that are alike. -/
def Blind (R : α → α → Prop) (e e' : SceneEdit α) : Prop :=
  ∀ ⦃s s'⦄, Alike s s' → Results R (e s) (e' s')

namespace Blind

variable {R : α → α → Prop} {T : β → β → Prop} {e e' : SceneEdit α} {f f' : α → SceneEdit β}

theorem bind (h : Blind R e e') (hf : ∀ a b, R a b → Blind T (f a) (f' b)) :
    Blind T (e >>= f) (e' >>= f') := by
  intro s s' hs
  have hfirst := h hs
  change Results T (EStateM.bind e f s) (EStateM.bind e' f' s')
  unfold EStateM.bind
  cases hr : e s with
  | ok a t =>
    cases hr' : e' s' with
    | ok b t' =>
      rw [hr, hr'] at hfirst
      cases hfirst with
      | ok hab ht => exact hf a b hab ht
    | error err t' => rw [hr, hr'] at hfirst; cases hfirst
  | error err t =>
    cases hr' : e' s' with
    | ok b t' => rw [hr, hr'] at hfirst; cases hfirst
    | error err' t' =>
      rw [hr, hr'] at hfirst
      cases hfirst with
      | error herr ht => exact .error herr ht

theorem pure {a b : α} (h : R a b) : Blind R (Pure.pure a) (Pure.pure b) := fun _ _ hs => .ok h hs

theorem throw {err : SceneError} (h : err.IsRefusal) :
    Blind R (MonadExcept.throw err : SceneEdit α) (MonadExcept.throw err) :=
  fun _ _ hs => .error h hs

theorem throw_bind {err : SceneError} (h : err.IsRefusal) :
    Blind T ((MonadExcept.throw err : SceneEdit α) >>= f) (MonadExcept.throw err >>= f') :=
  fun _ _ hs => .error h hs

theorem modify {f f' : Scene → Scene} (h : ∀ {s s'}, Alike s s' → Alike (f s) (f' s')) :
    Blind Eq (modify f : SceneEdit Unit) (modify f') := fun _ _ hs => .ok rfl (h hs)

theorem get : Blind Alike (get : SceneEdit Scene) get := fun _ _ hs => .ok hs hs

theorem set (h : Alike s s') : Blind Eq (set s : SceneEdit PUnit) (set s') :=
  fun _ _ _ => .ok rfl h

theorem ask {f f' : Scene → Except SceneError α}
    (h : ∀ {s s'}, Alike s s' → Answers R (f s) (f' s')) : Blind R (ask f) (ask f') := by
  intro s s' hs
  unfold Scene.ask
  rcases (h hs).cases with ⟨e, hx, hy, he⟩ | ⟨a, b, hx, hy, hab⟩
  · rw [hx, hy]
    exact .error he hs
  · rw [hx, hy]
    exact .ok hab hs

theorem discard (h : Blind R e e') : Blind Eq (discard e) (discard e') := by
  rw [discard_eq, discard_eq]
  exact h.bind fun _ _ _ => .pure rfl

/-- A question that is asked under a condition only. -/
theorem askIf {b : Bool} {q q' : Scene → Except SceneError α} {e e' : SceneEdit β}
    (h : ∀ {s s'}, Alike s s' → Answers R (q s) (q' s')) (he : Blind T e e') :
    Blind T (if b = true then Scene.ask q >>= fun _ => e else e)
      (if b = true then Scene.ask q' >>= fun _ => e' else e') := by
  split
  · exact .bind (.ask h) fun _ _ _ => he
  · exact he

theorem forM {γ : Type} {f : γ → SceneEdit PUnit} (h : ∀ c, Blind Eq (f c) (f c)) (l : List γ) :
    Blind Eq (l.forM f) (l.forM f) := by
  induction l with
  | nil => exact .pure rfl
  | cons c l ih => exact .bind (h c) fun _ _ _ => ih

section Updates

variable (id : ComponentId)

theorem updateNode {f : Node → Node} (hf : ∀ n, (f n).uncached = (f n.uncached).uncached) :
    Blind Eq (updateNode id f) (updateNode id f) :=
  .bind (.ask fun h => h.node id) fun _ _ _ => .modify fun h => h.modifyNode hf id

theorem updateGeometry {f : Geometry → Geometry}
    (hf : ∀ g, (f g).uncached = (f g.uncached).uncached) :
    Blind Eq (updateGeometry id f) (updateGeometry id f) :=
  .bind (.ask fun h => h.geometry id) fun _ _ _ => .modify fun h => h.modifyGeometry hf id

theorem updateMaterial (f : Material → Material) :
    Blind Eq (updateMaterial id f) (updateMaterial id f) :=
  .bind (.ask fun h => h.material id) fun _ _ _ => .modify fun h => h.modifyMaterial f id

theorem updateShader (f : Shader → Shader) : Blind Eq (updateShader id f) (updateShader id f) :=
  .bind (.ask fun h => h.shader id) fun _ _ _ => .modify fun h => h.modifyShader f id

theorem updateTexture (f : Texture → Texture) :
    Blind Eq (updateTexture id f) (updateTexture id f) :=
  .bind (.ask fun h => h.texture id) fun _ _ _ => .modify fun h => h.modifyTexture f id

end Updates

end Blind

section Hierarchy

theorem blind_setStale (id : ComponentId) (g : Staleness) :
    Blind Eq (setStale id g) (setStale id g) :=
  .bind (.ask fun h => h.node id) fun _ _ _ => .modify fun h => h.flag id g

/-- A node gets other values of its own and is flagged. -/
theorem blind_place (id : ComponentId) {f : Node → Node}
    (hf : ∀ n, (f n).uncached = (f n.uncached).uncached) :
    Blind Eq (do updateNode id f; setStale id .local) (do updateNode id f; setStale id .local) :=
  .bind (.updateNode id hf) fun _ _ _ => blind_setStale id .local

theorem blind_setPosition (id : ComponentId) (position : Vec3) :
    Blind Eq (setPosition id position) (setPosition id position) := blind_place id fun _ => rfl

theorem blind_setRotation (id : ComponentId) (rotation : Quat) :
    Blind Eq (setRotation id rotation) (setRotation id rotation) := blind_place id fun _ => rfl

theorem blind_setScale (id : ComponentId) (scale : Vec3) :
    Blind Eq (setScale id scale) (setScale id scale) := blind_place id fun _ => rfl

theorem blind_addChild (p c : ComponentId) : Blind Eq (addChild p c) (addChild p c) := by
  refine .bind (.ask fun h => h.indexOf .node p) fun _ _ _ =>
    .bind (.ask fun h => h.node c) fun n m hnm => .bind .get fun s s' hs => ?_
  have hparent : n.parent = m.parent := (congrArg Node.parent hnm :)
  rw [hs.isAncestor_eq, hparent]
  by_cases hcycle : c = p ∨ s'.isAncestor c p
  · simp only [if_pos hcycle]
    exact .throw_bind (by trivial)
  · simp only [if_neg hcycle]
    by_cases hsame : m.parent = p
    · simp only [if_pos hsame]
      exact .pure rfl
    · simp only [if_neg hsame]
      exact .bind (.modify fun h => h.detach c) fun _ _ _ =>
        .bind (.updateNode c fun _ => rfl) fun _ _ _ =>
          .bind (.updateNode p fun _ => rfl) fun _ _ _ => blind_setStale c .world

theorem blind_removeChild (p c : ComponentId) : Blind Eq (removeChild p c) (removeChild p c) := by
  refine .bind (.ask fun h => h.indexOf .node p) fun _ _ _ =>
    .bind (.ask fun h => h.node c) fun n m hnm => ?_
  have hparent : n.parent = m.parent := (congrArg Node.parent hnm :)
  rw [hparent]
  by_cases hother : m.parent ≠ p
  · simp only [if_pos hother]
    exact .throw_bind (by trivial)
  · simp only [if_neg hother]
    exact .bind (.modify fun h => h.detach c) fun _ _ _ => blind_setStale c .world

theorem blind_removeAllChildren (p : ComponentId) :
    Blind Eq (removeAllChildren p) (removeAllChildren p) := by
  refine .bind (.ask fun h => h.node p) fun n m hnm => ?_
  have hchildren : n.children = m.children := (congrArg Node.children hnm :)
  rw [hchildren]
  exact .bind (.modify fun h => h.modifyNode (fun _ => rfl) p) fun _ _ _ =>
    .bind (.forM (fun c => .bind (.modify fun h => h.modifyNode (fun _ => rfl) c) fun _ _ _ =>
      blind_setStale c .world) m.children) fun _ _ _ => .pure rfl

theorem blind_reparent (c : ComponentId) (p : Option ComponentId) :
    Blind Eq (reparent c p) (reparent c p) := by
  cases p with
  | some p => exact blind_addChild p c
  | none =>
    refine .bind (.ask fun h => h.node c) fun n m hnm => ?_
    have hparent : n.parent = m.parent := (congrArg Node.parent hnm :)
    rw [hparent]
    split
    · exact .pure rfl
    · exact blind_removeChild _ c

end Hierarchy

section Components

theorem blind_insert (kind : ComponentKind) (id : ComponentId) (name : String) :
    Blind Eq (insert kind id name) (insert kind id name) := by
  refine .bind .get fun s s' hs => ?_
  rw [hs.contains_eq]
  by_cases hnull : id.isNull
  · simp only [if_pos hnull]
    exact .throw_bind (by trivial)
  · simp only [if_neg hnull]
    by_cases hlive : s'.contains id
    · simp only [if_pos hlive]
      exact .throw_bind (by trivial)
    · simp only [if_neg hlive]
      exact .set ((hs.reserve id).add kind id name)

theorem answers_found {q : α → β} {t t' : Table α} (h : Table.Same q t t') {i : ℕ}
    (id : ComponentId) {make : α → Component} (hkind : ∀ a b, (make a).kind = (make b).kind) :
    Answers (fun c d => c.kind = d.kind)
      (match (t.get? i).map make with
        | none => .error (.notFound id)
        | some c => .ok c)
      (match (t'.get? i).map make with
        | none => .error (.notFound id)
        | some c => .ok c) := by
  have hrow := h.get?_eq i
  cases ha : t.get? i <;> cases hb : t'.get? i
  · exact .error trivial
  · simp [ha, hb] at hrow
  · simp [ha, hb] at hrow
  · exact .ok (hkind _ _)

/-- Whether there is a component, and of what kind, decides which table its name is written to. -/
theorem Alike.component (h : Alike s s') (id : ComponentId) :
    Answers (fun c d => c.kind = d.kind) (s.component id) (s'.component id) := by
  have hslot : s.slot? id = s'.slot? id := congrArg (fun m : IdMap Slot => m.get? id) h.slots
  unfold Scene.component
  rw [hslot]
  cases s'.slot? id with
  | none => exact .error trivial
  | some slot =>
    obtain ⟨kind, i⟩ := slot
    cases kind with
    | transform | mesh => exact answers_found h.nodes id fun _ _ => rfl
    | geometry => exact answers_found h.geometries id fun _ _ => rfl
    | material => exact answers_found (q := fun m => m) (.of_eq h.materials) id fun _ _ => rfl
    | shader => exact answers_found (q := fun a => a) (.of_eq h.shaders) id fun _ _ => rfl
    | texture => exact answers_found (q := fun a => a) (.of_eq h.textures) id fun _ _ => rfl

theorem blind_setName (id : ComponentId) (name : String) :
    Blind Eq (setName id name) (setName id name) := by
  refine .bind (.ask fun h => h.component id) fun c d hcd => ?_
  cases c <;> cases d <;> cases hcd
  case transform.transform | mesh.mesh => exact .modify fun h => h.modifyNode (fun _ => rfl) id
  case geometry.geometry => exact .modify fun h => h.modifyGeometry (fun _ => rfl) id
  case material.material => exact .modify fun h => h.modifyMaterial _ id
  case shader.shader => exact .modify fun h => h.modifyShader _ id
  case texture.texture => exact .modify fun h => h.modifyTexture _ id

theorem blind_orphan (id : ComponentId) : Blind Eq (orphan id) (orphan id) := by
  refine .bind (.ask fun h => h.node id) fun n m hnm => ?_
  have hparent : n.parent = m.parent := (congrArg Node.parent hnm :)
  have hchildren : n.children = m.children := (congrArg Node.children hnm :)
  have hmesh : n.mesh = m.mesh := (congrArg Node.mesh hnm :)
  rw [hparent, hchildren, hmesh]
  refine .bind (.modify fun h => h.modifyNode (fun _ => rfl) id) fun _ _ _ =>
    .bind (.modify fun h => h.detach id) fun _ _ _ =>
    .bind (.modify fun h => h.foldl (fun h c => h.adopt m.parent c) m.children) fun _ _ _ => ?_
  cases m.mesh with
  | none => exact .pure rfl
  | some b =>
    dsimp only
    by_cases hnull : b.geometry.isNull
    · simp only [hnull]
      exact .pure rfl
    · simp only [hnull]
      exact .modify fun h => h.modifyGeometry (Geometry.uncached_unbind id) b.geometry

theorem blind_destroy (id : ComponentId) : Blind Eq (destroy id) (destroy id) := by
  refine .bind .get fun s s' hs => ?_
  have hslot : s.slot? id = s'.slot? id := congrArg (fun m : IdMap Slot => m.get? id) hs.slots
  rw [hslot]
  cases s'.slot? id with
  | none => exact .throw (by trivial)
  | some slot =>
    have hrest : ∀ kind : ComponentKind, Blind Eq
        (modify (fun s => s.removeSlot id slot) >>= fun _ => Pure.pure kind : SceneEdit _)
        (modify (fun s => s.removeSlot id slot) >>= fun _ => Pure.pure kind) := fun kind =>
      .bind (.modify fun h => h.removeSlot id slot) fun _ _ _ => .pure rfl
    dsimp only
    cases slot.kind with
    | transform | mesh => exact .bind (blind_orphan id) fun _ _ _ => hrest _
    | geometry => exact .bind (.modify fun h => h.forgetGeometry id) fun _ _ _ => hrest _
    | material => exact .bind (.modify fun h => h.forgetMaterial id) fun _ _ _ => hrest _
    | shader => exact .bind (.modify fun h => h.forgetShader id) fun _ _ _ => hrest _
    | texture => exact hrest _

theorem blind_setVertexAttribute (id : ComponentId) (location components : UInt32)
    (data : List Scalar) : Blind Eq (setVertexAttribute id location components data)
      (setVertexAttribute id location components data) := by
  refine .bind (.ask fun h => h.geometry id) fun _ _ _ => ?_
  by_cases hragged : components = 0 ∨ data.length % components.toNat ≠ 0
  · simp only [if_pos hragged]
    exact .throw_bind (by trivial)
  · simp only [if_neg hragged]
    by_cases hlocation : location.toNat < streamLimit
    · simp only [dif_pos hlocation]
      exact .modify fun h => h.modifyGeometry (fun _ => rfl) id
    · simp only [dif_neg hlocation]
      exact .throw (by trivial)

theorem blind_bindMesh (id geometry material : ComponentId) :
    Blind Eq (bindMesh id geometry material) (bindMesh id geometry material) := by
  refine .bind (.ask fun h => h.mesh id) fun n m hnm => ?_
  have hmesh : n.mesh = m.mesh := (congrArg Node.mesh hnm :)
  rw [hmesh]
  refine .bind (.modify fun h => h.modifyNode (fun _ => rfl) id) fun _ _ _ => ?_
  generalize m.mesh.getD {} = old
  by_cases hmoved : old.geometry ≠ geometry
  · simp only [if_pos hmoved]
    have hbind : Blind Eq
        (if (!geometry.isNull) = true then Scene.updateGeometry geometry fun g => g.bind id
          else Pure.pure ())
        (if (!geometry.isNull) = true then Scene.updateGeometry geometry fun g => g.bind id
          else Pure.pure ()) := by
      split
      · exact .updateGeometry geometry fun _ => rfl
      · exact .pure rfl
    by_cases hold : (!old.geometry.isNull) = true
    · simp only [if_pos hold]
      exact .bind (.modify fun h => h.modifyGeometry (Geometry.uncached_unbind id) old.geometry)
        fun _ _ _ => hbind
    · simp only [if_neg hold]
      exact hbind
  · simp only [if_neg hmoved]
    by_cases hpainted : old.material ≠ material ∧ (!geometry.isNull) = true
    · simp only [if_pos hpainted]
      exact .updateGeometry geometry fun _ => rfl
    · simp only [if_neg hpainted]
      exact .pure rfl

theorem blind_updateMesh (id geometry material : ComponentId) :
    Blind Eq (updateMesh id geometry material) (updateMesh id geometry material) := by
  have hcreate : Blind Eq
      ((MonadState.get : SceneEdit Scene) >>= fun s => if (!s.contains id) = true then
        insert .mesh id "mesh" >>= fun _ => bindMesh id geometry material
        else bindMesh id geometry material)
      ((MonadState.get : SceneEdit Scene) >>= fun s => if (!s.contains id) = true then
        insert .mesh id "mesh" >>= fun _ => bindMesh id geometry material
        else bindMesh id geometry material) := by
    refine .bind .get fun s s' hs => ?_
    rw [hs.contains_eq]
    split
    · exact .bind (blind_insert .mesh id "mesh") fun _ _ _ => blind_bindMesh id geometry material
    · exact blind_bindMesh id geometry material
  rw [updateMesh_eq]
  exact .askIf (fun h => h.geometry geometry) (.askIf (fun h => h.material material) hcreate)

theorem blind_setMaterialShader (id shader : ComponentId) :
    Blind Eq (setMaterialShader id shader) (setMaterialShader id shader) :=
  .askIf (fun h => h.shader shader) (.updateMaterial id _)

theorem blind_setMaterialUniform (id : ComponentId) (slot : UInt32) (value : Vec4) :
    Blind Eq (setMaterialUniform id slot value) (setMaterialUniform id slot value) := by
  refine .bind (.ask fun h => h.material id) fun _ _ _ => ?_
  by_cases hslot : slot.toNat < uniformLimit
  · simp only [dif_pos hslot]
    exact .modify fun h => h.modifyMaterial _ id
  · simp only [dif_neg hslot]
    exact .throw (by trivial)

theorem blind_writeTexture (id : ComponentId) (pixels : Bytes) :
    Blind Eq (writeTexture id pixels) (writeTexture id pixels) := by
  refine .bind (.ask fun h => h.texture id) fun t _ ht => ?_
  subst ht
  by_cases hlength : pixels.length ≠ Texture.byteLength t.width t.height
  · simp only [if_pos hlength]
    exact .throw_bind (by trivial)
  · simp only [if_neg hlength]
    exact .modify fun h => h.modifyTexture _ id

end Components

/-- No command looks at a cache. -/
theorem blind_command (c : Command) : Blind Eq c.edit c.edit := by
  cases c with
  | createTransform id name => exact blind_insert .transform id name
  | setName id name => exact blind_setName id name
  | destroy id => exact (blind_destroy id).discard
  | addChild parent child => exact blind_addChild parent child
  | removeChild parent child => exact blind_removeChild parent child
  | removeAllChildren parent => exact (blind_removeAllChildren parent).discard
  | reparent child parent => exact blind_reparent child parent.nonNull
  | setPosition id position => exact blind_setPosition id position
  | setRotation id rotation => exact blind_setRotation id rotation
  | setScale id scale => exact blind_setScale id scale
  | createGeometry id name => exact blind_insert .geometry id name
  | setVertexAttribute geometry location components data =>
    exact blind_setVertexAttribute geometry location components data
  | setIndices geometry indices => exact .updateGeometry geometry fun _ => rfl
  | setVertexCount geometry count => exact .updateGeometry geometry fun _ => rfl
  | setIndicesCount geometry count => exact .updateGeometry geometry fun _ => rfl
  | createShader id vertex fragment =>
    exact .bind (blind_insert .shader id "shader") fun _ _ _ => .updateShader id _
  | createMaterial id shader name =>
    exact .askIf (fun h => h.shader shader) (.bind (blind_insert .material id name)
      fun _ _ _ => blind_setMaterialShader id shader)
  | setMaterialUniform material slot value => exact blind_setMaterialUniform material slot value
  | createMesh id geometry material name =>
    refine .bind .get fun s s' hs => ?_
    rw [hs.contains_eq]
    by_cases hlive : s'.contains id
    · simp only [if_pos hlive]
      exact .throw_bind (by trivial)
    · simp only [if_neg hlive]
      exact .bind (blind_updateMesh id geometry material) fun _ _ _ => blind_setName id name
  | updateMesh mesh geometry material => exact blind_updateMesh mesh geometry material
  | createTexture id width height name =>
    exact .bind (blind_insert .texture id name) fun _ _ _ => .updateTexture id _
  | textureWrite texture pixels => exact blind_writeTexture texture pixels
  | copyTextureToCpu texture => exact (Blind.ask fun h => h.texture texture).discard

/-- What a command asks to be told does not depend on the caches. -/
theorem Alike.reply?_eq (h : Alike s s') (c : Command) : c.reply? s = c.reply? s' := by
  cases c with
  | copyTextureToCpu id =>
    rcases (h.texture id).cases with ⟨e, ht, ht', -⟩ | ⟨t, t', ht, ht', rfl⟩
    · simp only [Command.reply?, ht, ht']
    · simp only [Command.reply?, ht, ht']
  | _ => rfl

end Scene

end SceneGraph
