import SceneGraph.Proofs.Commands

/-!
# Reachable scenes

A scene is reachable if a run of operations, in any order and each accepted or refused, leads to it
from the empty scene. The only operation with a condition is drawing an identifier, which the
counter must not have run out of. Writing over the record of a node is no operation. What an
operation changes, if it is accepted, can be read off the operation.
-/

namespace SceneGraph

inductive Operation where
  | allocate
  | reserve (id : ComponentId)
  | create (kind : ComponentKind) (name : String)
  | insert (kind : ComponentKind) (id : ComponentId) (name : String)
  | setName (id : ComponentId) (name : String)
  | destroy (id : ComponentId)
  | setStale (id : ComponentId) (flag : Staleness)
  | setPosition (id : ComponentId) (position : Vec3)
  | setRotation (id : ComponentId) (rotation : Quat)
  | setScale (id : ComponentId) (scale : Vec3)
  | addChild (parent child : ComponentId)
  | removeChild (parent child : ComponentId)
  | removeAllChildren (parent : ComponentId)
  | reparent (child : ComponentId) (parent : Option ComponentId)
  | rebuildMatrices (root : ComponentId)
  | rebuildAllMatrices
  | setVertexAttribute (geometry : ComponentId) (location components : UInt32) (data : List Scalar)
  | setIndices (geometry : ComponentId) (indices : List UInt32)
  | setVertexCount (geometry : ComponentId) (count : Int32)
  | setIndicesCount (geometry : ComponentId) (count : Int32)
  | updateMesh (mesh geometry material : ComponentId)
  | rebuildGeometry (geometry : ComponentId)
  | rebuildStaleGeometries
  | takeInstanceUpload (geometry : ComponentId)
  | takeVertexChanges (geometry : ComponentId)
  | takeAll
  | setShaderSource (shader : ComponentId) (vertex fragment : String)
  | setMaterialShader (material shader : ComponentId)
  | setMaterialUniform (material : ComponentId) (slot : UInt32) (value : Vec4)
  | acknowledgeMaterial (material : ComponentId)
  | resizeTexture (texture : ComponentId) (width height : UInt32)
  | writeTexture (texture : ComponentId) (pixels : Bytes)
  | acknowledgeTexture (texture : ComponentId)
  /-- A command, which may answer on a queue. -/
  | apply (command : Command) (readbacks : Queue)

namespace Scene

variable {α : Type} {s s' : Scene}

/-- The scene after an edit, refused or not. -/
def after (s : Scene) (e : SceneEdit α) : Scene :=
  match e s with
  | .ok _ s' => s'
  | .error _ s' => s'

/-- Whether an edit is carried out. -/
def accepts (s : Scene) (e : SceneEdit α) : Bool :=
  match e s with
  | .ok .. => true
  | .error .. => false

/-- The changes of an edit that is accepted; a refused one makes none. -/
def accepting (s : Scene) (e : SceneEdit α) (cs : List Change) : List Change :=
  match e s with
  | .ok .. => cs
  | .error .. => []

/-- The scene after a command, refused or not. -/
def afterCommand (s : Scene) (c : Command) (readbacks : Queue) : Scene :=
  match Stage.apply c ⟨s, readbacks⟩ with
  | .ok _ t => t.scene
  | .error _ t => t.scene

end Scene

namespace Operation

/-- The scene after an operation. -/
def run [Mat4.Arithmetic] (s : Scene) : Operation → Scene
  | allocate => s.allocate.2
  | reserve id => s.reserve id
  | create kind name => (s.create kind name).2
  | insert kind id name => s.after (Scene.insert kind id name)
  | setName id name => s.after (Scene.setName id name)
  | destroy id => s.after (Scene.destroy id)
  | setStale id flag => s.after (Scene.setStale id flag)
  | setPosition id position => s.after (Scene.setPosition id position)
  | setRotation id rotation => s.after (Scene.setRotation id rotation)
  | setScale id scale => s.after (Scene.setScale id scale)
  | addChild parent child => s.after (Scene.addChild parent child)
  | removeChild parent child => s.after (Scene.removeChild parent child)
  | removeAllChildren parent => s.after (Scene.removeAllChildren parent)
  | reparent child parent => s.after (Scene.reparent child parent)
  | rebuildMatrices root => s.after (Scene.rebuildMatrices root)
  | rebuildAllMatrices => s.rebuildAllMatrices.1
  | setVertexAttribute geometry location components data =>
    s.after (Scene.setVertexAttribute geometry location components data)
  | setIndices geometry indices => s.after (Scene.setIndices geometry indices)
  | setVertexCount geometry count => s.after (Scene.setVertexCount geometry count)
  | setIndicesCount geometry count => s.after (Scene.setIndicesCount geometry count)
  | updateMesh mesh geometry material => s.after (Scene.updateMesh mesh geometry material)
  | rebuildGeometry geometry => s.after (Scene.rebuildGeometry geometry)
  | rebuildStaleGeometries => s.rebuildStaleGeometries.2
  | takeInstanceUpload geometry => s.after (Scene.takeInstanceUpload geometry)
  | takeVertexChanges geometry => s.after (Scene.takeVertexChanges geometry)
  | takeAll => s.takeAll.2
  | setShaderSource shader vertex fragment => s.after (Scene.setShaderSource shader vertex fragment)
  | setMaterialShader material shader => s.after (Scene.setMaterialShader material shader)
  | setMaterialUniform material slot value => s.after (Scene.setMaterialUniform material slot value)
  | acknowledgeMaterial material => s.after (Scene.acknowledgeMaterial material)
  | resizeTexture texture width height => s.after (Scene.resizeTexture texture width height)
  | writeTexture texture pixels => s.after (Scene.writeTexture texture pixels)
  | acknowledgeTexture texture => s.after (Scene.acknowledgeTexture texture)
  | apply command readbacks => s.afterCommand command readbacks

/-- The changes to components that an operation makes on a scene; none if it is refused. -/
def changes (s : Scene) : Operation → List Change
  | create kind name => [.created kind s.allocate.1 name]
  | insert kind id name => s.accepting (Scene.insert kind id name) [.created kind id name]
  | setName id name =>
    s.accepting (Scene.setName id name) [.assigned id (.name (Name.clamp name))]
  | destroy id => s.accepting (Scene.destroy id) [.destroyed id]
  | setPosition id position =>
    s.accepting (Scene.setPosition id position) [.assigned id (.position position)]
  | setRotation id rotation =>
    s.accepting (Scene.setRotation id rotation) [.assigned id (.rotation rotation)]
  | setScale id scale => s.accepting (Scene.setScale id scale) [.assigned id (.scale scale)]
  | setVertexAttribute geometry location components data =>
    s.accepting (Scene.setVertexAttribute geometry location components data)
      [.assigned geometry (.stream location.toNat components data)]
  | setIndices geometry indices =>
    s.accepting (Scene.setIndices geometry indices) [.assigned geometry (.indices indices)]
  | setVertexCount geometry count =>
    s.accepting (Scene.setVertexCount geometry count) [.assigned geometry (.vertexOverride count)]
  | setIndicesCount geometry count =>
    s.accepting (Scene.setIndicesCount geometry count) [.assigned geometry (.indexOverride count)]
  | updateMesh mesh geometry material =>
    s.accepting (Scene.updateMesh mesh geometry material) (s.meshChanges mesh)
  | setShaderSource shader vertex fragment =>
    s.accepting (Scene.setShaderSource shader vertex fragment)
      [.assigned shader (.vertexSource vertex), .assigned shader (.fragmentSource fragment)]
  | setMaterialUniform material slot value =>
    s.accepting (Scene.setMaterialUniform material slot value)
      [.assigned material (.uniform slot.toNat value)]
  | resizeTexture texture width height =>
    s.accepting (Scene.resizeTexture texture width height)
      [.assigned texture (.size width height),
        .assigned texture (.pixels (List.replicate (Texture.byteLength width height) 0))]
  | writeTexture texture pixels =>
    s.accepting (Scene.writeTexture texture pixels) [.assigned texture (.pixels pixels)]
  | apply command _ => s.accepting command.edit (command.changes s)
  | _ => []

/-- What an operation may do besides changing components. -/
def asides : Operation → List Aside
  | allocate | create .. => [.draw]
  | reserve id | insert _ id _ | updateMesh id .. => [.reserve id]
  | rebuildMatrices _ | rebuildAllMatrices => [.rebuild]
  | apply command _ => command.asides
  | _ => []

/-- Whether the operation draws an identifier from the counter. -/
def draws : Operation → Bool
  | allocate | create .. => true
  | _ => false

/-- An identifier is only drawn while the counter has not come to its last. -/
def Allowed (s : Scene) (op : Operation) : Prop :=
  op.draws = true → s.ids.next.toNat < UInt64.size - 1

theorem allowed_of_not_draws {op : Operation} (h : op.draws = false) (s : Scene) :
    op.Allowed s := by
  intro hdraws
  rw [h] at hdraws
  cases hdraws

end Operation

namespace Scene

variable {α : Type} {s s' : Scene}

inductive Reachable [Mat4.Arithmetic] : Scene → Prop
  | empty : Reachable {}
  | run {s : Scene} (h : Reachable s) (op : Operation) (ha : op.Allowed s) : Reachable (op.run s)

theorem Outcome.steps [Mat4.Arithmetic] {e : SceneEdit α} {as : List Aside} {cs : List Change}
    (h : Outcome as s cs (e s)) : Steps as s (s.accepting e cs) (s.after e) := by
  unfold after accepting
  cases he : e s with
  | ok a s' =>
    rw [he] at h
    exact h
  | error err s' =>
    rw [he] at h
    obtain rfl : s' = s := h
    exact .refl

theorem accepting_eq (s : Scene) (e : SceneEdit α) (cs : List Change) :
    s.accepting e cs = if s.accepts e then cs else [] := by
  unfold accepting accepts
  cases e s <;> rfl

theorem accepting_nil (s : Scene) (e : SceneEdit α) : s.accepting e [] = [] := by
  unfold accepting
  split <;> rfl

theorem mem_accepting {e : SceneEdit α} {cs : List Change} {c : Change}
    (h : c ∈ s.accepting e cs) : c ∈ cs ∧ s.accepting e cs = cs := by
  unfold accepting at h ⊢
  split at h
  · exact ⟨h, rfl⟩
  · cases h

/-- An edit that makes no changes, accepted or not. -/
theorem Outcome.silent [Mat4.Arithmetic] {e : SceneEdit α} {as : List Aside}
    (h : Outcome as s [] (e s)) : Steps as s [] (s.after e) := by
  have hsteps := h.steps
  rwa [accepting_nil] at hsteps

theorem run_apply (c : Command) (t : Stage) : Stage.apply c t =
    match c.edit t.scene with
    | .ok _ s => match c.reply? s with
      | none => .ok false { t with scene := s }
      | some r => .ok true
          { scene := s, readbacks := (t.readbacks.push r.kind.tag r.parts).2 }
    | .error e s => .error e { t with scene := s } := by
  cases he : c.edit t.scene with
  | ok u s =>
    have hedit : Stage.edit c.edit t = .ok u { t with scene := s } := by
      simp only [Stage.edit, he]
    have hget : (get : StageEdit Stage) { t with scene := s } = .ok { t with scene := s } _ := rfl
    rw [Stage.apply, bind_ok hedit, bind_ok hget]
    cases hr : c.reply? s with
    | none =>
      simp only [hr]
      rfl
    | some r =>
      simp only [hr]
      rfl
  | error e s =>
    have hedit : Stage.edit c.edit t = .error e { t with scene := s } := by
      simp only [Stage.edit, he]
    exact bind_error hedit

theorem afterCommand_eq (s : Scene) (c : Command) (readbacks : Queue) :
    s.afterCommand c readbacks = s.after c.edit := by
  rw [afterCommand, run_apply, after]
  cases c.edit s with
  | ok u s' =>
    dsimp only
    cases c.reply? s' with
    | none => rfl
    | some r => rfl
  | error e s' => rfl

/-- An operation takes a valid scene through steps that make the changes of the operation. -/
theorem steps_run [Mat4.Arithmetic] (hv : Valid s) (hc : Covered s) (op : Operation)
    (ha : op.Allowed s) : Steps op.asides s (op.changes s) (op.run s) := by
  cases op with
  | allocate => exact .single (.draw (List.mem_singleton.mpr rfl) (ha rfl))
  | reserve id => exact .single (.reserve (List.mem_singleton.mpr rfl))
  | create kind name => exact steps_create (List.mem_singleton.mpr rfl) hc (ha rfl) kind name
  | insert kind id name => exact (insert_outcome (List.mem_singleton.mpr rfl) kind name).steps
  | setName id name => exact (setName_outcome id name).steps
  | destroy id => exact (destroy_outcome hv.sound id).steps
  | setStale id flag => exact (setStale_outcome id flag).silent
  | setPosition id position => exact (setPosition_outcome hv.sound id position).steps
  | setRotation id rotation => exact (setRotation_outcome hv.sound id rotation).steps
  | setScale id scale => exact (setScale_outcome hv.sound id scale).steps
  | addChild parent child => exact (addChild_outcome hv parent child).silent
  | removeChild parent child => exact (removeChild_outcome hv parent child).silent
  | removeAllChildren parent => exact (removeAllChildren_outcome hv parent).silent
  | reparent child parent => exact (reparent_outcome hv child parent).silent
  | rebuildMatrices root =>
    exact (rebuildMatrices_outcome (List.mem_singleton.mpr rfl) hv.sound root).silent
  | rebuildAllMatrices => exact steps_rebuildAllMatrices hv
  | setVertexAttribute geometry location components data =>
    exact (setVertexAttribute_outcome geometry location components data).steps
  | setIndices geometry indices => exact (setIndices_outcome geometry indices).steps
  | setVertexCount geometry count => exact (setVertexCount_outcome geometry count).steps
  | setIndicesCount geometry count => exact (setIndicesCount_outcome geometry count).steps
  | updateMesh mesh geometry material =>
    exact (updateMesh_outcome (List.mem_singleton.mpr rfl) hv geometry material).steps
  | rebuildGeometry geometry => exact (rebuildGeometry_outcome geometry).silent
  | rebuildStaleGeometries => exact steps_rebuildStaleGeometries s
  | takeInstanceUpload geometry => exact (takeInstanceUpload_outcome geometry).silent
  | takeVertexChanges geometry => exact (takeVertexChanges_outcome geometry).silent
  | takeAll => exact .single (step_takeAll s)
  | setShaderSource shader vertex fragment =>
    exact (setShaderSource_outcome shader vertex fragment).steps
  | setMaterialShader material shader => exact (setMaterialShader_outcome material shader).silent
  | setMaterialUniform material slot value =>
    exact (setMaterialUniform_outcome material slot value).steps
  | acknowledgeMaterial material => exact (acknowledgeMaterial_outcome material).silent
  | resizeTexture texture width height =>
    exact (resizeTexture_outcome texture width height).steps
  | writeTexture texture pixels => exact (writeTexture_outcome texture pixels).steps
  | acknowledgeTexture texture => exact (acknowledgeTexture_outcome texture).silent
  | apply command readbacks =>
    have h : Steps command.asides s (s.accepting command.edit (command.changes s))
      (s.after command.edit) := (command_outcome hv command).steps
    rw [← afterCommand_eq s command readbacks] at h
    exact h

theorem Reachable.runs [Mat4.Arithmetic] {ops : List Operation} (h : Reachable s)
    (hd : ∀ op ∈ ops, op.draws = false) : Reachable (ops.foldl Operation.run s) := by
  induction ops generalizing s with
  | nil => exact h
  | cons op ops ih =>
    have hop : Reachable (op.run s) :=
      h.run op (Operation.allowed_of_not_draws (hd op (List.mem_cons_self ..)) s)
    exact ih hop fun o ho => hd o (List.mem_cons_of_mem _ ho)

theorem sound_empty : Sound {} where
  nodes := placed_empty _
  geometries := placed_empty _
  materials := placed_empty _
  shaders := placed_empty _
  textures := placed_empty _
  null := rfl

theorem valid_empty [Mat4.Arithmetic] : Valid {} := by
  have hn : Scene.nodeAt {} = fun _ => none := rfl
  have hg : Scene.geometryAt {} = fun _ => none := rfl
  have hup : View.up (fun _ => none) = fun _ => none := rfl
  refine ⟨sound_empty, ?_, ?_, ?_⟩
  · rw [hn]
    refine ⟨⟨rfl, ?_, ?_⟩, ?_⟩
    · rw [hup]
      exact ⟨fun _ => 0, fun c p h => by cases h⟩
    · intro c p h
      cases h
    · intro p n h
      cases h
  · rw [hn]
    refine ⟨?_, ?_, ?_⟩
    · intro x n p m h
      cases h
    · intro x n h
      cases h
    · intro x n h
      cases h
  · rw [hn, hg]
    refine ⟨?_, ?_, ?_, ?_⟩
    · intro id g h
      cases h
    · intro id g h
      cases h
    · intro m id h
      cases h
    · intro id g h
      cases h

theorem covered_empty : Covered {} where
  live h := by cases h
  null := Or.inl (by decide)

/-- Validity and coverage go through a run together: a drawn identifier is new because the source
covers those in use. -/
theorem Reachable.valid_and_covered [Mat4.Arithmetic] (h : Reachable s) : Valid s ∧ Covered s := by
  induction h with
  | empty => exact ⟨valid_empty, covered_empty⟩
  | run _ op ha ih =>
    have hsteps := steps_run ih.1 ih.2 op ha
    exact ⟨hsteps.valid ih.1, hsteps.covered ih.1 ih.2⟩

theorem Reachable.valid [Mat4.Arithmetic] (h : Reachable s) : Valid s := h.valid_and_covered.1

theorem Reachable.covered [Mat4.Arithmetic] (h : Reachable s) : Covered s := h.valid_and_covered.2

end Scene

end SceneGraph
