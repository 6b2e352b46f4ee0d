import SceneGraph.Proofs.Edits

/-!
# Commands are steps or change nothing

Some commands stand for several edits in a row. Only the first of these may be refused: it leaves
behind what the later ones ask for. What an accepted command changes can be read off the command,
but for the binding of a mesh, which creates the mesh if there is none.
-/

namespace SceneGraph

/-- The changes to components that a command makes if it is not refused. -/
def Command.changes (s : Scene) : Command → List Change
  | createTransform id name => [.created .transform id name]
  | setName id name => [.assigned id (.name (Name.clamp name))]
  | destroy id => [.destroyed id]
  | setPosition id position => [.assigned id (.position position)]
  | setRotation id rotation => [.assigned id (.rotation rotation)]
  | setScale id scale => [.assigned id (.scale scale)]
  | createGeometry id name => [.created .geometry id name]
  | setVertexAttribute geometry location components data =>
    [.assigned geometry (.stream location.toNat components data)]
  | setIndices geometry indices => [.assigned geometry (.indices indices)]
  | setVertexCount geometry count => [.assigned geometry (.vertexOverride count)]
  | setIndicesCount geometry count => [.assigned geometry (.indexOverride count)]
  | createShader id vertex fragment =>
    [.created .shader id "shader", .assigned id (.vertexSource vertex),
      .assigned id (.fragmentSource fragment)]
  | createMaterial id _ name => [.created .material id name]
  | setMaterialUniform material slot value => [.assigned material (.uniform slot.toNat value)]
  | createMesh id _ _ name => [.created .mesh id "mesh", .assigned id (.name (Name.clamp name))]
  | updateMesh mesh _ _ => s.meshChanges mesh
  | createTexture id width height name =>
    [.created .texture id name, .assigned id (.size width height),
      .assigned id (.pixels (List.replicate (Texture.byteLength width height) 0))]
  | textureWrite texture pixels => [.assigned texture (.pixels pixels)]
  | addChild .. | removeChild .. | removeAllChildren .. | reparent .. | copyTextureToCpu .. => []

theorem Scene.not_destroyed_of_meshChanges {s : Scene} {id x : ComponentId} :
    .destroyed x ∉ s.meshChanges id := by
  unfold meshChanges
  split <;> simp

/-- Only a command to destroy something does so. -/
theorem Command.eq_destroy {s : Scene} {c : Command} {x : ComponentId}
    (h : .destroyed x ∈ c.changes s) : c = .destroy x := by
  cases c with
  | destroy id =>
    obtain rfl : x = id := by simpa [changes] using h
    rfl
  | updateMesh => exact absurd h Scene.not_destroyed_of_meshChanges
  | _ => simp [changes] at h

/-- What a command may do besides: it reserves the identifier of what it may create. -/
def Command.asides : Command → List Aside
  | createTransform id _ | createGeometry id _ | createShader id .. | createMaterial id ..
  | createMesh id .. | updateMesh id .. | createTexture id .. => [.reserve id]
  | _ => []

namespace Scene

variable {α β : Type} {s s' : Scene} {id : ComponentId} {cs ds : List Change} {as : List Aside}

namespace Outcome

theorem discard [Mat4.Arithmetic] {e : SceneEdit α} (h : Outcome as s cs (e s)) :
    Outcome as s cs (discard e s) := by
  change Outcome as s cs (EStateM.map (fun _ => ()) e s)
  unfold EStateM.map
  cases he : e s with
  | ok a s' =>
    rw [he] at h
    exact h
  | error err s' =>
    rw [he] at h
    exact h

/-- Only the first of two edits may be refused. -/
theorem bind [Mat4.Arithmetic] {e : SceneEdit α} {f : α → SceneEdit β} (h : Outcome as s cs (e s))
    (hf : ∀ a s', e s = .ok a s' → ∃ b s'', f a s' = .ok b s'' ∧ Steps as s' ds s'') :
    Outcome as s (cs ++ ds) ((e >>= f) s) := by
  cases he : e s with
  | ok a s' =>
    obtain ⟨b, s'', hb, hsteps⟩ := hf a s' he
    rw [he] at h
    rw [bind_ok he, hb]
    exact Steps.trans h hsteps
  | error err s' =>
    rw [he] at h
    rw [bind_error he]
    exact h

end Outcome

/-- What an insertion that was not refused leaves behind. -/
theorem insert_ok {kind : ComponentKind} {name : String}
    (h : insert kind id name s = .ok () s') :
    id ≠ .null ∧ s.slots.get? id = none ∧ s' = (s.reserve id).add kind id name := by
  rcases insert_cases kind id name with ⟨e, he⟩ | ⟨hid, hfree, ht⟩
  · rw [he] at h
    cases h
  · rw [ht] at h
    cases h
    exact ⟨hid, hfree, rfl⟩

theorem sound_reserve [Mat4.Arithmetic] (hv : Valid s) (id : ComponentId) : Sound (s.reserve id) :=
  (hv.source _).sound

theorem shaderAt_inserted [Mat4.Arithmetic] (hv : Valid s) (hfree : s.slots.get? id = none)
    (name : String) : ((s.reserve id).add .shader id name).shaderAt id = some (.new id name) := by
  rw [shaderAt_add (sound_reserve hv id) hfree, if_pos rfl]
  exact if_pos rfl

theorem textureAt_inserted [Mat4.Arithmetic] (hv : Valid s) (hfree : s.slots.get? id = none)
    (name : String) :
    ((s.reserve id).add .texture id name).textureAt id = some (.new id name 0 0) := by
  rw [textureAt_add (sound_reserve hv id) hfree, if_pos rfl]
  exact if_pos rfl

theorem createShader_outcome [Mat4.Arithmetic] (has : .reserve id ∈ as) (hv : Valid s)
    (vertex fragment : String) :
    Outcome as s ((Command.createShader id vertex fragment).changes s)
      ((Command.createShader id vertex fragment).edit s) := by
  refine .bind (insert_outcome has _ _) fun _ s' hs' => ?_
  obtain ⟨-, hfree, rfl⟩ := insert_ok hs'
  have hshader := shaderAt_inserted hv hfree "shader"
  have hsource : Outcome as _ _ (setShaderSource id vertex fragment _) :=
    setShaderSource_outcome (s := (s.reserve id).add .shader id "shader") id vertex fragment
  have hrun : setShaderSource id vertex fragment ((s.reserve id).add .shader id "shader") = _ :=
    bind_ok (run_ask_ok (shader_eq_ok.mpr hshader))
  rw [hrun] at hsource
  exact ⟨(), _, hrun, hsource⟩

theorem createMaterial_outcome [Mat4.Arithmetic] (has : .reserve id ∈ as) (hv : Valid s)
    (shader : ComponentId) (name : String) : Outcome as s [.created .material id name]
      ((Command.createMaterial id shader name).edit s) := by
  change Outcome as s _ ((if (!shader.isNull) = true then
    Scene.ask (Scene.shader · shader) >>= fun _ =>
    insert .material id name >>= fun _ => setMaterialShader id shader
    else insert .material id name >>= fun _ => setMaterialShader id shader) s)
  rcases askIf_cases (b := !shader.isNull) (f := (Scene.shader · shader)) with he | ⟨hlive, hrun⟩
  · obtain ⟨e, he⟩ := he _
    rw [he]
    exact .refused
  rw [hrun]
  refine .bind (insert_outcome has _ _) fun _ s' hs' => ?_
  obtain ⟨-, hfree, rfl⟩ := insert_ok hs'
  have hs := sound_reserve hv id
  have hmaterial : ((s.reserve id).add .material id name).materialAt id = some (.new id name) := by
    rw [materialAt_add hs hfree, if_pos rfl]
    exact if_pos rfl
  have hlive' : shader ≠ .null →
      ∃ a, ((s.reserve id).add .material id name).shaderAt shader = some a := by
    intro hnull
    obtain ⟨a, ha⟩ := hlive (by rw [ComponentId.isNull_eq_false hnull]; rfl)
    rw [shaderAt_add hs hfree, if_neg (by decide)]
    exact ⟨a, shader_eq_ok.mp ha⟩
  have hupdate : updateMaterial id (fun m => { m with shader })
      ((s.reserve id).add .material id name) =
        .ok () (((s.reserve id).add .material id name).modifyMaterial id fun m =>
          { m with shader }) :=
    bind_ok (run_ask_ok (material_eq_ok.mpr hmaterial))
  refine ⟨(), _, ?_, .single (.reshade hmaterial hlive')⟩
  rw [← hupdate]
  by_cases hnull : shader = .null
  · simp only [setMaterialShader, (ComponentId.isNull_iff shader).mpr hnull]
    rfl
  · obtain ⟨a, ha⟩ := hlive' hnull
    simp only [setMaterialShader, ComponentId.isNull_eq_false hnull]
    exact bind_ok (run_ask_ok (shader_eq_ok.mpr ha))

theorem createTexture_outcome [Mat4.Arithmetic] (has : .reserve id ∈ as) (hv : Valid s)
    (width height : UInt32) (name : String) :
    Outcome as s ((Command.createTexture id width height name).changes s)
      ((Command.createTexture id width height name).edit s) := by
  refine .bind (insert_outcome has _ _) fun _ s' hs' => ?_
  obtain ⟨-, hfree, rfl⟩ := insert_ok hs'
  have htexture := textureAt_inserted hv hfree name
  have hresize : Outcome as _ _ (resizeTexture id width height _) :=
    resizeTexture_outcome (s := (s.reserve id).add .texture id name) id width height
  have hrun : resizeTexture id width height ((s.reserve id).add .texture id name) = _ :=
    bind_ok (run_ask_ok (texture_eq_ok.mpr htexture))
  rw [hrun] at hresize
  exact ⟨(), _, hrun, hresize⟩

/-- A node is found among the components of all kinds. -/
theorem component_of_nodeAt {n : Node} (hn : s.nodeAt id = some n) :
    ∃ c, s.component id = .ok c := by
  obtain ⟨kind, i, hslot, hk, hi⟩ := rowAt_eq_some.mp hn
  cases kind with
  | transform => exact ⟨.transform n, by simp [component, slot?, hslot, hi]⟩
  | mesh => exact ⟨.mesh n, by simp [component, slot?, hslot, hi]⟩
  | _ => cases hk

theorem nodeAt_rebind {n m : Node} (hs : Sound s) (hn : s.nodeAt id = some n)
    (geometry material : ComponentId) :
    ∃ n', (s.rebind id m geometry material).nodeAt id = some n' := by
  have hmod : ∃ n', (s.modifyNode id fun n => { n with mesh := some { geometry, material } }).nodeAt
      id = some n' := by
    rw [nodeAt_modifyNode hs]
    exact ⟨_, View.edit_of_some hn⟩
  unfold rebind
  dsimp only
  split
  · exact hmod
  · split
    · exact hmod
    · exact hmod

theorem createMesh_outcome [Mat4.Arithmetic] (has : .reserve id ∈ as) (hv : Valid s)
    (geometry material : ComponentId) (name : String) :
    Outcome as s ((Command.createMesh id geometry material name).changes s)
      ((Command.createMesh id geometry material name).edit s) := by
  refine .get ?_
  by_cases hcontains : s.contains id
  · simp only [if_pos hcontains]
    exact .throw
  · simp only [if_neg hcontains]
    have hmesh := updateMesh_outcome has hv geometry material
    rw [meshChanges, if_neg hcontains] at hmesh
    refine .bind hmesh fun _ s' hs' => ?_
    rcases updateMesh_cases has hv geometry material with ⟨e, he⟩ | ⟨t, n, hsteps, hn, -, -, ht⟩
    · rw [he] at hs'
      cases hs'
    · rw [ht] at hs'
      cases hs'
      have hs' := (hsteps.valid hv).sound
      obtain ⟨n', hn'⟩ := nodeAt_rebind (m := n) hs' (nodeAt_of_mesh hn) geometry material
      obtain ⟨c, hc⟩ := component_of_nodeAt hn'
      have hname : Outcome as _ _ (setName id name _) :=
        setName_outcome (s := t.rebind id n geometry material) id name
      have hrun : setName id name (t.rebind id n geometry material) = _ := bind_ok (run_ask_ok hc)
      rw [hrun] at hname
      exact ⟨_, _, hrun, hname⟩

/-- A command takes a valid scene through steps, or is refused and leaves it as it was. -/
theorem command_outcome [Mat4.Arithmetic] (hv : Valid s) (c : Command) :
    Outcome c.asides s (c.changes s) (c.edit s) := by
  have hreserve : ∀ id : ComponentId, Aside.reserve id ∈ [Aside.reserve id] := fun _ =>
    List.mem_singleton.mpr rfl
  cases c with
  | createTransform id name => exact insert_outcome (hreserve id) .transform name
  | setName id name => exact setName_outcome id name
  | destroy id => exact (destroy_outcome hv.sound id).discard
  | addChild parent child => exact addChild_outcome hv parent child
  | removeChild parent child => exact removeChild_outcome hv parent child
  | removeAllChildren parent => exact (removeAllChildren_outcome hv parent).discard
  | reparent child parent => exact reparent_outcome hv child parent.nonNull
  | setPosition id position => exact setPosition_outcome hv.sound id position
  | setRotation id rotation => exact setRotation_outcome hv.sound id rotation
  | setScale id scale => exact setScale_outcome hv.sound id scale
  | createGeometry id name => exact insert_outcome (hreserve id) .geometry name
  | setVertexAttribute geometry location components data =>
    exact setVertexAttribute_outcome geometry location components data
  | setIndices geometry indices => exact setIndices_outcome geometry indices
  | setVertexCount geometry count => exact setVertexCount_outcome geometry count
  | setIndicesCount geometry count => exact setIndicesCount_outcome geometry count
  | createShader id vertex fragment =>
    exact createShader_outcome (hreserve id) hv vertex fragment
  | createMaterial id shader name =>
    exact createMaterial_outcome (hreserve id) hv shader name
  | setMaterialUniform material slot value => exact setMaterialUniform_outcome material slot value
  | createMesh id geometry material name =>
    exact createMesh_outcome (hreserve id) hv geometry material name
  | updateMesh mesh geometry material =>
    exact updateMesh_outcome (hreserve mesh) hv geometry material
  | createTexture id width height name =>
    exact createTexture_outcome (hreserve id) hv width height name
  | textureWrite texture pixels => exact writeTexture_outcome texture pixels
  | copyTextureToCpu texture => exact .discard (.asked _)

theorem steps_of_accepted [Mat4.Arithmetic] (hv : Valid s) {c : Command}
    (hok : c.edit s = .ok () s') : Steps c.asides s (c.changes s) s' := by
  have hout := command_outcome hv c
  rwa [hok] at hout

end Scene

end SceneGraph
