import SceneGraph.Proofs.Marking

/-!
# Assignments to fields

What an accepted write does, as a change of the scene alone: the row that has the identifier gets
another value in one of its fields, and if that moves a node, the node and all above it are marked.
Two such changes can be made in either order unless they concern the same field of the same
component. The marks of one branch meet above, but a mark only ever raises what it finds.
-/

namespace SceneGraph

theorem Staleness.max_right_comm (a b c : Staleness) : max (max a b) c = max (max a c) b := by
  apply rank_inj
  rw [rank_max, rank_max, rank_max, rank_max]
  exact Nat.max_right_comm ..

/-- Whether a node gets other matrices with another value of the field. -/
def Datum.places : Datum → Bool
  | position _ | rotation _ | scale _ => true
  | _ => false

section Rows

def Node.assign : Datum → Node → Node
  | .name name, n => { n with name }
  | .position position, n => { n with position }
  | .rotation rotation, n => { n with rotation }
  | .scale scale, n => { n with scale }
  | _, n => n

def Geometry.assign : Datum → Geometry → Geometry
  | .name name, g => { g with name }
  | .stream location components data, g =>
    { g with
      streams := g.streams.setIfInBounds location
        ((g.streams[location]?.getD {}).replace components data)
      verticesDirty := true }
  | .indices indices, g =>
    { g with indices := g.indices.clear.append (Bytes.ofWords indices), verticesDirty := true }
  | .vertexOverride vertexOverride, g => { g with vertexOverride }
  | .indexOverride indexOverride, g => { g with indexOverride }
  | _, g => g

def Material.assign : Datum → Material → Material
  | .name name, m => { m with name }
  | .uniform slot value, m =>
    { m with uniforms := m.uniforms.setIfInBounds slot value, uniformsDirty := true }
  | _, m => m

def Shader.assign : Datum → Shader → Shader
  | .name name, a => { a with name }
  | _, a => a

def Texture.assign : Datum → Texture → Texture
  | .name name, t => { t with name }
  | .pixels pixels, t => { t with pixels, uploadPending := true }
  | _, t => t

/-- A row whose fields can be assigned to. Different fields do not interfere. -/
class Assignable (α : Type) [Row α] where
  assign : Datum → α → α
  id_assign : ∀ d a, Row.id (assign d a) = Row.id a
  assign_comm : ∀ {d d' : Datum}, d.field ≠ d'.field → ∀ a,
    assign d' (assign d a) = assign d (assign d' a)

variable {d d' : Datum}

theorem Node.assign_comm (h : d.field ≠ d'.field) (n : Node) :
    (n.assign d).assign d' = (n.assign d').assign d := by
  cases d with
  | name | position | rotation | scale => cases d' <;> first | rfl | exact absurd rfl h
  | _ => rfl

theorem Geometry.assign_comm (h : d.field ≠ d'.field) (g : Geometry) :
    (g.assign d).assign d' = (g.assign d').assign d := by
  cases d with
  | stream location components data =>
    cases d' with
    | stream location' components' data' =>
      have hne : location ≠ location' := fun he => h (congrArg Field.stream he)
      simp only [assign, Vector.getElem?_setIfInBounds_ne hne,
        Vector.getElem?_setIfInBounds_ne hne.symm, Vector.setIfInBound_comm _ _ hne]
    | _ => rfl
  | name | indices | vertexOverride | indexOverride =>
    cases d' <;> first | rfl | exact absurd rfl h
  | _ => rfl

theorem Material.assign_comm (h : d.field ≠ d'.field) (m : Material) :
    (m.assign d).assign d' = (m.assign d').assign d := by
  cases d with
  | uniform slot value =>
    cases d' with
    | uniform slot' value' =>
      have hne : slot ≠ slot' := fun he => h (congrArg Field.uniform he)
      simp only [assign, Vector.setIfInBound_comm _ _ hne]
    | _ => rfl
  | name => cases d' <;> first | rfl | exact absurd rfl h
  | _ => rfl

theorem Shader.assign_comm (h : d.field ≠ d'.field) (a : Shader) :
    (a.assign d).assign d' = (a.assign d').assign d := by
  cases d with
  | name => cases d' <;> first | rfl | exact absurd rfl h
  | _ => rfl

theorem Texture.assign_comm (h : d.field ≠ d'.field) (t : Texture) :
    (t.assign d).assign d' = (t.assign d').assign d := by
  cases d with
  | name | pixels => cases d' <;> first | rfl | exact absurd rfl h
  | _ => rfl

instance : Assignable Node where
  assign := Node.assign
  id_assign d _ := by cases d <;> rfl
  assign_comm := Node.assign_comm

instance : Assignable Geometry where
  assign := Geometry.assign
  id_assign d _ := by cases d <;> rfl
  assign_comm := Geometry.assign_comm

instance : Assignable Material where
  assign := Material.assign
  id_assign d _ := by cases d <;> rfl
  assign_comm := Material.assign_comm

instance : Assignable Shader where
  assign := Shader.assign
  id_assign d _ := by cases d <;> rfl
  assign_comm := Shader.assign_comm

instance : Assignable Texture where
  assign := Texture.assign
  id_assign d _ := by cases d <;> rfl
  assign_comm := Texture.assign_comm

theorem setIfInBounds_eq_set {α : Type} {n i : ℕ} (v : Vector α n) (h : i < n) (a : α) :
    v.setIfInBounds i a = v.set i a := by
  ext j hj
  rw [Vector.getElem_setIfInBounds, Vector.getElem_set]

theorem Geometry.assign_stream {location : ℕ} (h : location < streamLimit) (components : UInt32)
    (data : List Scalar) (g : Geometry) : g.assign (.stream location components data) =
      { g with
        streams := g.streams.set location (g.streams[location].replace components data)
        verticesDirty := true } := by
  rw [assign, setIfInBounds_eq_set _ h, Vector.getElem?_eq_getElem h, Option.getD_some]

theorem Material.assign_uniform {slot : ℕ} (h : slot < uniformLimit) (value : Vec4)
    (m : Material) : m.assign (.uniform slot value) =
      { m with uniforms := m.uniforms.set slot value, uniformsDirty := true } := by
  rw [assign, setIfInBounds_eq_set _ h]

end Rows

section Tables

variable {α : Type} [Row α] [Assignable α] {d d' : Datum} {id id' : ComponentId}

/-- Assigns to a field of the row if it has the identifier. -/
def assignAt (id : ComponentId) (d : Datum) (a : α) : α :=
  if Row.id a = id then Assignable.assign d a else a

theorem id_assignAt (id : ComponentId) (d : Datum) (a : α) :
    Row.id (assignAt id d a) = Row.id a := by
  unfold assignAt
  split
  · exact Assignable.id_assign d a
  · rfl

theorem assignAt_comm (h : (id, d.field) ≠ (id', d'.field)) (a : α) :
    assignAt id' d' (assignAt id d a) = assignAt id d (assignAt id' d' a) := by
  rw [assignAt, id_assignAt, assignAt, assignAt, assignAt]
  by_cases hid : Row.id a = id
  · by_cases hid' : Row.id a = id'
    · have hfield : d.field ≠ d'.field := by
        intro he
        exact h (Prod.ext (hid.symm.trans hid') he)
      simp only [if_pos hid, if_pos hid', Assignable.id_assign, Assignable.assign_comm hfield]
    · simp only [if_pos hid, if_neg hid']
  · by_cases hid' : Row.id a = id'
    · simp only [if_neg hid, if_pos hid', Assignable.id_assign]
    · simp only [if_neg hid, if_neg hid']

theorem Node.parent_assignAt (id : ComponentId) (d : Datum) (n : Node) :
    (assignAt id d n).parent = n.parent := by
  unfold assignAt
  split
  · cases d <;> rfl
  · rfl

theorem Texture.size_assignAt (id : ComponentId) (d : Datum) (t : Texture) :
    (assignAt id d t).width = t.width ∧ (assignAt id d t).height = t.height := by
  unfold assignAt
  split
  · cases d <;> exact ⟨rfl, rfl⟩
  · exact ⟨rfl, rfl⟩

open Classical in
/-- The node with its mark, if it is `id` or above it. -/
noncomputable def Node.marked (up : ComponentId → ComponentId → Prop) (id : ComponentId)
    (g : Staleness) (n : Node) : Node :=
  { n with
    stale :=
      if n.id = id then max n.stale g
      else if Relation.TransGen up id n.id then max n.stale .descendents
      else n.stale }

/-- Marks add up. -/
theorem Node.marked_comm (up : ComponentId → ComponentId → Prop) (x y : ComponentId)
    (g h : Staleness) (n : Node) :
    (n.marked up x g).marked up y h = (n.marked up y h).marked up x g := by
  unfold marked
  dsimp only
  -- a node that both reach is raised twice, and any other at most once
  split_ifs <;> first | rfl | rw [Staleness.max_right_comm]

/-- Marking does not look at what is assigned. -/
theorem Node.assignAt_marked (up : ComponentId → ComponentId → Prop) (x : ComponentId)
    (g : Staleness) (id : ComponentId) (d : Datum) (n : Node) :
    assignAt id d (n.marked up x g) = (assignAt id d n).marked up x g := by
  rw [assignAt, assignAt]
  by_cases hid : Row.id n = id
  · rw [if_pos hid, if_pos (show Row.id (n.marked up x g) = id from hid)]
    cases d <;> rfl
  · rw [if_neg hid, if_neg (show ¬ Row.id (n.marked up x g) = id from hid)]

namespace Table

/-- Assigns to a field of the row that has the identifier, if there is one. -/
def assign (t : Table α) (id : ComponentId) (d : Datum) : Table α := t.map (assignAt id d)

omit [Row α] [Assignable α] in
theorem map_map (t : Table α) (f g : α → α) : (t.map f).map g = t.map fun a => g (f a) :=
  congrArg Table.mk List.map_map

theorem assign_comm (h : (id, d.field) ≠ (id', d'.field)) (t : Table α) :
    (t.assign id d).assign id' d' = (t.assign id' d').assign id d := by
  unfold assign
  rw [map_map, map_map]
  exact congrArg t.map (funext (assignAt_comm h))

variable {s : Scene} {slot : Slot} {role : Role} {t : Table α}

/-- Where the slot of the identifier is one for the role of the table, that row changes. -/
theorem assign_own (h : Placed s.slots role t.ids) (id : ComponentId) (d : Datum) :
    t.assign id d = s.modifyRow role t id (Assignable.assign d) :=
  (Scene.modifyRow_eq_map h (Assignable.id_assign d) id).symm

/-- Where it is not, nothing changes. -/
theorem assign_other (h : Placed s.slots role t.ids) (hslot : s.slots.get? id = some slot)
    (hk : role.accepts slot.kind = false) (d : Datum) : t.assign id d = t := by
  rw [assign_own h, Scene.modifyRow, Scene.indexOf, Scene.slot?, hslot]
  simp only [hk, Bool.false_eq_true, if_false]

end Table

end Tables

namespace Scene

variable {s : Scene} {id id' x : ComponentId} {d d' : Datum}

/-- Assigns to a field of the component that has the identifier, if there is one. -/
def assign (s : Scene) (id : ComponentId) (d : Datum) : Scene :=
  { s with
    nodes := s.nodes.assign id d
    geometries := s.geometries.assign id d
    materials := s.materials.assign id d
    shaders := s.shaders.assign id d
    textures := s.textures.assign id d }

/-- What an accepted write does: other matrices are marked as due. -/
noncomputable def written (s : Scene) (id : ComponentId) (d : Datum) : Scene :=
  if d.places then (s.assign id d).flagAll id .local else s.assign id d

theorem assign_comm (h : (id, d.field) ≠ (id', d'.field)) (s : Scene) :
    (s.assign id d).assign id' d' = (s.assign id' d').assign id d := by
  simp only [assign, Table.assign_comm h]

/-- Assigns to a field of the component that a look-up with `role` finds. -/
def assignIn (s : Scene) (role : Role) (id : ComponentId) (d : Datum) : Scene :=
  match role with
  | .node | .mesh => s.modifyNode id (Node.assign d)
  | .geometry => s.modifyGeometry id (Geometry.assign d)
  | .material => s.modifyMaterial id (Material.assign d)
  | .shader => s.modifyShader id (Shader.assign d)
  | .texture => s.modifyTexture id (Texture.assign d)

/-- No other table has the component. -/
theorem assign_eq {α : Type} {role : Role} {t : Table α} {a : α} (hs : Sound s)
    (ha : rowAt s.slots role t id = some a) (d : Datum) : s.assign id d = s.assignIn role id d := by
  obtain ⟨kind, i, hslot, hk, -⟩ := rowAt_eq_some.mp ha
  have hother : ∀ {β : Type} [Row β] [Assignable β] {other : Role} {t : Table β},
      Placed s.slots other t.ids → other.accepts kind = false → t.assign id d = t :=
    fun h hk => Table.assign_other h hslot hk d
  cases kind with
  | transform | mesh =>
    rw [assign, Table.assign_own hs.nodes, hother hs.geometries rfl, hother hs.materials rfl,
      hother hs.shaders rfl, hother hs.textures rfl]
    cases role <;> first | rfl | cases hk
  | geometry =>
    rw [assign, hother hs.nodes rfl, Table.assign_own hs.geometries, hother hs.materials rfl,
      hother hs.shaders rfl, hother hs.textures rfl]
    cases role <;> first | rfl | cases hk
  | material =>
    rw [assign, hother hs.nodes rfl, hother hs.geometries rfl, Table.assign_own hs.materials,
      hother hs.shaders rfl, hother hs.textures rfl]
    cases role <;> first | rfl | cases hk
  | shader =>
    rw [assign, hother hs.nodes rfl, hother hs.geometries rfl, hother hs.materials rfl,
      Table.assign_own hs.shaders, hother hs.textures rfl]
    cases role <;> first | rfl | cases hk
  | texture =>
    rw [assign, hother hs.nodes rfl, hother hs.geometries rfl, hother hs.materials rfl,
      hother hs.shaders rfl, Table.assign_own hs.textures]
    cases role <;> first | rfl | cases hk

/-- Rows change in ways that keep the links between nodes. -/
theorem hasParent_map {f : Node → Node} (hf : ∀ n, (f n).parent = n.parent) {s' : Scene}
    (hslots : s'.slots = s.slots) (hnodes : s'.nodes = s.nodes.map f) :
    s'.HasParent = s.HasParent := by
  funext c p
  have hnode : s'.nodeAt c = (s.nodeAt c).map f := by
    rw [nodeAt, hslots, hnodes, rowAt_map]
    rfl
  rw [HasParent, HasParent, parentOf_eq, parentOf_eq, hnode]
  cases s.nodeAt c with
  | none => rfl
  | some n => simp only [Option.map_some, hf]

theorem hasParent_assign (s : Scene) (id : ComponentId) (d : Datum) :
    (s.assign id d).HasParent = s.HasParent :=
  hasParent_map (Node.parent_assignAt id d) rfl rfl

theorem hasParent_flagAll (s : Scene) (id : ComponentId) (g : Staleness) :
    (s.flagAll id g).HasParent = s.HasParent := by
  refine hasParent_map (fun n => ?_) rfl rfl
  rfl

theorem flagAll_eq (s : Scene) (id : ComponentId) (g : Staleness) :
    s.flagAll id g = { s with nodes := s.nodes.map (Node.marked s.HasParent id g) } := rfl

theorem assign_flagAll (s : Scene) (x id : ComponentId) (g : Staleness) (d : Datum) :
    (s.flagAll x g).assign id d = (s.assign id d).flagAll x g := by
  rw [flagAll_eq, flagAll_eq, hasParent_assign]
  simp only [assign, Table.assign, Table.map_map, Node.assignAt_marked]

theorem flagAll_comm (s : Scene) (x y : ComponentId) (g h : Staleness) :
    (s.flagAll x g).flagAll y h = (s.flagAll y h).flagAll x g := by
  rw [flagAll_eq (s.flagAll x g), flagAll_eq (s.flagAll y h), hasParent_flagAll, hasParent_flagAll]
  simp only [flagAll_eq, Table.map_map, Node.marked_comm _ x y]

/-- Writes of different fields can be made in either order. -/
theorem written_comm (h : (id, d.field) ≠ (id', d'.field)) (s : Scene) :
    (s.written id d).written id' d' = (s.written id' d').written id d := by
  cases hd : d.places <;> cases hd' : d'.places <;>
    simp only [written, hd, hd', if_true, Bool.false_eq_true, if_false, assign_flagAll,
      assign_comm h, flagAll_comm _ id id']

end Scene

end SceneGraph
