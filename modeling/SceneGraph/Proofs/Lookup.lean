import SceneGraph.Proofs.Placement
import SceneGraph.Scene.Create
import SceneGraph.Scene.Destroy

/-!
# Look-ups in a scene

A scene is sound if its five tables belong to its map of slots and nothing has the null identifier.
A sound scene is seen through its views: the functions that take an identifier to the node, the
geometry and so on that has it. Every edit of a scene acts on the views in a simple way, which is
all that later modules use. What the source of identifiers has passed is kept apart from this, since
only a new identifier depends on it.
-/

namespace SceneGraph

/-- Components by identifier. -/
abbrev View (α : Type) := ComponentId → Option α

namespace View

variable {α : Type} {v : View α} {f g : ComponentId → α → α} {x id : ComponentId} {a b : α}

def edit (v : View α) (f : ComponentId → α → α) : View α := fun x => (v x).map (f x)

def modify (v : View α) (id : ComponentId) (f : α → α) : View α :=
  v.edit fun x a => if x = id then f a else a

def insert (v : View α) (id : ComponentId) (a : α) : View α :=
  fun x => if x = id then some a else v x

def erase (v : View α) (id : ComponentId) : View α := fun x => if x = id then none else v x

theorem edit_eq_some : v.edit f x = some b ↔ ∃ a, v x = some a ∧ f x a = b :=
  Option.map_eq_some_iff

theorem edit_of_some (h : v x = some a) : v.edit f x = some (f x a) := by
  simp [edit, h]

theorem edit_eq_none : v.edit f x = none ↔ v x = none := Option.map_eq_none_iff

theorem edit_edit : (v.edit f).edit g = v.edit fun x a => g x (f x a) := by
  funext x
  simp [edit, Function.comp_def]

theorem edit_congr (h : ∀ x a, v x = some a → f x a = g x a) : v.edit f = v.edit g := by
  funext x
  cases hx : v x with
  | none => simp [edit, hx]
  | some a => simp [edit, hx, h x a hx]

theorem edit_id (h : ∀ x a, v x = some a → f x a = a) : v.edit f = v := by
  funext x
  cases hx : v x with
  | none => simp [edit, hx]
  | some a => simp [edit, hx, h x a hx]

/-- What `f` keeps is kept where it is applied to one row only. -/
theorem keeps_if {β : Type} {q : α → β} {f : α → α} (hf : ∀ a, q (f a) = q a) (x : ComponentId)
    (a : α) : q (if x = id then f a else a) = q a := by
  split
  · exact hf a
  · rfl

theorem modify_of_ne {f : α → α} (h : x ≠ id) : v.modify id f x = v x := by
  simp [modify, edit, h]

theorem modify_of_some {f : α → α} (h : v id = some a) : v.modify id f id = some (f a) := by
  simp [modify, edit, h]

theorem modify_of_none {f : α → α} (h : v id = none) : v.modify id f = v := by
  apply edit_id
  intro x a hx
  rw [if_neg]
  rintro rfl
  simp [h] at hx

theorem erase_of_none (h : v id = none) : v.erase id = v := by
  funext x
  by_cases hx : x = id
  · simp [erase, hx, h]
  · simp [erase, hx]

theorem erase_eq_some : v.erase id x = some a ↔ x ≠ id ∧ v x = some a := by
  by_cases hx : x = id <;> simp [erase, hx]

end View

/-- The five tables hold different kinds. -/
theorem Role.not_accepts {a b : Role} (hab : a ≠ b ∧ a ≠ .mesh ∧ b ≠ .mesh) (k : ComponentKind)
    (h : a.accepts k) : ¬ b.accepts k := by
  cases a <;> cases b <;> cases k <;> simp_all [accepts, ComponentKind.isNode]

theorem ComponentId.isNull_eq_false {i : ComponentId} (h : i ≠ .null) : i.isNull = false :=
  Bool.eq_false_iff.mpr (mt (isNull_iff i).mp h)

namespace Scene

variable {α : Type} {s s' : Scene} {role : Role} {t : Table α} {id x : ComponentId}

def nodeAt (s : Scene) : View Node := rowAt s.slots .node s.nodes

def geometryAt (s : Scene) : View Geometry := rowAt s.slots .geometry s.geometries

def materialAt (s : Scene) : View Material := rowAt s.slots .material s.materials

def shaderAt (s : Scene) : View Shader := rowAt s.slots .shader s.shaders

def textureAt (s : Scene) : View Texture := rowAt s.slots .texture s.textures

/-- The tables belong to the map, and nothing has the null identifier. -/
structure Sound (s : Scene) : Prop where
  nodes : Placed s.slots .node s.nodes.ids
  geometries : Placed s.slots .geometry s.geometries.ids
  materials : Placed s.slots .material s.materials.ids
  shaders : Placed s.slots .shader s.shaders.ids
  textures : Placed s.slots .texture s.textures.ids
  null : s.slots.get? .null = none

theorem Sound.ne_null (hs : Sound s) {slot : Slot} (h : s.slots.get? id = some slot) :
    id ≠ .null := by
  rintro rfl
  rw [hs.null] at h
  cases h

theorem find_eq_ok_iff {a : α} : s.find role t id = .ok a ↔ rowAt s.slots role t id = some a := by
  unfold find indexOf rowAt slot?
  cases s.slots.get? id with
  | none => simp
  | some slot =>
    by_cases h : role.accepts slot.kind
    · simp only [h, if_true]
      cases t.get? slot.index <;> simp
    · simp [h]

theorem find_eq_error (h : rowAt s.slots role t id = none) : ∃ e, s.find role t id = .error e := by
  cases hf : s.find role t id with
  | error e => exact ⟨e, rfl⟩
  | ok a => simp [find_eq_ok_iff.mp hf] at h

theorem node_eq_ok {n : Node} : s.node id = .ok n ↔ s.nodeAt id = some n := find_eq_ok_iff

theorem geometry_eq_ok {g : Geometry} : s.geometry id = .ok g ↔ s.geometryAt id = some g :=
  find_eq_ok_iff

theorem material_eq_ok {m : Material} : s.material id = .ok m ↔ s.materialAt id = some m :=
  find_eq_ok_iff

theorem shader_eq_ok {a : Shader} : s.shader id = .ok a ↔ s.shaderAt id = some a := find_eq_ok_iff

theorem texture_eq_ok {a : Texture} : s.texture id = .ok a ↔ s.textureAt id = some a :=
  find_eq_ok_iff

theorem nodeAt_of_mesh {n : Node} (hn : s.mesh id = .ok n) : s.nodeAt id = some n := by
  obtain ⟨kind, i, hslot, hk, hi⟩ := rowAt_eq_some.mp (find_eq_ok_iff.mp hn)
  refine rowAt_eq_some.mpr ⟨kind, i, hslot, ?_, hi⟩
  cases kind <;> first | rfl | cases hk

theorem indexOf_eq_ok {i : ℕ} : s.indexOf role id = .ok i ↔
    ∃ kind, s.slots.get? id = some ⟨kind, i⟩ ∧ role.accepts kind := by
  unfold indexOf slot?
  cases s.slots.get? id with
  | none => simp
  | some slot =>
    obtain ⟨kind, j⟩ := slot
    by_cases h : role.accepts kind
    · simp [h]
    · simp only [h, if_false, reduceCtorEq, false_iff, Option.some.injEq, Slot.mk.injEq]
      rintro ⟨_, ⟨rfl, -⟩, hk⟩
      exact h hk

theorem parentOf_eq : s.parentOf id = ((s.nodeAt id).map Node.parent).getD .null := by
  unfold parentOf
  cases hn : s.node id with
  | ok n => simp [node_eq_ok.mp hn]
  | error e =>
    cases hx : s.nodeAt id with
    | none => rfl
    | some n => simp [node_eq_ok.mpr hx] at hn

section Rows

variable [Row α] {f : α → α}

theorem ids_modifyRow (hf : ∀ a, Row.id (f a) = Row.id a) (t : Table α) (id : ComponentId) :
    (s.modifyRow role t id f).ids = t.ids := by
  unfold modifyRow
  split
  · rfl
  · exact Placed.ids_modify hf t _

/-- A change of a row keeps its table in its place. -/
theorem placed_modifyRow (h : Placed s.slots role t.ids) (hf : ∀ a, Row.id (f a) = Row.id a)
    (id : ComponentId) : Placed s.slots role (s.modifyRow role t id f).ids := by
  rwa [ids_modifyRow hf]

theorem rowAt_modifyRow (h : Placed s.slots role t.ids) (f : α → α) (id : ComponentId) :
    rowAt s.slots role (s.modifyRow role t id f) = View.modify (rowAt s.slots role t) id f := by
  funext x
  unfold modifyRow
  split
  · next e he =>
    rw [View.modify_of_none]
    cases hs : s.slots.get? id with
    | none => exact rowAt_of_free hs
    | some slot =>
      refine rowAt_of_not_accepts hs fun hk => ?_
      rw [indexOf_eq_ok.mpr ⟨slot.kind, hs, hk⟩] at he
      cases he
  · next i hi =>
    obtain ⟨kind, hs, hk⟩ := indexOf_eq_ok.mp hi
    rw [h.rowAt_modify hs hk]
    unfold View.modify View.edit
    by_cases hx : x = id <;> simp [hx]

/-- A change of one row, as a change of all. -/
theorem modifyRow_eq_map (h : Placed s.slots role t.ids) (hf : ∀ a, Row.id (f a) = Row.id a)
    (id : ComponentId) :
    s.modifyRow role t id f = t.map fun a => if Row.id a = id then f a else a := by
  have hif : ∀ a, Row.id (if Row.id a = id then f a else a) = Row.id a := by
    intro a
    split
    · exact hf a
    · rfl
  have hids : (s.modifyRow role t id f).ids = t.ids := ids_modifyRow hf t id
  refine Placed.table_eq (hids ▸ h) ((Placed.ids_map hif t).trans hids.symm) (funext fun x => ?_)
  rw [rowAt_modifyRow h, rowAt_map]
  cases hx : rowAt s.slots role t x with
  | none => rw [View.modify, View.edit_eq_none.mpr hx, Option.map_none]
  | some a => rw [View.modify, View.edit_of_some hx, Option.map_some, h.row_id hx]

end Rows

/-- Only the nodes differ, and none was added, removed or moved. -/
structure NodeEdit (s s' : Scene) : Prop where
  ids : s'.nodes.ids = s.nodes.ids
  rest : s' = { s with nodes := s'.nodes }

/-- Only the geometries differ, and none was added, removed or moved. -/
structure GeometryEdit (s s' : Scene) : Prop where
  ids : s'.geometries.ids = s.geometries.ids
  rest : s' = { s with geometries := s'.geometries }

namespace NodeEdit

theorem refl (s : Scene) : NodeEdit s s := ⟨rfl, rfl⟩

theorem trans {s'' : Scene} (h : NodeEdit s s') (h' : NodeEdit s' s'') : NodeEdit s s'' where
  ids := h'.ids.trans h.ids
  rest := by
    rw [h'.rest, h.rest]

theorem modifyNode (s : Scene) (id : ComponentId) {f : Node → Node} (hf : ∀ n, (f n).id = n.id) :
    NodeEdit s (s.modifyNode id f) where
  ids := ids_modifyRow hf s.nodes id
  rest := rfl

theorem slots (h : NodeEdit s s') : s'.slots = s.slots := by rw [h.rest]

theorem geometryAt (h : NodeEdit s s') : s'.geometryAt = s.geometryAt := by rw [h.rest]; rfl

theorem sound (h : NodeEdit s s') (hs : Sound s) : Sound s' := by
  have hi := h.ids
  rw [h.rest] at hi ⊢
  exact ⟨by rw [hi]; exact hs.nodes, hs.geometries, hs.materials, hs.shaders, hs.textures, hs.null⟩

end NodeEdit

namespace GeometryEdit

theorem refl (s : Scene) : GeometryEdit s s := ⟨rfl, rfl⟩

theorem trans {s'' : Scene} (h : GeometryEdit s s') (h' : GeometryEdit s' s'') :
    GeometryEdit s s'' where
  ids := h'.ids.trans h.ids
  rest := by
    rw [h'.rest, h.rest]

theorem modifyGeometry (s : Scene) (id : ComponentId) {f : Geometry → Geometry}
    (hf : ∀ g, (f g).id = g.id) : GeometryEdit s (s.modifyGeometry id f) where
  ids := ids_modifyRow hf s.geometries id
  rest := rfl

theorem slots (h : GeometryEdit s s') : s'.slots = s.slots := by rw [h.rest]

theorem nodeAt (h : GeometryEdit s s') : s'.nodeAt = s.nodeAt := by rw [h.rest]; rfl

theorem sound (h : GeometryEdit s s') (hs : Sound s) : Sound s' := by
  have hi := h.ids
  rw [h.rest] at hi ⊢
  exact ⟨hs.nodes, by rw [hi]; exact hs.geometries, hs.materials, hs.shaders, hs.textures, hs.null⟩

end GeometryEdit

section Edits

variable (hs : Sound s)
include hs

theorem nodeAt_modifyNode (f : Node → Node) (id : ComponentId) :
    (s.modifyNode id f).nodeAt = s.nodeAt.modify id f :=
  rowAt_modifyRow hs.nodes f id

theorem geometryAt_modifyGeometry (f : Geometry → Geometry) (id : ComponentId) :
    (s.modifyGeometry id f).geometryAt = s.geometryAt.modify id f :=
  rowAt_modifyRow hs.geometries f id

theorem geometryAt_null : s.geometryAt .null = none := rowAt_of_free hs.null

theorem mem_nodes {n : Node} : s.nodeAt id = some n ↔ n ∈ s.nodes.rows ∧ n.id = id :=
  hs.nodes.rowAt_iff

theorem mem_geometries {g : Geometry} :
    s.geometryAt id = some g ↔ g ∈ s.geometries.rows ∧ g.id = id :=
  hs.geometries.rowAt_iff

theorem Sound.modifyMaterial {f : Material → Material} (hf : ∀ m, (f m).id = m.id)
    (id : ComponentId) : Sound (s.modifyMaterial id f) :=
  { hs with materials := placed_modifyRow hs.materials hf id }

theorem Sound.modifyShader {f : Shader → Shader} (hf : ∀ a, (f a).id = a.id)
    (id : ComponentId) : Sound (s.modifyShader id f) :=
  { hs with shaders := placed_modifyRow hs.shaders hf id }

theorem Sound.modifyTexture {f : Texture → Texture} (hf : ∀ a, (f a).id = a.id)
    (id : ComponentId) : Sound (s.modifyTexture id f) :=
  { hs with textures := placed_modifyRow hs.textures hf id }

theorem Sound.forgetShader (id : ComponentId) : Sound (s.forgetShader id) := by
  have hids : (s.forgetShader id).materials.ids = s.materials.ids := by
    refine Placed.ids_map ?_ s.materials
    exact fun _ => rfl
  exact { hs with materials := hids ▸ hs.materials }

end Edits

section Removal

variable {kind : ComponentKind} {i : ℕ}

/-- `id` is gone, with its slot and its row, and everything else can be looked up as before. -/
structure Removal (s s' : Scene) (id : ComponentId) : Prop where
  nodes : Placed s'.slots .node s'.nodes.ids ∧ s'.nodeAt = s.nodeAt.erase id
  geometries : Placed s'.slots .geometry s'.geometries.ids ∧ s'.geometryAt = s.geometryAt.erase id
  materials : Placed s'.slots .material s'.materials.ids ∧ s'.materialAt = s.materialAt.erase id
  shaders : Placed s'.slots .shader s'.shaders.ids ∧ s'.shaderAt = s.shaderAt.erase id
  textures : Placed s'.slots .texture s'.textures.ids ∧ s'.textureAt = s.textureAt.erase id
  kinds : ∀ x, (s'.slots.get? x).map Slot.kind =
    if x = id then none else (s.slots.get? x).map Slot.kind
  ids : s'.ids = s.ids

theorem swapRemove_eq [Row α] {t : Table α} (h : i < t.rows.length) :
    swapRemove t i = ((swapEraseIdx t.ids i)[i]?, ⟨swapEraseIdx t.rows i⟩) := by
  unfold swapRemove Table.swapRemove?
  rw [Table.get?, List.getElem?_eq_getElem h, ← Placed.ids_swapErase, Placed.get?_ids]
  rfl

/-- The table from which the row is taken. -/
theorem erased_row [Row α] {slots : IdMap Slot} (h : Placed slots role t.ids)
    (hs : slots.get? id = some ⟨kind, i⟩) (hk : role.accepts kind) :
    Placed (slotsWithout slots id i (swapEraseIdx t.ids i)[i]?) role
        (⟨swapEraseIdx t.rows i⟩ : Table α).ids ∧
      rowAt (slotsWithout slots id i (swapEraseIdx t.ids i)[i]?) role ⟨swapEraseIdx t.rows i⟩ =
        View.erase (rowAt slots role t) id := by
  constructor
  · rw [Placed.ids_swapErase]
    exact h.swapErase hs hk
  · funext x
    exact h.rowAt_swapErase hs hk x

/-- Any other table. -/
theorem erased_other [Row α] {slots : IdMap Slot} {other : Role} {ids : List ComponentId}
    (h : Placed slots role t.ids) (h' : Placed slots other ids)
    (hs : slots.get? id = some ⟨kind, i⟩) (hk : other.accepts kind)
    (hne : ∀ k, other.accepts k → ¬ role.accepts k) :
    Placed (slotsWithout slots id i (swapEraseIdx ids i)[i]?) role t.ids ∧
      rowAt (slotsWithout slots id i (swapEraseIdx ids i)[i]?) role t =
        View.erase (rowAt slots role t) id := by
  constructor
  · exact h.swapErase_other h' hs hk hne
  · funext x
    exact h'.rowAt_swapErase_other hs hk hne x

theorem kinds_slotsWithout {slots : IdMap Slot} {ids : List ComponentId} (h : Placed slots role ids)
    (hs : slots.get? id = some ⟨kind, i⟩) (hk : role.accepts kind) (x : ComponentId) :
    ((slotsWithout slots id i (swapEraseIdx ids i)[i]?).get? x).map Slot.kind =
      if x = id then none else (slots.get? x).map Slot.kind := by
  have hi : ids[i]? = some id := (h id i).mp ⟨kind, hs, hk⟩
  rw [get?_slotsWithout fun he => ((h.moved_iff hi).mp he).1 rfl]
  by_cases hx : x = id
  · simp [hx]
  · rw [if_neg hx, if_neg hx, Option.map_map]
    congr 1
    funext o
    simp only [Function.comp_apply]
    split <;> rfl

theorem index_lt [Row α] {slots : IdMap Slot} (h : Placed slots role t.ids)
    (hs : slots.get? id = some ⟨kind, i⟩) (hk : role.accepts kind) : i < t.rows.length := by
  have hi := (h id i).mp ⟨kind, hs, hk⟩
  simpa [Table.ids] using (List.getElem?_eq_some_iff.mp hi).1

theorem removal_node (hs : Sound s) (h : s.slots.get? id = some ⟨kind, i⟩)
    (hk : Role.node.accepts kind) : Removal s
      { s with
        nodes := ⟨swapEraseIdx s.nodes.rows i⟩
        slots := slotsWithout s.slots id i (swapEraseIdx s.nodes.ids i)[i]? } id where
  nodes := erased_row hs.nodes h hk
  geometries := erased_other hs.geometries hs.nodes h hk (Role.not_accepts (by decide))
  materials := erased_other hs.materials hs.nodes h hk (Role.not_accepts (by decide))
  shaders := erased_other hs.shaders hs.nodes h hk (Role.not_accepts (by decide))
  textures := erased_other hs.textures hs.nodes h hk (Role.not_accepts (by decide))
  kinds := kinds_slotsWithout hs.nodes h hk
  ids := rfl

theorem removeSlot_node (hs : Sound s) (h : s.slots.get? id = some ⟨kind, i⟩)
    (hk : Role.node.accepts kind) : s.removeSlot id ⟨kind, i⟩ =
      { s with
        nodes := ⟨swapEraseIdx s.nodes.rows i⟩
        slots := slotsWithout s.slots id i (swapEraseIdx s.nodes.ids i)[i]? } := by
  cases kind with
  | transform | mesh =>
    simp only [removeSlot, swapRemove_eq (index_lt hs.nodes h rfl)]
    rfl
  | geometry | material | shader | texture => cases hk

theorem removeSlot_removal (hs : Sound s) {slot : Slot} (h : s.slots.get? id = some slot) :
    Removal s (s.removeSlot id slot) id := by
  obtain ⟨kind, i⟩ := slot
  cases kind with
  | transform | mesh =>
    rw [removeSlot_node hs h rfl]
    exact removal_node hs h rfl
  | geometry =>
    simp only [removeSlot, swapRemove_eq (index_lt hs.geometries h rfl)]
    exact
      { nodes := erased_other hs.nodes hs.geometries h rfl (Role.not_accepts (by decide))
        geometries := erased_row hs.geometries h rfl
        materials := erased_other hs.materials hs.geometries h rfl (Role.not_accepts (by decide))
        shaders := erased_other hs.shaders hs.geometries h rfl (Role.not_accepts (by decide))
        textures := erased_other hs.textures hs.geometries h rfl (Role.not_accepts (by decide))
        kinds := kinds_slotsWithout hs.geometries h rfl
        ids := rfl }
  | material =>
    simp only [removeSlot, swapRemove_eq (index_lt hs.materials h rfl)]
    exact
      { nodes := erased_other hs.nodes hs.materials h rfl (Role.not_accepts (by decide))
        geometries := erased_other hs.geometries hs.materials h rfl (Role.not_accepts (by decide))
        materials := erased_row hs.materials h rfl
        shaders := erased_other hs.shaders hs.materials h rfl (Role.not_accepts (by decide))
        textures := erased_other hs.textures hs.materials h rfl (Role.not_accepts (by decide))
        kinds := kinds_slotsWithout hs.materials h rfl
        ids := rfl }
  | shader =>
    simp only [removeSlot, swapRemove_eq (index_lt hs.shaders h rfl)]
    exact
      { nodes := erased_other hs.nodes hs.shaders h rfl (Role.not_accepts (by decide))
        geometries := erased_other hs.geometries hs.shaders h rfl (Role.not_accepts (by decide))
        materials := erased_other hs.materials hs.shaders h rfl (Role.not_accepts (by decide))
        shaders := erased_row hs.shaders h rfl
        textures := erased_other hs.textures hs.shaders h rfl (Role.not_accepts (by decide))
        kinds := kinds_slotsWithout hs.shaders h rfl
        ids := rfl }
  | texture =>
    simp only [removeSlot, swapRemove_eq (index_lt hs.textures h rfl)]
    exact
      { nodes := erased_other hs.nodes hs.textures h rfl (Role.not_accepts (by decide))
        geometries := erased_other hs.geometries hs.textures h rfl (Role.not_accepts (by decide))
        materials := erased_other hs.materials hs.textures h rfl (Role.not_accepts (by decide))
        shaders := erased_other hs.shaders hs.textures h rfl (Role.not_accepts (by decide))
        textures := erased_row hs.textures h rfl
        kinds := kinds_slotsWithout hs.textures h rfl
        ids := rfl }

theorem Removal.sound (h : Removal s s' id) (hs : Sound s) : Sound s' where
  nodes := h.nodes.1
  geometries := h.geometries.1
  materials := h.materials.1
  shaders := h.shaders.1
  textures := h.textures.1
  null := by
    have := h.kinds .null
    rw [hs.null] at this
    simpa using this

end Removal

section Addition

variable {kind : ComponentKind} {name : String}

/-- What a new node of a kind looks like, if the kind is one of nodes. -/
def newNode (kind : ComponentKind) (id : ComponentId) (name : String) : Option Node :=
  match kind with
  | .transform => some (.new id name)
  | .mesh => some { Node.new id name with mesh := some {} }
  | _ => none

theorem nodeAt_add (hs : Sound s) (hf : s.slots.get? id = none) :
    (s.add kind id name).nodeAt =
      match newNode kind id name with
      | some n => s.nodeAt.insert id n
      | none => s.nodeAt := by
  funext x
  cases kind with
  | transform => exact hs.nodes.rowAt_push rfl _ x
  | mesh => exact hs.nodes.rowAt_push rfl _ x
  | _ => exact rowAt_insert_other hf (by decide) _ x

theorem geometryAt_add (hs : Sound s) (hf : s.slots.get? id = none) :
    (s.add kind id name).geometryAt =
      if kind = .geometry then s.geometryAt.insert id (.new id name) else s.geometryAt := by
  funext x
  cases kind with
  | geometry => exact hs.geometries.rowAt_push rfl _ x
  | _ => exact rowAt_insert_other hf (by decide) _ x

theorem materialAt_add (hs : Sound s) (hf : s.slots.get? id = none) :
    (s.add kind id name).materialAt =
      if kind = .material then s.materialAt.insert id (.new id name) else s.materialAt := by
  funext x
  cases kind with
  | material => exact hs.materials.rowAt_push rfl _ x
  | _ => exact rowAt_insert_other hf (by decide) _ x

theorem shaderAt_add (hs : Sound s) (hf : s.slots.get? id = none) :
    (s.add kind id name).shaderAt =
      if kind = .shader then s.shaderAt.insert id (.new id name) else s.shaderAt := by
  funext x
  cases kind with
  | shader => exact hs.shaders.rowAt_push rfl _ x
  | _ => exact rowAt_insert_other hf (by decide) _ x

theorem textureAt_add (hs : Sound s) (hf : s.slots.get? id = none) :
    (s.add kind id name).textureAt =
      if kind = .texture then s.textureAt.insert id (.new id name 0 0) else s.textureAt := by
  funext x
  cases kind with
  | texture => exact hs.textures.rowAt_push rfl _ x
  | _ => exact rowAt_insert_other hf (by decide) _ x

theorem slots_add (s : Scene) (kind : ComponentKind) (id : ComponentId) (name : String) :
    ∃ i, (s.add kind id name).slots = s.slots.insert id ⟨kind, i⟩ := by
  cases kind <;> exact ⟨_, rfl⟩

theorem ids_add : (s.add kind id name).ids = s.ids := by
  cases kind <;> rfl

theorem Sound.add (hs : Sound s) (hn : id ≠ .null) (hf : s.slots.get? id = none) :
    Sound (s.add kind id name) where
  nodes := by
    cases kind with
    | transform | mesh => exact hs.nodes.push hf (by rfl) (by rfl)
    | _ => exact hs.nodes.insert_other hf (by decide) _
  geometries := by
    cases kind with
    | geometry => exact hs.geometries.push hf (by rfl) (by rfl)
    | _ => exact hs.geometries.insert_other hf (by decide) _
  materials := by
    cases kind with
    | material => exact hs.materials.push hf (by rfl) (by rfl)
    | _ => exact hs.materials.insert_other hf (by decide) _
  shaders := by
    cases kind with
    | shader => exact hs.shaders.push hf (by rfl) (by rfl)
    | _ => exact hs.shaders.insert_other hf (by decide) _
  textures := by
    cases kind with
    | texture => exact hs.textures.push hf (by rfl) (by rfl)
    | _ => exact hs.textures.insert_other hf (by decide) _
  null := by
    obtain ⟨i, hi⟩ := slots_add s kind id name
    rw [hi, IdMap.get?_insert, if_neg hn.symm, hs.null]

end Addition

end Scene

end SceneGraph
