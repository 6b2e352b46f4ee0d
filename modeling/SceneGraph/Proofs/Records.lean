import SceneGraph.Proofs.Contents

/-!
# Scenes as maps to contents

The contents of a scene are found through its map of slots and its five tables. An edit of rows
shows in the contents where the rows are, and an edit that touches only links, caches and bindings
does not show at all.
-/

namespace SceneGraph

namespace View

variable {α β : Type} {v : View α} {q : α → β} {id : ComponentId}

def map (q : α → β) (v : View α) : View β := fun x => (v x).map q

theorem map_edit {f : ComponentId → α → α} {F : ComponentId → β → β}
    (h : ∀ x a, v x = some a → q (f x a) = F x (q a)) : (v.edit f).map q = (v.map q).edit F := by
  funext x
  cases hx : v x with
  | none => simp [map, edit, hx]
  | some a => simp [map, edit, hx, h x a hx]

theorem map_edit_same {f : ComponentId → α → α} (h : ∀ x a, q (f x a) = q a) :
    (v.edit f).map q = v.map q := by
  funext x
  cases hx : v x <;> simp [map, edit, hx, h]

theorem map_modify {f : α → α} {F : β → β} (h : ∀ a, q (f a) = F (q a)) :
    (v.modify id f).map q = (v.map q).modify id F := by
  refine map_edit fun x a _ => ?_
  split
  · exact h a
  · rfl

theorem map_map {γ : Type} (r : β → γ) (v : View α) : (v.map q).map r = v.map fun a => r (q a) := by
  funext x
  simp [map, Function.comp_def]

theorem map_erase : (v.erase id).map q = (v.map q).erase id := by
  funext x
  by_cases hx : x = id <;> simp [map, erase, hx]

end View

namespace Scene

variable {s s' : Scene} {id x : ComponentId} {k : ComponentKind}

/-- The content of each component that is found. -/
def contents (s : Scene) : View Content := fun id =>
  match s.component id with
  | .ok c => some c.content
  | .error _ => none

/-- The kind and the fields of each component that is found. -/
def entryOf (s : Scene) (id : ComponentId) : Option Entry :=
  match s.component id with
  | .ok c => some c.entry
  | .error _ => none

theorem entryOf_contents (s : Scene) (id : ComponentId) : s.contents.entryOf id = s.entryOf id := by
  unfold View.entryOf contents entryOf
  cases s.component id with
  | error e => rfl
  | ok c => cases c <;> rfl

/-- The components in the table of one kind. -/
def rowOf (s : Scene) : ComponentKind → View Component
  | .transform => s.nodeAt.map .transform
  | .mesh => s.nodeAt.map .mesh
  | .geometry => s.geometryAt.map .geometry
  | .material => s.materialAt.map .material
  | .shader => s.shaderAt.map .shader
  | .texture => s.textureAt.map .texture

/-- The contents in the table of one kind. -/
def record (s : Scene) (k : ComponentKind) : View Content := (s.rowOf k).map Component.content

theorem component_eq (s : Scene) (x : ComponentId) :
    s.component x = match (s.kindOf? x).bind fun k => s.rowOf k x with
      | none => .error (.notFound x)
      | some c => .ok c := by
  unfold component kindOf? slot?
  cases hs : s.slots.get? x with
  | none => rfl
  | some slot =>
    obtain ⟨kind, i⟩ := slot
    cases kind with
    | transform | mesh =>
      have hv : s.nodeAt x = s.nodes.get? i := rowAt_of_slot hs rfl
      cases hr : s.nodes.get? i <;> simp [rowOf, View.map, hv, hr]
    | geometry =>
      have hv : s.geometryAt x = s.geometries.get? i := rowAt_of_slot hs rfl
      cases hr : s.geometries.get? i <;> simp [rowOf, View.map, hv, hr]
    | material =>
      have hv : s.materialAt x = s.materials.get? i := rowAt_of_slot hs rfl
      cases hr : s.materials.get? i <;> simp [rowOf, View.map, hv, hr]
    | shader =>
      have hv : s.shaderAt x = s.shaders.get? i := rowAt_of_slot hs rfl
      cases hr : s.shaders.get? i <;> simp [rowOf, View.map, hv, hr]
    | texture =>
      have hv : s.textureAt x = s.textures.get? i := rowAt_of_slot hs rfl
      cases hr : s.textures.get? i <;> simp [rowOf, View.map, hv, hr]

/-- What is found among all components is found in the table of its kind. -/
theorem row_of_component {c : Component} (h : s.component id = .ok c) :
    match c with
    | .transform n | .mesh n => s.nodeAt id = some n
    | .geometry g => s.geometryAt id = some g
    | .material m => s.materialAt id = some m
    | .shader a => s.shaderAt id = some a
    | .texture t => s.textureAt id = some t := by
  rw [component_eq] at h
  split at h
  · cases h
  · next c hc =>
    cases h
    obtain ⟨k, -, hrow⟩ := Option.bind_eq_some_iff.mp hc
    cases k <;>
    · obtain ⟨a, ha, rfl⟩ := Option.map_eq_some_iff.mp hrow
      exact ha

theorem contents_eq (s : Scene) (x : ComponentId) :
    s.contents x = (s.kindOf? x).bind fun k => s.record k x := by
  rw [contents, component_eq]
  cases s.kindOf? x with
  | none => rfl
  | some k => cases hc : s.rowOf k x <;> simp [record, View.map, hc]

theorem kind_of_record {c : Content} (h : s.record k x = some c) : c.kind = k := by
  obtain ⟨a, ha, rfl⟩ := Option.map_eq_some_iff.mp h
  cases k <;>
  · obtain ⟨r, -, rfl⟩ := Option.map_eq_some_iff.mp ha
    rfl

theorem kindOf?_of_contents {c : Content} (h : s.contents x = some c) :
    s.kindOf? x = some c.kind := by
  rw [contents_eq] at h
  obtain ⟨k, hk, hc⟩ := Option.bind_eq_some_iff.mp h
  rw [hk, kind_of_record hc]

theorem contents_of_free (h : s.slots.get? x = none) : s.contents x = none := by
  rw [contents_eq, kindOf?, slot?, h]
  rfl

/-- Only materials have shaders. -/
theorem kind_of_shader {c : Content} (h : s.contents x = some c) (hc : c.shader ≠ .null) :
    c.kind = .material := by
  rw [contents_eq] at h
  obtain ⟨k, -, hk⟩ := Option.bind_eq_some_iff.mp h
  obtain ⟨a, ha, rfl⟩ := Option.map_eq_some_iff.mp hk
  cases k <;>
  · obtain ⟨r, -, rfl⟩ := Option.map_eq_some_iff.mp ha
    first | rfl | exact absurd rfl hc

theorem exists_row {α : Type} [Row α] {role : Role} {t : Table α} (h : Placed s.slots role t.ids)
    {i : ℕ} (hs : s.slots.get? id = some ⟨k, i⟩) (hk : role.accepts k) {q : α → Component}
    (hq : ∀ a, (q a).id = Row.id a ∧ (q a).kind = k) :
    ∃ c, (View.map q (rowAt s.slots role t)) id = some c ∧ c.id = id ∧ c.kind = k := by
  obtain ⟨a, ha⟩ := h.slot_iff.mp ⟨k, i, hs, hk⟩
  exact ⟨q a, Option.map_eq_some_iff.mpr ⟨a, ha, rfl⟩, (hq a).1.trans (h.row_id ha), (hq a).2⟩

/-- Every slot leads to a component with that identifier and of that kind. -/
theorem exists_component (hs : Sound s) (h : s.kindOf? id = some k) :
    ∃ c, s.component id = .ok c ∧ c.id = id ∧ c.kind = k := by
  obtain ⟨⟨k, i⟩, hslot, rfl⟩ := Option.map_eq_some_iff.mp h
  have hrow : ∃ c, s.rowOf k id = some c ∧ c.id = id ∧ c.kind = k := by
    cases k with
    | transform | mesh => exact exists_row hs.nodes hslot rfl fun _ => ⟨rfl, rfl⟩
    | geometry => exact exists_row hs.geometries hslot rfl fun _ => ⟨rfl, rfl⟩
    | material => exact exists_row hs.materials hslot rfl fun _ => ⟨rfl, rfl⟩
    | shader => exact exists_row hs.shaders hslot rfl fun _ => ⟨rfl, rfl⟩
    | texture => exact exists_row hs.textures hslot rfl fun _ => ⟨rfl, rfl⟩
  obtain ⟨c, hc, hid⟩ := hrow
  refine ⟨c, ?_, hid⟩
  rw [component_eq, h, Option.bind_some, hc]

theorem exists_contents (hs : Sound s) (h : s.kindOf? id = some k) :
    ∃ c, s.contents id = some c ∧ c.kind = k := by
  obtain ⟨c, hc, -, rfl⟩ := exists_component hs h
  refine ⟨c.content, ?_, by cases c <;> rfl⟩
  rw [contents, hc]

theorem kindOf?_contents (hs : Sound s) (x : ComponentId) :
    s.contents.kindOf? x = s.kindOf? x := by
  cases hk : s.kindOf? x with
  | none => rw [View.kindOf?, contents_eq, hk]; rfl
  | some k =>
    obtain ⟨c, hc, rfl⟩ := exists_contents hs hk
    rw [View.kindOf?, hc]
    rfl

theorem kindOf?_of_rowAt {α : Type} {role : Role} {t : Table α} {a : α}
    (h : rowAt s.slots role t id = some a) : ∃ k, s.kindOf? id = some k ∧ role.accepts k := by
  obtain ⟨k, i, hslot, hk, -⟩ := rowAt_eq_some.mp h
  refine ⟨k, ?_, hk⟩
  rw [kindOf?, slot?, hslot]
  rfl

theorem kindOf?_of_row {α : Type} {role : Role} {t : Table α} {a : α} (hs : Sound s)
    (h : rowAt s.slots role t id = some a) (hk : ∀ k', role.accepts k' → k' = k) :
    s.contents.kindOf? id = some k := by
  obtain ⟨k', hkind, hk'⟩ := kindOf?_of_rowAt h
  rw [kindOf?_contents hs, hkind, hk k' hk']

theorem kindOf?_of_slot {slot : Slot} (h : s.slots.get? id = some slot) :
    s.kindOf? id = some slot.kind := by
  rw [kindOf?, slot?, h]
  rfl

theorem contents_of_nodeAt {n : Node} (hn : s.nodeAt x = some n) :
    ∃ k, s.contents x = some (n.content k) ∧ k.isNode := by
  obtain ⟨k, hkind, hk⟩ := kindOf?_of_rowAt hn
  refine ⟨k, ?_, hk⟩
  rw [contents_eq, hkind]
  cases k with
  | transform | mesh => simp [record, rowOf, View.map, hn, Component.content]
  | _ => cases hk

theorem contents_of_materialAt {m : Material} (hm : s.materialAt x = some m) :
    s.contents x = some (Component.material m).content := by
  obtain ⟨k, hkind, hk⟩ := kindOf?_of_rowAt hm
  obtain rfl : k = .material := of_decide_eq_true hk
  rw [contents_eq, hkind]
  simp [record, rowOf, View.map, hm]

/-- An edit of the rows of some kinds. -/
theorem contents_edit {F : ComponentId → Content → Content} (p : ComponentKind → Bool)
    (hslots : s'.slots = s.slots) (hsame : ∀ k, p k = false → s'.record k = s.record k)
    (hedit : ∀ k, p k = true → s'.record k = (s.record k).edit F)
    (hF : ∀ x c, s.contents x = some c → p c.kind = false → F x c = c) :
    s'.contents = s.contents.edit F := by
  funext x
  have hkind : s'.kindOf? x = s.kindOf? x := by rw [kindOf?, slot?, hslots]; rfl
  rw [contents_eq, hkind]
  cases hk : s.kindOf? x with
  | none => simp [View.edit, contents_eq, hk]
  | some k =>
    have hx : s.contents x = s.record k x := by rw [contents_eq, hk]; rfl
    change s'.record k x = _
    rw [View.edit, hx]
    cases hp : p k with
    | true => rw [hedit k hp, View.edit]
    | false =>
      rw [hsame k hp]
      cases hc : s.record k x with
      | none => rfl
      | some c =>
        have hF := hF x c (hx.trans hc) (by rwa [kind_of_record hc])
        rw [Option.map_some, hF]

/-- An edit of rows that does not show. -/
theorem contents_congr (hslots : s'.slots = s.slots) (h : ∀ k, s'.record k = s.record k) :
    s'.contents = s.contents := by
  have hedit := contents_edit (F := fun _ c => c) (fun _ => false) hslots (fun k _ => h k)
    (fun _ hk => by cases hk) fun _ _ _ _ => rfl
  rw [hedit]
  exact View.edit_id fun _ _ _ => rfl

/-- An edit of one row, which is in the table for `role`. -/
theorem contents_modify {F : Content → Content} (role : Role) (hid : s.kindOf? id = some k)
    (hk : role.accepts k) (hslots : s'.slots = s.slots)
    (hsame : ∀ k, role.accepts k = false → s'.record k = s.record k)
    (hedit : ∀ k, role.accepts k = true → s'.record k = (s.record k).modify id F) :
    s'.contents = s.contents.modify id F := by
  refine contents_edit role.accepts hslots hsame hedit fun x c hc hkind => if_neg ?_
  rintro rfl
  obtain rfl := Option.some.inj (hid.symm.trans (kindOf?_of_contents hc))
  rw [hk] at hkind
  cases hkind

section Rows

variable {F : Content → Content}

/-- An edit of nodes. -/
theorem contents_editNodes {f : ComponentId → Node → Node} {F : ComponentId → Content → Content}
    (he : NodeEdit s s') (hv : s'.nodeAt = s.nodeAt.edit f)
    (hf : ∀ k x n, s.nodeAt x = some n → (f x n).content k = F x (n.content k))
    (hF : ∀ x c, s.contents x = some c → c.kind.isNode = false → F x c = c) :
    s'.contents = s.contents.edit F := by
  refine contents_edit ComponentKind.isNode he.slots (fun k hk => ?_) (fun k hk => ?_) hF
  · rw [he.rest]
    cases k <;> first | rfl | cases hk
  · cases k with
    | transform =>
      simp only [record, rowOf, View.map_map, hv]
      exact View.map_edit (hf .transform)
    | mesh =>
      simp only [record, rowOf, View.map_map, hv]
      exact View.map_edit (hf .mesh)
    | _ => cases hk

/-- An edit of nodes that does not show. -/
theorem contents_sameNodes {f : ComponentId → Node → Node} (he : NodeEdit s s')
    (hv : s'.nodeAt = s.nodeAt.edit f) (hf : ∀ k x n, (f x n).content k = n.content k) :
    s'.contents = s.contents := by
  rw [contents_editNodes (F := fun _ c => c) he hv (fun k x n _ => hf k x n) fun _ _ _ _ => rfl]
  exact View.edit_id fun _ _ _ => rfl

/-- An edit of geometries that does not show. -/
theorem contents_sameGeometries {f : ComponentId → Geometry → Geometry} (he : GeometryEdit s s')
    (hw : s'.geometryAt = s.geometryAt.edit f) (hf : ∀ x g, (f x g).datum? = g.datum?) :
    s'.contents = s.contents := by
  refine contents_congr he.slots fun k => ?_
  cases k with
  | geometry =>
    simp only [record, rowOf, View.map_map, hw]
    exact View.map_edit_same fun x g => congrArg (Content.mk .geometry none .null) (hf x g)
  | _ =>
    rw [he.rest]
    rfl

theorem contents_modifyNode {f : Node → Node} {n : Node} (hs : Sound s) (hn : s.nodeAt id = some n)
    (hid : ∀ n, (f n).id = n.id) (hf : ∀ k n, (f n).content k = F (n.content k)) :
    (s.modifyNode id f).contents = s.contents.modify id F := by
  obtain ⟨k, hkind, hk⟩ := kindOf?_of_rowAt hn
  have hv := nodeAt_modifyNode hs f id
  refine contents_editNodes (.modifyNode s id hid) hv (fun k x n _ => ?_) fun x c hc hnode => ?_
  · split
    · exact hf k n
    · rfl
  · rw [if_neg]
    rintro rfl
    obtain rfl := Option.some.inj (hkind.symm.trans (kindOf?_of_contents hc))
    rw [Role.accepts, hnode] at hk
    cases hk

/-- An edit of a row in a table that holds all components of one kind. -/
theorem contents_modifyRow {α : Type} [Row α] {role : Role} {t : Table α} {f : α → α} {a : α}
    {q : α → Component} (h : Placed s.slots role t.ids) (ha : rowAt s.slots role t id = some a)
    (hrole : ∀ k', role.accepts k' → k' = k) (hslots : s'.slots = s.slots)
    (hothers : ∀ k' ≠ k, s'.rowOf k' = s.rowOf k')
    (hrow : s.rowOf k = View.map q (rowAt s.slots role t))
    (hrow' : s'.rowOf k = View.map q (rowAt s.slots role (s.modifyRow role t id f)))
    (hf : ∀ a, (q (f a)).content = F (q a).content) :
    s'.contents = s.contents.modify id F := by
  obtain ⟨kind, hkind, hk⟩ := kindOf?_of_rowAt ha
  refine contents_modify role hkind hk hslots (fun k' hk' => ?_) fun k' hk' => ?_
  · have hne : k' ≠ k := by
      rintro rfl
      rw [hrole kind hk, hk'] at hk
      cases hk
    rw [record, record, hothers k' hne]
  · obtain rfl := hrole k' hk'
    rw [record, record, hrow, hrow', rowAt_modifyRow h, View.map_map, View.map_map]
    exact View.map_modify hf

theorem contents_modifyGeometry {f : Geometry → Geometry} {g : Geometry} (hs : Sound s)
    (hg : s.geometryAt id = some g)
    (hf : ∀ g, (Component.geometry (f g)).content = F (Component.geometry g).content) :
    (s.modifyGeometry id f).contents = s.contents.modify id F := by
  refine contents_modifyRow hs.geometries hg (fun _ => of_decide_eq_true) rfl (fun k hk => ?_) rfl
    rfl hf
  cases k <;> first | rfl | exact absurd rfl hk

theorem contents_modifyMaterial {f : Material → Material} {m : Material} (hs : Sound s)
    (hm : s.materialAt id = some m)
    (hf : ∀ m, (Component.material (f m)).content = F (Component.material m).content) :
    (s.modifyMaterial id f).contents = s.contents.modify id F := by
  refine contents_modifyRow hs.materials hm (fun _ => of_decide_eq_true) rfl (fun k hk => ?_) rfl
    rfl hf
  cases k <;> first | rfl | exact absurd rfl hk

theorem contents_modifyShader {f : Shader → Shader} {a : Shader} (hs : Sound s)
    (ha : s.shaderAt id = some a)
    (hf : ∀ a, (Component.shader (f a)).content = F (Component.shader a).content) :
    (s.modifyShader id f).contents = s.contents.modify id F := by
  refine contents_modifyRow hs.shaders ha (fun _ => of_decide_eq_true) rfl (fun k hk => ?_) rfl
    rfl hf
  cases k <;> first | rfl | exact absurd rfl hk

theorem contents_modifyTexture {f : Texture → Texture} {t : Texture} (hs : Sound s)
    (ht : s.textureAt id = some t)
    (hf : ∀ t, (Component.texture (f t)).content = F (Component.texture t).content) :
    (s.modifyTexture id f).contents = s.contents.modify id F := by
  refine contents_modifyRow hs.textures ht (fun _ => of_decide_eq_true) rfl (fun k hk => ?_) rfl
    rfl hf
  cases k <;> first | rfl | exact absurd rfl hk

end Rows

section Slots

/-- The record that a component starts with. -/
theorem record_add {kind : ComponentKind} {name : String} (hs : Sound s)
    (hf : s.slots.get? id = none) :
    (s.add kind id name).record kind id = some (Content.new kind name) := by
  rw [← Component.content_new kind id name]
  cases kind <;>
    simp [record, rowOf, View.map, View.insert, Component.new, newNode, nodeAt_add hs hf,
      geometryAt_add hs hf, materialAt_add hs hf, shaderAt_add hs hf, textureAt_add hs hf]

theorem record_add_of_ne {kind : ComponentKind} {name : String} (hs : Sound s)
    (hf : s.slots.get? id = none) (hx : x ≠ id) :
    (s.add kind id name).record k x = s.record k x := by
  cases k with
  | transform | mesh =>
    simp only [record, rowOf, View.map, nodeAt_add hs hf]
    cases kind <;> simp [newNode, View.insert, hx]
  | geometry =>
    simp only [record, rowOf, View.map, geometryAt_add hs hf]
    cases kind <;> simp [View.insert, hx]
  | material =>
    simp only [record, rowOf, View.map, materialAt_add hs hf]
    cases kind <;> simp [View.insert, hx]
  | shader =>
    simp only [record, rowOf, View.map, shaderAt_add hs hf]
    cases kind <;> simp [View.insert, hx]
  | texture =>
    simp only [record, rowOf, View.map, textureAt_add hs hf]
    cases kind <;> simp [View.insert, hx]

theorem contents_add {kind : ComponentKind} {name : String} (hs : Sound s)
    (hf : s.slots.get? id = none) :
    (s.add kind id name).contents = s.contents.insert id (.new kind name) := by
  obtain ⟨i, hi⟩ := slots_add s kind id name
  funext x
  rw [contents_eq, kindOf?, slot?, hi, IdMap.get?_insert]
  by_cases hx : x = id
  · rw [if_pos hx, hx]
    exact (record_add hs hf).trans (if_pos rfl).symm
  · rw [if_neg hx, View.insert, if_neg hx, contents_eq]
    change ((s.kindOf? x).bind fun k => (s.add kind id name).record k x) = _
    simp only [record_add_of_ne hs hf hx]

theorem Removal.contents (h : Removal s s' id) : s'.contents = s.contents.erase id := by
  have hrecord : ∀ k, s'.record k = (s.record k).erase id := by
    intro k
    cases k with
    | transform | mesh => simp only [record, rowOf, h.nodes.2, View.map_erase]
    | geometry => simp only [record, rowOf, h.geometries.2, View.map_erase]
    | material => simp only [record, rowOf, h.materials.2, View.map_erase]
    | shader => simp only [record, rowOf, h.shaders.2, View.map_erase]
    | texture => simp only [record, rowOf, h.textures.2, View.map_erase]
  funext x
  have hkind : s'.kindOf? x = if x = id then none else s.kindOf? x := h.kinds x
  rw [contents_eq, hkind, View.erase]
  by_cases hx : x = id
  · rw [if_pos hx, if_pos hx]
    rfl
  · rw [if_neg hx, if_neg hx, contents_eq]
    simp only [hrecord, View.erase, if_neg hx]

end Slots

section Quiet

/-- The scenes have the same contents. -/
def Quiet (s s' : Scene) : Prop := Sound s → Sound s' ∧ s'.contents = s.contents

namespace Quiet

theorem refl (s : Scene) : Quiet s s := fun hs => ⟨hs, rfl⟩

theorem trans {s'' : Scene} (h : Quiet s s') (h' : Quiet s' s'') : Quiet s s'' := by
  intro hs
  obtain ⟨hs', hc⟩ := h hs
  obtain ⟨hs'', hc'⟩ := h' hs'
  exact ⟨hs'', hc'.trans hc⟩

theorem foldl {β : Type} {f : Scene → β → Scene} (h : ∀ s b, Quiet s (f s b)) (l : List β)
    (s : Scene) : Quiet s (l.foldl f s) := by
  induction l generalizing s with
  | nil => exact .refl s
  | cons b l ih => exact (h s b).trans (ih _)

theorem modifyNode {f : Node → Node} (h : Quiet s s') (hf : ∀ n, (f n).id = n.id)
    (hq : ∀ k n, (f n).content k = n.content k) : Quiet s (s'.modifyNode id f) := by
  refine h.trans fun hs => ?_
  have he : NodeEdit s' (s'.modifyNode id f) := .modifyNode s' id hf
  exact ⟨he.sound hs, contents_sameNodes he (nodeAt_modifyNode hs f id) fun k =>
    View.keeps_if (q := Node.content k) (hq k)⟩

theorem modifyGeometry {f : Geometry → Geometry} (h : Quiet s s') (hf : ∀ g, (f g).id = g.id)
    (hq : ∀ g, (f g).datum? = g.datum?) : Quiet s (s'.modifyGeometry id f) := by
  refine h.trans fun hs => ?_
  have he : GeometryEdit s' (s'.modifyGeometry id f) := .modifyGeometry s' id hf
  exact ⟨he.sound hs, contents_sameGeometries he (geometryAt_modifyGeometry hs f id)
    (View.keeps_if hq)⟩

end Quiet

end Quiet

end Scene

end SceneGraph
