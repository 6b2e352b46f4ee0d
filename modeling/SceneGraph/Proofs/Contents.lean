import SceneGraph.Proofs.Lookup

/-!
# Contents of components

What a component is to those who use it: its kind, what it refers to, and the values of its fields.
Its place in the hierarchy, what is cached, and the lists that are kept for others are no part of
that. A scene is then a finite map from identifiers to contents, and here is what may happen to such
a map. Each revision comes with the changes that a record of the fields alone would show, and none
leaves a reference to what is gone.
-/

namespace SceneGraph

/-- What is set and read by itself. -/
inductive Field where
  | name | position | rotation | scale
  | stream (location : ℕ)
  | indices | vertexOverride | indexOverride
  | uniform (slot : ℕ)
  | vertexSource | fragmentSource
  | size | pixels
deriving DecidableEq

/-- A field with its value. -/
inductive Datum where
  | name (text : String)
  | position (v : Vec3)
  | rotation (q : Quat)
  | scale (v : Vec3)
  | stream (location : ℕ) (components : UInt32) (scalars : List Scalar)
  | indices (words : List UInt32)
  | vertexOverride (count : Int32)
  | indexOverride (count : Int32)
  | uniform (slot : ℕ) (value : Vec4)
  | vertexSource (text : String)
  | fragmentSource (text : String)
  | size (width height : UInt32)
  | pixels (bytes : Bytes)
deriving DecidableEq

namespace Datum

def field : Datum → Field
  | name _ => .name
  | position _ => .position
  | rotation _ => .rotation
  | scale _ => .scale
  | stream location .. => .stream location
  | indices _ => .indices
  | vertexOverride _ => .vertexOverride
  | indexOverride _ => .indexOverride
  | uniform slot _ => .uniform slot
  | vertexSource _ => .vertexSource
  | fragmentSource _ => .fragmentSource
  | size .. => .size
  | pixels _ => .pixels

/-- What the field `φ` holds after the assignments `ds`, one after the other. -/
def assign (ds : List Datum) (φ : Field) (last : Option Datum) : Option Datum :=
  ds.foldl (fun last d => if d.field = φ then some d else last) last

end Datum

section Fields

def Node.datum? (n : Node) : Field → Option Datum
  | .name => some (.name n.name)
  | .position => some (.position n.position)
  | .rotation => some (.rotation n.rotation)
  | .scale => some (.scale n.scale)
  | _ => none

def Geometry.datum? (g : Geometry) : Field → Option Datum
  | .name => some (.name g.name)
  | .stream location =>
    g.streams[location]?.map fun v => .stream location v.components v.scalars
  | .indices => some (.indices g.indexList)
  | .vertexOverride => some (.vertexOverride g.vertexOverride)
  | .indexOverride => some (.indexOverride g.indexOverride)
  | _ => none

def Material.datum? (m : Material) : Field → Option Datum
  | .name => some (.name m.name)
  | .uniform slot => m.uniforms[slot]?.map (.uniform slot)
  | _ => none

def Shader.datum? (s : Shader) : Field → Option Datum
  | .name => some (.name s.name)
  | .vertexSource => some (.vertexSource s.vertexSource)
  | .fragmentSource => some (.fragmentSource s.fragmentSource)
  | _ => none

def Texture.datum? (t : Texture) : Field → Option Datum
  | .name => some (.name t.name)
  | .size => some (.size t.width t.height)
  | .pixels => some (.pixels t.pixels)
  | _ => none

/-- The value of a field; none if components of that kind have no such field. -/
def Component.datum? : Component → Field → Option Datum
  | transform n | mesh n => n.datum?
  | geometry g => g.datum?
  | material m => m.datum?
  | shader s => s.datum?
  | texture t => t.datum?

/-- What the fields of a component hold when it was just created. -/
def Field.initial (kind : ComponentKind) (name : String) : Field → Option Datum
  | .name => some (.name (Name.clamp name))
  | .position => if kind.isNode then some (.position .zero) else none
  | .rotation => if kind.isNode then some (.rotation .identity) else none
  | .scale => if kind.isNode then some (.scale .one) else none
  | .stream location =>
    if kind = .geometry ∧ location < streamLimit then some (.stream location 0 []) else none
  | .indices => if kind = .geometry then some (.indices []) else none
  | .vertexOverride => if kind = .geometry then some (.vertexOverride (-1)) else none
  | .indexOverride => if kind = .geometry then some (.indexOverride (-1)) else none
  | .uniform slot =>
    if kind = .material ∧ slot < uniformLimit then some (.uniform slot .zero) else none
  | .vertexSource => if kind = .shader then some (.vertexSource "") else none
  | .fragmentSource => if kind = .shader then some (.fragmentSource "") else none
  | .size => if kind = .texture then some (.size 0 0) else none
  | .pixels => if kind = .texture then some (.pixels []) else none

end Fields

/-- The kind and the fields of a component. -/
structure Entry where
  kind : ComponentKind
  datum? : Field → Option Datum

namespace Entry

def new (kind : ComponentKind) (name : String) : Entry := ⟨kind, Field.initial kind name⟩

def assign (ds : List Datum) (e : Entry) : Entry :=
  { e with datum? := fun φ => Datum.assign ds φ (e.datum? φ) }

end Entry

def Component.entry (c : Component) : Entry := ⟨c.kind, c.datum?⟩

/-- What happened to a component. -/
inductive Change where
  | created (kind : ComponentKind) (id : ComponentId) (name : String)
  | assigned (id : ComponentId) (d : Datum)
  | destroyed (id : ComponentId)

/-- The component `id` after a change. -/
def Change.tell (id : ComponentId) (last : Option Entry) : Change → Option Entry
  | created kind x name => if x = id then some (.new kind name) else last
  | assigned x d => if x = id then last.map (Entry.assign [d]) else last
  | destroyed x => if x = id then none else last

/-- The component `id` as a log tells it. -/
def told (log : List Change) (id : ComponentId) : Option Entry := log.foldl (Change.tell id) none

theorem Change.foldl_tell_assigned (ds : List Datum) (x id : ComponentId) (last : Option Entry) :
    (ds.map (Change.assigned x)).foldl (Change.tell id) last =
      if x = id then last.map (Entry.assign ds) else last := by
  by_cases hx : x = id
  · rw [if_pos hx]
    induction ds generalizing last with
    | nil => cases last <;> rfl
    | cons d ds ih =>
      rw [List.map_cons, List.foldl_cons, ih, tell, if_pos hx, Option.map_map]
      rfl
  · rw [if_neg hx, List.foldl_map]
    induction ds with
    | nil => rfl
    | cons d ds ih => simpa only [List.foldl_cons, Change.tell, if_neg hx] using ih

/-- What a mesh is bound to when `id` is gone. -/
def MeshBinding.forget (id : ComponentId) (b : MeshBinding) : MeshBinding where
  geometry := if b.geometry = id then .null else b.geometry
  material := if b.material = id then .null else b.material

/-- The kind of a component, what it refers to, and its fields. -/
structure Content where
  kind : ComponentKind
  binding : Option MeshBinding := none
  shader : ComponentId := .null
  datum? : Field → Option Datum

namespace Content

def entry (c : Content) : Entry := ⟨c.kind, c.datum?⟩

def new (kind : ComponentKind) (name : String) : Content where
  kind
  binding := if kind = .mesh then some {} else none
  datum? := Field.initial kind name

def assign (ds : List Datum) (c : Content) : Content :=
  { c with datum? := fun φ => Datum.assign ds φ (c.datum? φ) }

/-- A reference to a component of some kind; it may be null. -/
inductive Refers (c : Content) : ComponentKind → ComponentId → Prop
  | geometry {b : MeshBinding} (h : c.binding = some b) : Refers c .geometry b.geometry
  | material {b : MeshBinding} (h : c.binding = some b) : Refers c .material b.material
  | shader : Refers c .shader c.shader

/-- What referred to `id` refers to nothing. -/
def forget (id : ComponentId) (c : Content) : Content :=
  { c with
    binding := c.binding.map (MeshBinding.forget id)
    shader := if c.shader = id then .null else c.shader }

theorem cleared_eq {a id : ComponentId} (h : (if a = id then .null else a) ≠ ComponentId.null) :
    (if a = id then .null else a) = a ∧ a ≠ id := by
  by_cases ha : a = id
  · exact absurd (if_pos ha) h
  · exact ⟨if_neg ha, ha⟩

theorem Refers.of_forget {c : Content} {id x : ComponentId} {k : ComponentKind}
    (h : (c.forget id).Refers k x) (hx : x ≠ .null) : c.Refers k x ∧ x ≠ id := by
  cases h with
  | geometry hb =>
    obtain ⟨a, ha, rfl⟩ := Option.map_eq_some_iff.mp hb
    obtain ⟨he, hid⟩ := cleared_eq hx
    simp only [MeshBinding.forget, he]
    exact ⟨.geometry ha, hid⟩
  | material hb =>
    obtain ⟨a, ha, rfl⟩ := Option.map_eq_some_iff.mp hb
    obtain ⟨he, hid⟩ := cleared_eq hx
    simp only [MeshBinding.forget, he]
    exact ⟨.material ha, hid⟩
  | shader =>
    obtain ⟨he, hid⟩ := cleared_eq hx
    simp only [forget, he]
    exact ⟨.shader, hid⟩

/-- What is new refers to nothing. -/
theorem Refers.new_eq_null {kind k : ComponentKind} {name : String} {x : ComponentId}
    (h : (new kind name).Refers k x) : x = .null := by
  have hbinding : ∀ b, (new kind name).binding = some b → b = {} := by
    intro b hb
    by_cases hk : kind = .mesh
    · simpa [new, hk, eq_comm] using hb
    · simp [new, hk] at hb
  cases h with
  | geometry hb => rw [hbinding _ hb]
  | material hb => rw [hbinding _ hb]
  | shader => rfl

/-- What is not referred to can be forgotten. -/
theorem forget_eq {c : Content} {id : ComponentId} (h : ∀ k, ¬ c.Refers k id) :
    c.forget id = c := by
  have hshader : c.shader ≠ id := fun he => h .shader (he ▸ .shader)
  have hbinding : c.binding.map (MeshBinding.forget id) = c.binding := by
    cases hb : c.binding with
    | none => rfl
    | some b =>
      have hgeometry : b.geometry ≠ id := fun he => h .geometry (he ▸ .geometry hb)
      have hmaterial : b.material ≠ id := fun he => h .material (he ▸ .material hb)
      rw [Option.map_some, MeshBinding.forget, if_neg hgeometry, if_neg hmaterial]
  rw [forget, hbinding, if_neg hshader]

end Content

/-- The content of a node, which its record does not tell the kind of. -/
def Node.content (kind : ComponentKind) (n : Node) : Content where
  kind
  binding := n.mesh
  datum? := n.datum?

theorem Node.content_forget (kind : ComponentKind) (n : Node) (id : ComponentId) :
    (n.content kind).forget id =
      { n with mesh := n.mesh.map (MeshBinding.forget id) }.content kind := by
  have hshader : (if ComponentId.null = id then ComponentId.null else .null) = .null := ite_self _
  exact congrArg (Content.mk kind _ · _) hshader

def Component.content : Component → Content
  | transform n => n.content .transform
  | mesh n => n.content .mesh
  | geometry g => { kind := .geometry, datum? := g.datum? }
  | material m => { kind := .material, shader := m.shader, datum? := m.datum? }
  | shader a => { kind := .shader, datum? := a.datum? }
  | texture t => { kind := .texture, datum? := t.datum? }

section Assignments

variable {ds : List Datum}

theorem content_geometry {g g' : Geometry}
    (h : ∀ φ, g'.datum? φ = Datum.assign ds φ (g.datum? φ)) :
    (Component.geometry g').content = (Component.geometry g).content.assign ds :=
  congrArg (Content.mk .geometry none .null) (funext h)

theorem content_material {m m' : Material} (hshader : m'.shader = m.shader)
    (h : ∀ φ, m'.datum? φ = Datum.assign ds φ (m.datum? φ)) :
    (Component.material m').content = (Component.material m).content.assign ds :=
  congrArg₂ (Content.mk .material none) hshader (funext h)

theorem content_shader {a a' : Shader} (h : ∀ φ, a'.datum? φ = Datum.assign ds φ (a.datum? φ)) :
    (Component.shader a').content = (Component.shader a).content.assign ds :=
  congrArg (Content.mk .shader none .null) (funext h)

theorem content_texture {t t' : Texture} (h : ∀ φ, t'.datum? φ = Datum.assign ds φ (t.datum? φ)) :
    (Component.texture t').content = (Component.texture t).content.assign ds :=
  congrArg (Content.mk .texture none .null) (funext h)

end Assignments

/-- A component as it is added. -/
def Component.new (kind : ComponentKind) (id : ComponentId) (name : String) : Component :=
  match kind with
  | .transform => .transform (.new id name)
  | .mesh => .mesh { Node.new id name with mesh := some {} }
  | .geometry => .geometry (.new id name)
  | .material => .material (.new id name)
  | .shader => .shader (.new id name)
  | .texture => .texture (.new id name 0 0)

theorem Component.content_new (kind : ComponentKind) (id : ComponentId) (name : String) :
    (Component.new kind id name).content = Content.new kind name := by
  have hdatum : (Component.new kind id name).content.datum? = Field.initial kind name := by
    funext φ
    cases kind with
    | geometry =>
      cases φ with
      | stream location =>
        have hstreams : (Geometry.new id name).streams = Vector.replicate streamLimit {} := rfl
        by_cases hl : location < streamLimit
        · simp [new, content, Geometry.datum?, Field.initial, hstreams, hl]
          rfl
        · simp [new, content, Geometry.datum?, Field.initial, hstreams, hl]
      | _ => rfl
    | material =>
      cases φ with
      | uniform slot =>
        have huniforms :
            (Material.new id name).uniforms = Vector.replicate uniformLimit .zero := rfl
        by_cases hs : slot < uniformLimit <;>
          simp [new, content, Material.datum?, Field.initial, huniforms, hs]
      | _ => rfl
    | _ => cases φ <;> rfl
  cases kind <;> exact congrArg (Content.mk _ _ _) hdatum

namespace View

def kindOf? (v : View Content) (id : ComponentId) : Option ComponentKind := (v id).map Content.kind

def entryOf (v : View Content) (id : ComponentId) : Option Entry := (v id).map Content.entry

/-- Just the meshes have a mesh binding, and what is referred to exists and is of the right kind. -/
structure Closed (v : View Content) : Prop where
  mesh : ∀ {x c}, v x = some c → (c.binding.isSome ↔ c.kind = .mesh)
  live : ∀ {x c k y}, v x = some c → c.Refers k y → y ≠ .null → v.kindOf? y = some k

/-- What may happen to the contents of a scene. -/
inductive Revision (v : View Content) : List Change → View Content → Prop
  | keep : Revision v [] v
  | create {id : ComponentId} (kind : ComponentKind) (name : String) (hfree : v id = none) :
      Revision v [.created kind id name] (v.insert id (.new kind name))
  | assign {id : ComponentId} {c : Content} (ds : List Datum) (hc : v id = some c) :
      Revision v (ds.map (Change.assigned id)) (v.modify id (Content.assign ds))
  | rebind {id : ComponentId} {b : MeshBinding} (hmesh : v.kindOf? id = some .mesh)
      (hgeometry : b.geometry ≠ .null → v.kindOf? b.geometry = some .geometry)
      (hmaterial : b.material ≠ .null → v.kindOf? b.material = some .material) :
      Revision v [] (v.modify id fun c => { c with binding := some b })
  | reshade {id shader : ComponentId}
      (hshader : shader ≠ .null → v.kindOf? shader = some .shader) :
      Revision v [] (v.modify id fun c => { c with shader })
  | destroy (id : ComponentId) :
      Revision v [.destroyed id] ((v.erase id).edit fun _ => Content.forget id)

variable {v v' : View Content} {id x : ComponentId} {cs : List Change}

theorem kindOf?_edit {f : ComponentId → Content → Content} (hf : ∀ x c, (f x c).kind = c.kind)
    (x : ComponentId) : (v.edit f).kindOf? x = v.kindOf? x := by
  cases hx : v x <;> simp [kindOf?, edit, hx, hf]

theorem entryOf_edit {f : ComponentId → Content → Content} (hf : ∀ x c, (f x c).entry = c.entry)
    (x : ComponentId) : (v.edit f).entryOf x = v.entryOf x := by
  cases hx : v x <;> simp [entryOf, edit, hx, hf]

section Forgetting

variable {c : Content} {kind : ComponentKind}

/-- What does not refer to `id` can forget it. -/
theorem Closed.forget_eq (h : Closed v) (hx : v x = some c) (hid : id ≠ .null)
    (hk : ∀ k, c.Refers k id → v.kindOf? id ≠ some k) : c.forget id = c :=
  Content.forget_eq fun k hr => hk k hr (h.live hx hr hid)

/-- Nodes and textures are not referred to. -/
theorem Closed.forget_unreferred (h : Closed v) (hx : v x = some c) (hid : id ≠ .null)
    (hk : v.kindOf? id = some kind) (hkind : kind ∉ [.geometry, .material, .shader]) :
    c.forget id = c := by
  refine h.forget_eq hx hid fun k hr he => hkind ?_
  rw [Option.some.inj (hk.symm.trans he)]
  cases hr <;> decide

/-- Only nodes refer to geometries and materials. -/
theorem Closed.forget_of_not_node (h : Closed v) (hx : v x = some c) (hid : id ≠ .null)
    (hk : v.kindOf? id = some kind) (hkind : kind ≠ .shader) (hc : c.kind.isNode = false) :
    c.forget id = c := by
  have hbinding : ∀ b, c.binding ≠ some b := by
    intro b hb
    have hmesh : c.kind = .mesh := (h.mesh hx).mp (by rw [hb]; rfl)
    rw [hmesh] at hc
    cases hc
  refine h.forget_eq hx hid fun k hr he => ?_
  cases hr with
  | geometry hb => exact hbinding _ hb
  | material hb => exact hbinding _ hb
  | shader => exact hkind (Option.some.inj (hk.symm.trans he))

end Forgetting

/-- An edit of one component that keeps its kind and whether it is bound. -/
theorem Closed.modify {f : Content → Content} (h : Closed v) (hk : ∀ c, (f c).kind = c.kind)
    (hb : ∀ c, v id = some c → ((f c).binding.isSome ↔ c.binding.isSome))
    (hf : ∀ c k y, v id = some c → (f c).Refers k y → y ≠ .null → v.kindOf? y = some k) :
    Closed (v.modify id f) where
  mesh := by
    intro x c hc
    obtain ⟨a, ha, rfl⟩ := edit_eq_some.mp hc
    by_cases hx : x = id
    · rw [if_pos hx, hk, hb a (hx ▸ ha)]
      exact h.mesh ha
    · rw [if_neg hx]
      exact h.mesh ha
  live := by
    intro x c k y hc hr hy
    rw [View.modify, kindOf?_edit (keeps_if hk)]
    obtain ⟨a, ha, rfl⟩ := edit_eq_some.mp hc
    by_cases hx : x = id
    · rw [if_pos hx] at hr
      exact hf a k y (hx ▸ ha) hr hy
    · rw [if_neg hx] at hr
      exact h.live ha hr hy

theorem Closed.create (h : Closed v) (kind : ComponentKind) (name : String) (hfree : v id = none) :
    Closed (v.insert id (.new kind name)) where
  mesh := by
    intro x c hc
    by_cases hx : x = id
    · obtain rfl : Content.new kind name = c := by simpa [View.insert, hx] using hc
      cases kind <;> simp [Content.new]
    · exact h.mesh (show v x = some c by simpa [View.insert, hx] using hc)
  live := by
    intro x c k y hc hr hy
    by_cases hx : x = id
    · obtain rfl : Content.new kind name = c := by simpa [View.insert, hx] using hc
      exact absurd (hr.new_eq_null) hy
    · have hlive := h.live (show v x = some c by simpa [View.insert, hx] using hc) hr hy
      -- the identifier was free, so that nothing can have referred to it
      have hyid : y ≠ id := by
        rintro rfl
        simp [kindOf?, hfree] at hlive
      simpa [kindOf?, View.insert, hyid] using hlive

theorem Closed.destroy (h : Closed v) (id : ComponentId) :
    Closed ((v.erase id).edit fun _ => Content.forget id) where
  mesh := by
    intro x c hc
    obtain ⟨a, ha, rfl⟩ := edit_eq_some.mp hc
    simpa [Content.forget] using h.mesh (erase_eq_some.mp ha).2
  live := by
    intro x c k y hc hr hy
    obtain ⟨a, ha, rfl⟩ := edit_eq_some.mp hc
    obtain ⟨hr, hyid⟩ := hr.of_forget hy
    have hlive := h.live (erase_eq_some.mp ha).2 hr hy
    rw [kindOf?_edit (f := fun _ => Content.forget id) fun _ _ => rfl]
    simpa [kindOf?, View.erase, hyid] using hlive

/-- No revision leaves a reference to what is gone. -/
theorem Revision.closed (h : Revision v cs v') (hv : Closed v) : Closed v' := by
  cases h with
  | keep => exact hv
  | create kind name hfree => exact hv.create kind name hfree
  | destroy id => exact hv.destroy id
  | assign ds hc =>
    refine hv.modify (fun _ => rfl) (fun _ _ => Iff.rfl) fun c k y hc hr hy => ?_
    refine hv.live hc ?_ hy
    cases hr with
    | geometry hb => exact .geometry hb
    | material hb => exact .material hb
    | shader => exact .shader
  | rebind hmesh hgeometry hmaterial =>
    refine hv.modify (fun _ => rfl) (fun c hc => ?_) fun c k y hc hr hy => ?_
    · have hkind : c.kind = .mesh := by simpa [kindOf?, hc] using hmesh
      exact iff_of_true rfl ((hv.mesh hc).mpr hkind)
    · cases hr with
      | geometry hb =>
        obtain rfl := Option.some.inj hb
        exact hgeometry hy
      | material hb =>
        obtain rfl := Option.some.inj hb
        exact hmaterial hy
      | shader => exact hv.live hc .shader hy
  | reshade hshader =>
    refine hv.modify (fun _ => rfl) (fun _ _ => Iff.rfl) fun c k y hc hr hy => ?_
    cases hr with
    | geometry hb => exact hv.live hc (.geometry hb) hy
    | material hb => exact hv.live hc (.material hb) hy
    | shader => exact hshader hy

/-- Kinds and fields are as the changes tell them. -/
theorem Revision.entryOf_eq (h : Revision v cs v') (x : ComponentId) :
    v'.entryOf x = cs.foldl (Change.tell x) (v.entryOf x) := by
  cases h with
  | keep => rfl
  | @create id kind name hfree =>
    by_cases hx : id = x
    · simp [entryOf, View.insert, Change.tell, hx, Content.new, Content.entry, Entry.new]
    · simp [entryOf, View.insert, Change.tell, hx, Ne.symm hx]
  | @assign id c ds hc =>
    rw [Change.foldl_tell_assigned]
    by_cases hx : id = x
    · subst hx
      rw [entryOf, modify_of_some hc, entryOf, hc, if_pos rfl]
      rfl
    · rw [entryOf, modify_of_ne (Ne.symm hx), if_neg hx]
      rfl
  | rebind => exact entryOf_edit (fun _ _ => by split <;> rfl) x
  | reshade => exact entryOf_edit (fun _ _ => by split <;> rfl) x
  | destroy id =>
    rw [entryOf_edit (f := fun _ => Content.forget id) fun _ _ => rfl]
    by_cases hx : id = x
    · simp [entryOf, View.erase, Change.tell, hx]
    · simp [entryOf, View.erase, Change.tell, hx, Ne.symm hx]

end View

end SceneGraph
