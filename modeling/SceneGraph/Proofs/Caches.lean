import SceneGraph.Proofs.Rebuilds
import SceneGraph.Scene.Destroy

/-!
# Scenes that differ in their caches

Matrices, staleness and batches are cached. Two scenes are alike if they differ in their caches at
most. Questions about anything else have the same answers on both, and edits of anything else keep
them alike. Staleness is raised and rebuilds are made in the caches alone, so they leave a scene
that is like the one before.
-/

namespace SceneGraph

/-- The geometry without what it caches. -/
def Geometry.uncached (g : Geometry) : Geometry :=
  { g with batches := [], instancesStale := false, uploadPending := false }

/-- Which meshes a geometry loses does not depend on its caches. -/
theorem Geometry.uncached_unbind (mesh : ComponentId) (g : Geometry) :
    (g.unbind mesh).uncached = (g.uncached.unbind mesh).uncached := by
  unfold Geometry.unbind
  have hsame : mesh ∈ g.uncached.bindings ↔ mesh ∈ g.bindings := Iff.rfl
  by_cases hmesh : mesh ∈ g.bindings
  · rw [if_pos hmesh, if_pos (hsame.mpr hmesh)]
    rfl
  · rw [if_neg hmesh, if_neg (hsame.not.mpr hmesh)]
    rfl

namespace Table

variable {α β : Type} {q : α → β} {f : α → α} {t t' t'' : Table α} {i : ℕ}

/-- The tables have the same rows as seen through `q`. -/
def Same (q : α → β) (t t' : Table α) : Prop := t.rows.map q = t'.rows.map q

namespace Same

theorem of_eq (h : t = t') : Same q t t' := by rw [Same, h]

theorem length_eq (h : Same q t t') : t.rows.length = t'.rows.length := by
  simpa using congrArg List.length h

theorem get?_eq (h : Same q t t') (i : ℕ) : (t.get? i).map q = (t'.get? i).map q := by
  rw [get?, get?, ← List.getElem?_map, ← List.getElem?_map, h]

theorem of_get? (h : ∀ i, (t.get? i).map q = (t'.get? i).map q) : Same q t t' := by
  refine List.ext_getElem? fun i => ?_
  rw [List.getElem?_map, List.getElem?_map]
  exact h i

/-- An edit of one row that only looks at what `q` shows. -/
theorem modify (h : Same q t t') (hf : ∀ a b, q a = q b → q (f a) = q (f b)) (i : ℕ) :
    Same q (t.modify i f) (t'.modify i f) := by
  refine of_get? fun j => ?_
  have hj := h.get?_eq j
  rw [get?_modify, get?_modify]
  split
  · cases ht : t.get? j <;> cases ht' : t'.get? j <;> simp_all
    exact hf _ _ hj
  · exact hj

/-- An edit of one row that does not show through `q`. -/
theorem modify_right (h : Same q t t') (hf : ∀ a, q (f a) = q a) (i : ℕ) :
    Same q t (t'.modify i f) := by
  refine of_get? fun j => (h.get?_eq j).trans ?_
  rw [get?_modify]
  split
  · rw [Option.map_map]
    exact congrArg (Option.map · _) (funext fun a => (hf a).symm)
  · rfl

theorem map (h : Same q t t') (hf : ∀ a b, q a = q b → q (f a) = q (f b)) :
    Same q (t.map f) (t'.map f) := by
  refine of_get? fun j => ?_
  have hj := h.get?_eq j
  rw [get?_map, get?_map]
  cases ht : t.get? j <;> cases ht' : t'.get? j <;> simp_all
  exact hf _ _ hj

theorem push (h : Same q t t') (a : α) :
    (t.push a).1 = (t'.push a).1 ∧ Same q (t.push a).2 (t'.push a).2 := by
  refine ⟨h.length_eq, ?_⟩
  have hrows : t.rows.map q = t'.rows.map q := h
  simp [Same, Table.push, hrows]

theorem ids_eq [Row α] (h : Same q t t') (hid : ∀ a b, q a = q b → Row.id a = Row.id b) :
    t.ids = t'.ids := by
  refine List.ext_getElem? fun i => ?_
  have hi := h.get?_eq i
  simp only [Table.ids, List.getElem?_map]
  rw [get?, get?] at hi
  cases ht : t.rows[i]? <;> cases ht' : t'.rows[i]? <;> simp_all
  exact hid _ _ hi

/-- The same rows move when the same row is removed. -/
theorem swapRemove [Row α] (h : Same q t t') (hid : ∀ a b, q a = q b → Row.id a = Row.id b)
    (i : ℕ) : (Scene.swapRemove t i).1 = (Scene.swapRemove t' i).1 ∧
      Same q (Scene.swapRemove t i).2 (Scene.swapRemove t' i).2 := by
  by_cases hi : i < t.rows.length
  · rw [Scene.swapRemove_eq hi, Scene.swapRemove_eq (h.length_eq ▸ hi), h.ids_eq hid]
    refine ⟨rfl, ?_⟩
    have hrows : t.rows.map q = t'.rows.map q := h
    rw [Same, map_swapEraseIdx, map_swapEraseIdx, hrows]
  · have hnone : ∀ {t : Table α}, ¬ i < t.rows.length → Scene.swapRemove t i = (none, t) := by
      intro t ht
      simp [Scene.swapRemove, swapRemove?, get?, Nat.le_of_not_lt ht]
    rw [hnone hi, hnone (h.length_eq ▸ hi)]
    exact ⟨rfl, h⟩

end Same

end Table

/-- The error is not about a record that holds no command. -/
def SceneError.IsRefusal : SceneError → Prop
  | malformed _ => False
  | _ => True

/-- The same answer up to `R`; an error is a refusal. -/
inductive Answers {α : Type} (R : α → α → Prop) :
    Except SceneError α → Except SceneError α → Prop
  | ok {a b : α} (h : R a b) : Answers R (.ok a) (.ok b)
  | error {e : SceneError} (h : e.IsRefusal) : Answers R (.error e) (.error e)

theorem Answers.cases {α : Type} {R : α → α → Prop} {x y : Except SceneError α}
    (h : Answers R x y) : (∃ e, x = .error e ∧ y = .error e ∧ e.IsRefusal) ∨
      ∃ a b, x = .ok a ∧ y = .ok b ∧ R a b := by
  cases h with
  | ok h => exact .inr ⟨_, _, rfl, rfl, h⟩
  | error h => exact .inl ⟨_, rfl, rfl, h⟩

namespace Scene

variable {α β : Type} {s s' s'' : Scene}

/-- The scenes are the same but for their caches. -/
structure Alike (s s' : Scene) : Prop where
  ids : s.ids = s'.ids
  slots : s.slots = s'.slots
  nodes : Table.Same Node.uncached s.nodes s'.nodes
  geometries : Table.Same Geometry.uncached s.geometries s'.geometries
  materials : s.materials = s'.materials
  shaders : s.shaders = s'.shaders
  textures : s.textures = s'.textures

namespace Alike

theorem refl (s : Scene) : Alike s s := ⟨rfl, rfl, rfl, rfl, rfl, rfl, rfl⟩

theorem symm (h : Alike s s') : Alike s' s :=
  ⟨h.ids.symm, h.slots.symm, Eq.symm h.nodes, Eq.symm h.geometries, h.materials.symm,
    h.shaders.symm, h.textures.symm⟩

theorem trans (h : Alike s s') (h' : Alike s' s'') : Alike s s'' :=
  ⟨h.ids.trans h'.ids, h.slots.trans h'.slots, Eq.trans h.nodes h'.nodes,
    Eq.trans h.geometries h'.geometries, h.materials.trans h'.materials,
    h.shaders.trans h'.shaders, h.textures.trans h'.textures⟩

section Questions

variable (h : Alike s s')
include h

theorem contains_eq (id : ComponentId) : s.contains id = s'.contains id := by
  rw [contains, contains, h.slots]

theorem indexOf_eq (role : Role) (id : ComponentId) : s.indexOf role id = s'.indexOf role id := by
  simp only [indexOf, slot?, h.slots]

theorem walkLimit_eq : s.walkLimit = s'.walkLimit :=
  congrArg (· + 1) h.nodes.length_eq

theorem indexOf (role : Role) (id : ComponentId) :
    Answers Eq (s.indexOf role id) (s'.indexOf role id) := by
  rw [← h.indexOf_eq]
  unfold Scene.indexOf
  split
  · exact .error trivial
  · split
    · exact .ok rfl
    · exact .error trivial

theorem find {q : α → β} {t t' : Table α} (ht : Table.Same q t t') (role : Role)
    (id : ComponentId) :
    Answers (fun a b => q a = q b) (s.find role t id) (s'.find role t' id) := by
  have hindex := h.indexOf role id
  unfold Scene.find
  rw [← h.indexOf_eq] at hindex ⊢
  cases hi : s.indexOf role id with
  | error e =>
    rw [hi] at hindex
    cases hindex with
    | error he => exact .error he
  | ok i =>
    have hrow := ht.get?_eq i
    dsimp only
    cases ha : t.get? i with
    | none =>
      rw [ha, Option.map_none, eq_comm, Option.map_eq_none_iff] at hrow
      rw [hrow]
      exact .error trivial
    | some a =>
      rw [ha, Option.map_some, eq_comm, Option.map_eq_some_iff] at hrow
      obtain ⟨b, hb, hab⟩ := hrow
      rw [hb]
      exact .ok hab.symm

theorem node (id : ComponentId) :
    Answers (fun n m => n.uncached = m.uncached) (s.node id) (s'.node id) :=
  h.find h.nodes .node id

theorem mesh (id : ComponentId) :
    Answers (fun n m => n.uncached = m.uncached) (s.mesh id) (s'.mesh id) :=
  h.find h.nodes .mesh id

theorem geometry (id : ComponentId) :
    Answers (fun g k => g.uncached = k.uncached) (s.geometry id) (s'.geometry id) :=
  h.find h.geometries .geometry id

theorem material (id : ComponentId) : Answers Eq (s.material id) (s'.material id) :=
  h.find (q := fun m => m) (.of_eq h.materials) .material id

theorem shader (id : ComponentId) : Answers Eq (s.shader id) (s'.shader id) :=
  h.find (q := fun a => a) (.of_eq h.shaders) .shader id

theorem texture (id : ComponentId) : Answers Eq (s.texture id) (s'.texture id) :=
  h.find (q := fun a => a) (.of_eq h.textures) .texture id

end Questions

section Edits

section Rows

variable {q : α → β} {f : α → α} {t t' : Table α}

/-- An edit of a row that only looks at what `q` shows. -/
theorem modifyRow (h : Alike s s') (ht : Table.Same q t t')
    (hf : ∀ a b, q a = q b → q (f a) = q (f b)) (role : Role) (id : ComponentId) :
    Table.Same q (s.modifyRow role t id f) (s'.modifyRow role t' id f) := by
  unfold Scene.modifyRow
  rw [h.indexOf_eq]
  cases s'.indexOf role id with
  | error e => exact ht
  | ok i => exact ht.modify hf i

/-- An edit of a row in a table that caches nothing. -/
theorem modifyRow_eq (h : Alike s s') (ht : t = t') (f : α → α) (role : Role) (id : ComponentId) :
    s.modifyRow role t id f = s'.modifyRow role t' id f := by
  rw [Scene.modifyRow, Scene.modifyRow, h.indexOf_eq, ht]

/-- An edit of a row that does not show through `q`. -/
theorem cacheRow (ht : Table.Same q t t') (hf : ∀ a, q (f a) = q a) (role : Role)
    (id : ComponentId) : Table.Same q t (s'.modifyRow role t' id f) := by
  unfold Scene.modifyRow
  cases s'.indexOf role id with
  | error e => exact ht
  | ok i => exact ht.modify_right hf i

end Rows

/-- An edit of a node that does not look at what the node caches. -/
theorem modifyNode (h : Alike s s') {f : Node → Node}
    (hf : ∀ n, (f n).uncached = (f n.uncached).uncached) (id : ComponentId) :
    Alike (s.modifyNode id f) (s'.modifyNode id f) :=
  { h with nodes := h.modifyRow h.nodes (fun n m hnm => by rw [hf n, hf m, hnm]) .node id }

/-- An edit of a node that only writes what the node caches. -/
theorem cacheNode (h : Alike s s') {f : Node → Node} (hf : ∀ n, (f n).uncached = n.uncached)
    (id : ComponentId) : Alike s (s'.modifyNode id f) :=
  { h with nodes := cacheRow h.nodes hf .node id }

theorem modifyGeometry (h : Alike s s') {f : Geometry → Geometry}
    (hf : ∀ g, (f g).uncached = (f g.uncached).uncached) (id : ComponentId) :
    Alike (s.modifyGeometry id f) (s'.modifyGeometry id f) :=
  { h with
    geometries := h.modifyRow h.geometries (fun g k hgk => by rw [hf g, hf k, hgk]) .geometry id }

theorem cacheGeometry (h : Alike s s') {f : Geometry → Geometry}
    (hf : ∀ g, (f g).uncached = g.uncached) (id : ComponentId) :
    Alike s (s'.modifyGeometry id f) :=
  { h with geometries := cacheRow h.geometries hf .geometry id }

theorem modifyMaterial (h : Alike s s') (f : Material → Material) (id : ComponentId) :
    Alike (s.modifyMaterial id f) (s'.modifyMaterial id f) :=
  { h with materials := h.modifyRow_eq h.materials f .material id }

theorem modifyShader (h : Alike s s') (f : Shader → Shader) (id : ComponentId) :
    Alike (s.modifyShader id f) (s'.modifyShader id f) :=
  { h with shaders := h.modifyRow_eq h.shaders f .shader id }

theorem modifyTexture (h : Alike s s') (f : Texture → Texture) (id : ComponentId) :
    Alike (s.modifyTexture id f) (s'.modifyTexture id f) :=
  { h with textures := h.modifyRow_eq h.textures f .texture id }

theorem foldl {γ : Type} {f : Scene → γ → Scene}
    (hf : ∀ {s s'}, Alike s s' → ∀ c, Alike (f s c) (f s' c)) (l : List γ) (h : Alike s s') :
    Alike (l.foldl f s) (l.foldl f s') := by
  induction l generalizing s s' with
  | nil => exact h
  | cons c l ih => exact ih (hf h c)

/-- Steps that each write caches only. -/
theorem keptBy {γ δ : Type} {q : δ → Scene} {f : δ → γ → δ}
    (hf : ∀ {d} c, Alike s (q d) → Alike s (q (f d c))) (l : List γ) {d : δ} (h : Alike s (q d)) :
    Alike s (q (l.foldl f d)) := by
  induction l generalizing d with
  | nil => exact h
  | cons c l ih => exact ih (hf c h)

theorem markUpward (h : Alike s s') (fuel : ℕ) (id : ComponentId) :
    Alike s (markUpward fuel id s') := by
  induction fuel generalizing id s' with
  | zero => exact h
  | succ fuel ih =>
    unfold Scene.markUpward
    split
    · exact h
    · split
      · exact h
      · split
        · exact ih (h.cacheNode (fun _ => by rfl) id) _
        · exact h

/-- Staleness is a cache. -/
theorem flagged (h : Alike s s') (id : ComponentId) (g : Staleness) : Alike s (s'.flag id g) :=
  markUpward (h.cacheNode (fun _ => by rfl) id) _ _

theorem flag (h : Alike s s') (id : ComponentId) (g : Staleness) :
    Alike (s.flag id g) (s'.flag id g) :=
  (flagged (.refl s) id g).symm.trans (h.flagged id g)

theorem detach (h : Alike s s') (c : ComponentId) : Alike (s.detach c) (s'.detach c) := by
  unfold Scene.detach
  rcases (h.node c).cases with ⟨e, hn, hm, -⟩ | ⟨n, m, hn, hm, hnm⟩
  · rw [hn, hm]
    exact h
  · have hparent : n.parent = m.parent := (congrArg Node.parent hnm :)
    rw [hn, hm]
    dsimp only
    rw [hparent]
    exact (h.modifyNode (fun _ => rfl) c).modifyNode (fun _ => rfl) m.parent

theorem adopt (h : Alike s s') (p c : ComponentId) : Alike (s.adopt p c) (s'.adopt p c) := by
  refine flag ?_ c .world
  exact (h.modifyNode (fun _ => rfl) c).modifyNode (fun _ => rfl) p

theorem forgetGeometry (h : Alike s s') (id : ComponentId) :
    Alike (s.forgetGeometry id) (s'.forgetGeometry id) := by
  unfold Scene.forgetGeometry
  rcases (h.geometry id).cases with ⟨e, hg, hk, -⟩ | ⟨g, k, hg, hk, hgk⟩
  · rw [hg, hk]
    exact h
  · have hbindings : g.bindings = k.bindings := (congrArg Geometry.bindings hgk :)
    rw [hg, hk]
    dsimp only
    rw [hbindings]
    exact foldl (fun h mesh => h.modifyNode (fun _ => rfl) mesh) k.bindings h

/-- The staleness of geometries is a cache. -/
theorem staleGeometries (h : Alike s s') (l : List ComponentId) :
    Alike s (l.foldl (fun s g => s.modifyGeometry g fun g => { g with instancesStale := true })
      s') :=
  keptBy (q := fun s => s) (fun id h => h.cacheGeometry (fun _ => by rfl) id) l h

theorem forgetMaterial (h : Alike s s') (id : ComponentId) :
    Alike (s.forgetMaterial id) (s'.forgetMaterial id) := by
  refine (staleGeometries (.refl _) _).symm.trans ?_
  refine staleGeometries ?_ _
  let unset (n : Node) : Node := { n with
    mesh := n.mesh.map fun b => if b.material = id then { b with material := .null } else b }
  exact { h with nodes := h.nodes.map fun n m hnm => (congrArg unset hnm :) }

theorem forgetShader (h : Alike s s') (id : ComponentId) :
    Alike (s.forgetShader id) (s'.forgetShader id) := by
  refine { h with materials := ?_ }
  simp only [Scene.forgetShader, h.materials]

theorem removeSlot (h : Alike s s') (id : ComponentId) (slot : Slot) :
    Alike (s.removeSlot id slot) (s'.removeSlot id slot) := by
  obtain ⟨kind, i⟩ := slot
  cases kind with
  | transform | mesh =>
    obtain ⟨hmoved, hrows⟩ := h.nodes.swapRemove (fun n m hnm => (congrArg Node.id hnm :)) i
    refine { h with nodes := hrows, slots := ?_ }
    simp only [Scene.removeSlot, hmoved, h.slots]
  | geometry =>
    obtain ⟨hmoved, hrows⟩ :=
      h.geometries.swapRemove (fun g k hgk => (congrArg Geometry.id hgk :)) i
    refine { h with geometries := hrows, slots := ?_ }
    simp only [Scene.removeSlot, hmoved, h.slots]
  | material =>
    refine { h with materials := ?_, slots := ?_ } <;>
      simp only [Scene.removeSlot, h.materials, h.slots]
  | shader =>
    refine { h with shaders := ?_, slots := ?_ } <;>
      simp only [Scene.removeSlot, h.shaders, h.slots]
  | texture =>
    refine { h with textures := ?_, slots := ?_ } <;>
      simp only [Scene.removeSlot, h.textures, h.slots]

theorem reserve (h : Alike s s') (id : ComponentId) : Alike (s.reserve id) (s'.reserve id) := by
  refine { h with ids := ?_ }
  simp only [Scene.reserve, h.ids]

theorem add (h : Alike s s') (kind : ComponentKind) (id : ComponentId) (name : String) :
    Alike (s.add kind id name) (s'.add kind id name) := by
  cases kind with
  | transform =>
    obtain ⟨hindex, hrows⟩ := h.nodes.push (Node.new id name)
    refine { h with nodes := hrows, slots := ?_ }
    simp only [Scene.add, hindex, h.slots]
  | mesh =>
    obtain ⟨hindex, hrows⟩ := h.nodes.push { Node.new id name with mesh := some {} }
    refine { h with nodes := hrows, slots := ?_ }
    simp only [Scene.add, hindex, h.slots]
  | geometry =>
    obtain ⟨hindex, hrows⟩ := h.geometries.push (Geometry.new id name)
    refine { h with geometries := hrows, slots := ?_ }
    simp only [Scene.add, hindex, h.slots]
  | material =>
    refine { h with materials := ?_, slots := ?_ } <;> simp only [Scene.add, h.materials, h.slots]
  | shader =>
    refine { h with shaders := ?_, slots := ?_ } <;> simp only [Scene.add, h.shaders, h.slots]
  | texture =>
    refine { h with textures := ?_, slots := ?_ } <;> simp only [Scene.add, h.textures, h.slots]

theorem parentOf_eq (h : Alike s s') (id : ComponentId) : s.parentOf id = s'.parentOf id := by
  unfold parentOf
  rcases (h.node id).cases with ⟨e, hn, hm, -⟩ | ⟨n, m, hn, hm, hnm⟩
  · rw [hn, hm]
  · rw [hn, hm]
    exact (congrArg Node.parent hnm :)

theorem meets_eq (h : Alike s s') (target : ComponentId) (fuel : ℕ) (id : ComponentId) :
    s.meets target fuel id = s'.meets target fuel id := by
  induction fuel generalizing id with
  | zero => rfl
  | succ fuel ih => rw [meets, meets, h.parentOf_eq, ih]

theorem isAncestor_eq (h : Alike s s') (a id : ComponentId) :
    s.isAncestor a id = s'.isAncestor a id := by
  rw [isAncestor, isAncestor, h.walkLimit_eq, h.parentOf_eq, h.meets_eq]

end Edits

section Rebuilds

variable {r : Rebuild}

/-- A pass over siblings, last one first. -/
theorem siblings {f : ComponentId → Rebuild → Rebuild} (h : Alike s r.scene)
    (hf : ∀ c {r : Rebuild}, Alike s r.scene → Alike s (f c r).scene) (l : List ComponentId) :
    Alike s (l.foldr f r).scene := by
  induction l with
  | nil => exact h
  | cons c l ih => exact hf c ih

theorem recompute [Mat4.Arithmetic] (h : Alike s r.scene) (depth : ℕ) (base : Mat4)
    (id : ComponentId) : Alike s (r.recompute depth base id).scene := by
  induction depth generalizing base id r with
  | zero => exact h
  | succ depth ih =>
    unfold Rebuild.recompute
    cases r.scene.node id with
    | error e => exact h
    | ok n =>
      have hfirst : Alike s (r.scene.modifyNode id (Node.refresh · base)) :=
        h.cacheNode (fun _ => by rfl) id
      exact hfirst.siblings (fun c r hr => ih hr _ c) n.children

theorem descend [Mat4.Arithmetic] (h : Alike s r.scene) (depth : ℕ) (id : ComponentId) :
    Alike s (r.descend depth id).scene := by
  induction depth generalizing id r with
  | zero => exact h
  | succ depth ih =>
    unfold Rebuild.descend
    cases r.scene.node id with
    | error e => exact h
    | ok n =>
      dsimp only
      cases n.stale with
      | none => exact h
      | descendents =>
        have hfirst : Alike s (r.scene.modifyNode id fun n => { n with stale := .none }) :=
          h.cacheNode (fun _ => by rfl) id
        exact hfirst.siblings (fun c r hr => ih hr c) n.children
      | world | «local» => exact h.recompute _ _ id

theorem mark {t : Scene × RebuildStats} (h : Alike s t.1) (id : ComponentId) :
    Alike s (Rebuild.mark t id).1 := by
  unfold Rebuild.mark
  split
  · split
    · exact h
    · exact h.cacheGeometry (fun _ => by rfl) id
  · exact h

theorem rebuildRoot [Mat4.Arithmetic] {t : Scene × RebuildStats} (h : Alike s t.1)
    (root : ComponentId) : Alike s (Scene.rebuildRoot t root).1 := by
  unfold Scene.rebuildRoot
  split
  · have hdown : Alike s (Rebuild.descend t.1.walkLimit root { scene := t.1 }).scene :=
      descend h _ root
    exact keptBy (q := Prod.fst) (fun id h => h.mark id) _ hdown
  · exact h

theorem rebuildAllMatrices [Mat4.Arithmetic] (h : Alike s s') : Alike s s'.rebuildAllMatrices.1 :=
  keptBy (q := Prod.fst) (fun root h => h.rebuildRoot root) s'.staleRoots h

theorem rebuildStaleGeometries (h : Alike s s') : Alike s s'.rebuildStaleGeometries.2 :=
  keptBy (q := fun s => s) (fun id h => h.cacheGeometry (fun _ => by rfl) id) _ h

end Rebuilds

end Alike

end Scene

end SceneGraph
