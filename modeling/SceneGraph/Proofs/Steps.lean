import SceneGraph.Proofs.Destruction
import SceneGraph.Proofs.Records
import SceneGraph.Proofs.Sources

/-!
# Steps of a scene

The edits of a scene are told apart by what they do when they are not refused: each of them takes
the scene through steps of a few kinds, and a refused edit leaves the scene as it was. A step comes
with the changes that it makes to components. What it does besides, to the source of identifiers or
to the cached matrices, it does only where that is provided for. Whatever the steps preserve is
preserved by every edit.
-/

namespace SceneGraph

/-- What an edit may do that is no change to a component. -/
inductive Aside where
  /-- Draws an identifier. -/
  | draw
  | reserve (id : ComponentId)
  /-- Recomputes matrices. -/
  | rebuild
deriving DecidableEq

namespace Scene

inductive Step [Mat4.Arithmetic] (as : List Aside) (s : Scene) : List Change → Scene → Prop
  | draw (h : .draw ∈ as) (hi : s.ids.next.toNat < UInt64.size - 1) : Step as s [] s.allocate.2
  | reserve {id : ComponentId} (h : .reserve id ∈ as) : Step as s [] (s.reserve id)
  | add {kind : ComponentKind} {id : ComponentId} {name : String} (hid : id ≠ .null)
      (hfree : s.slots.get? id = none) (hc : s.ids.Covers id) :
      Step as s [.created kind id name] (s.add kind id name)
  | rename {id : ComponentId} {n : Node} (hn : s.nodeAt id = some n) (name : String) :
      Step as s [.assigned id (.name (Name.clamp name))] (s.modifyNode id (Row.rename name))
  | place {id : ComponentId} {n : Node} {f : Node → Node} {d : Datum} (hn : s.nodeAt id = some n)
      (hf : ∀ n, f n =
        { n with position := (f n).position, rotation := (f n).rotation, scale := (f n).scale })
      (hd : ∀ k n, (f n).content k = (n.content k).assign [d]) :
      Step as s [.assigned id d] ((s.modifyNode id f).flag id .local)
  | flag (id : ComponentId) (g : Staleness) : Step as s [] (s.flag id g)
  | detach (c : ComponentId) : Step as s [] ((s.detach c).flag c .world)
  | attach {c p : ComponentId} {n m : Node} (hc : s.nodeAt c = some n) (hp : s.nodeAt p = some m)
      (hpc : ¬ Under s.nodeAt.up p c) : Step as s [] ((s.detach c).adopt p c)
  | bare {p : ComponentId} {n : Node} (hp : s.nodeAt p = some n) :
      Step as s [] (n.children.foldl (fun s c => s.adopt .null c)
        (s.modifyNode p fun n => { n with children := [] }))
  | geometry (ds : List Datum) {id : ComponentId} {g : Geometry} {f : Geometry → Geometry}
      (hg : s.geometryAt id = some g) (hf : Valid.Inert f)
      (hd : ∀ g, (Component.geometry (f g)).content = (Component.geometry g).content.assign ds) :
      Step as s (ds.map (Change.assigned id)) (s.modifyGeometry id f)
  | geometries {f : Geometry → Geometry} (hf : Valid.Inert f) (hd : ∀ g, (f g).datum? = g.datum?) :
      Step as s [] { s with geometries := s.geometries.map f }
  | material (ds : List Datum) {id : ComponentId} {m : Material} {f : Material → Material}
      (hm : s.materialAt id = some m) (hf : ∀ m, (f m).id = m.id)
      (hd : ∀ m, (Component.material (f m)).content = (Component.material m).content.assign ds) :
      Step as s (ds.map (Change.assigned id)) (s.modifyMaterial id f)
  | reshade {id shader : ComponentId} {m : Material} (hm : s.materialAt id = some m)
      (hs : shader ≠ .null → ∃ a, s.shaderAt shader = some a) :
      Step as s [] (s.modifyMaterial id fun m => { m with shader })
  | shader (ds : List Datum) {id : ComponentId} {a : Shader} {f : Shader → Shader}
      (ha : s.shaderAt id = some a) (hf : ∀ a, (f a).id = a.id)
      (hd : ∀ a, (Component.shader (f a)).content = (Component.shader a).content.assign ds) :
      Step as s (ds.map (Change.assigned id)) (s.modifyShader id f)
  | texture (ds : List Datum) {id : ComponentId} {t : Texture} {f : Texture → Texture}
      (ht : s.textureAt id = some t) (hf : ∀ a, (f a).id = a.id)
      (hd : ∀ t, (Component.texture (f t)).content = (Component.texture t).content.assign ds) :
      Step as s (ds.map (Change.assigned id)) (s.modifyTexture id f)
  | rebind {id geometry material : ComponentId} {n : Node} (hn : s.mesh id = .ok n)
      (hg : geometry ≠ .null → ∃ g, s.geometryAt geometry = some g)
      (hm : material ≠ .null → ∃ m, s.materialAt material = some m) :
      Step as s [] (s.rebind id n geometry material)
  | rebatch (id : ComponentId) : Step as s [] (s.rebatch id)
  | rebuild {root : ComponentId} {n : Node} (h : .rebuild ∈ as) (hn : s.nodeAt root = some n) :
      Step as s [] (s.rebuiltFrom root).1
  | destroyNode {id : ComponentId} {slot : Slot} {n : Node} (hn : s.nodeAt id = some n)
      (hslot : s.slots.get? id = some slot) (hk : Role.node.accepts slot.kind) :
      Step as s [.destroyed id] ((s.orphaned id n).removeSlot id slot)
  | destroyGeometry {id : ComponentId} {slot : Slot} (hslot : s.slots.get? id = some slot)
      (hk : slot.kind = .geometry) :
      Step as s [.destroyed id] ((s.forgetGeometry id).removeSlot id slot)
  | destroyMaterial {id : ComponentId} {slot : Slot} (hslot : s.slots.get? id = some slot)
      (hk : slot.kind = .material) :
      Step as s [.destroyed id] ((s.forgetMaterial id).removeSlot id slot)
  | destroyShader {id : ComponentId} {slot : Slot} (hslot : s.slots.get? id = some slot)
      (hk : slot.kind = .shader) :
      Step as s [.destroyed id] ((s.forgetShader id).removeSlot id slot)
  | destroyTexture {id : ComponentId} {slot : Slot} (hslot : s.slots.get? id = some slot)
      (hk : slot.kind = .texture) : Step as s [.destroyed id] (s.removeSlot id slot)

/-- Steps in a row, with all their changes. -/
inductive Steps [Mat4.Arithmetic] (as : List Aside) (s : Scene) : List Change → Scene → Prop
  | refl : Steps as s [] s
  | tail {t t' : Scene} {cs ds : List Change} (h : Steps as s cs t) (h' : Step as t ds t') :
      Steps as s (cs ++ ds) t'

variable {as : List Aside} {s s' : Scene} {cs ds : List Change}

namespace Steps

theorem single [Mat4.Arithmetic] (h : Step as s cs s') : Steps as s cs s' := .tail .refl h

theorem trans [Mat4.Arithmetic] {s'' : Scene} (h : Steps as s cs s') (h' : Steps as s' ds s'') :
    Steps as s (cs ++ ds) s'' := by
  induction h' with
  | refl =>
    rw [List.append_nil]
    exact h
  | tail _ h' ih =>
    rw [← List.append_assoc]
    exact ih.tail h'

end Steps

theorem Step.valid [Mat4.Arithmetic] (h : Step as s cs s') (hv : Valid s) : Valid s' := by
  cases h with
  | draw | reserve => exact hv.source _
  | add hid hfree => exact hv.add _ _ hid hfree
  | rename _ name => exact hv.rename _ name
  | place _ hf => exact hv.place _ hf
  | flag id g => exact hv.flag id g
  | detach c => exact hv.detach c
  | attach hc hp hpc => exact hv.attach hc hp hpc
  | bare hp => exact hv.bare hp
  | geometry _ _ hf => exact hv.geometry hf _
  | geometries hf => exact hv.geometries hf
  | material _ _ hf => exact hv.material hf _
  | @reshade id shader =>
    exact Valid.material (f := fun m => { m with shader }) hv (fun _ => rfl) id
  | shader _ _ hf => exact hv.shader hf _
  | texture _ _ hf => exact hv.texture hf _
  | rebind hn hg => exact hv.rebind (nodeAt_of_mesh hn) hg
  | rebatch id => exact hv.rebatch id
  | rebuild _ hn => exact hv.rebuild hn
  | destroyNode hn hslot hk => exact hv.destroyNode hn hslot hk
  | destroyGeometry hslot hk => exact hv.destroyGeometry hslot hk
  | destroyMaterial hslot hk => exact hv.destroyMaterial hslot hk
  | destroyShader hslot hk => exact hv.destroyShader hslot hk
  | destroyTexture hslot hk => exact hv.destroyTexture hslot hk

theorem Steps.valid [Mat4.Arithmetic] (h : Steps as s cs s') (hv : Valid s) : Valid s' := by
  induction h with
  | refl => exact hv
  | tail _ h ih => exact h.valid ih

/-- The source has passed the identifiers in use, and the null one. -/
structure Covered (s : Scene) : Prop where
  live : ∀ {id slot}, s.slots.get? id = some slot → s.ids.Covers id
  null : s.ids.Covers .null

namespace Covered

variable {id : ComponentId} {slot : Slot}

theorem of_nodeEdit (h : Covered s) (he : NodeEdit s s') : Covered s' := by
  rw [he.rest]
  exact ⟨h.live, h.null⟩

theorem of_geometryEdit (h : Covered s) (he : GeometryEdit s s') : Covered s' := by
  rw [he.rest]
  exact ⟨h.live, h.null⟩

theorem modifyNode (h : Covered s) (id : ComponentId) (f : Node → Node) :
    Covered (s.modifyNode id f) :=
  ⟨h.live, h.null⟩

theorem add {kind : ComponentKind} {name : String} (h : Covered s) (hc : s.ids.Covers id) :
    Covered (s.add kind id name) where
  live := by
    intro x slot hx
    obtain ⟨i, hi⟩ := slots_add s kind id name
    rw [hi, IdMap.get?_insert] at hx
    rw [ids_add]
    split at hx
    · next he => exact he ▸ hc
    · exact h.live hx
  null := by
    rw [ids_add]
    exact h.null

/-- What is left of the map had a slot before. -/
theorem removeSlot (h : Covered s) (hs : Sound s) (hslot : s.slots.get? id = some slot) :
    Covered (s.removeSlot id slot) := by
  have hr := removeSlot_removal hs hslot
  refine ⟨fun {x o} hx => ?_, ?_⟩
  · have hk := hr.kinds x
    rw [hx] at hk
    split at hk
    · cases hk
    · obtain ⟨o, ho, -⟩ := Option.map_eq_some_iff.mp hk.symm
      rw [hr.ids]
      exact h.live ho
  · rw [hr.ids]
    exact h.null

theorem forgetMaterial (h : Covered s) (id : ComponentId) : Covered (s.forgetMaterial id) := by
  have hfold : ∀ (l : List ComponentId) (t : Scene), Covered t →
      Covered (l.foldl (fun s g => s.modifyGeometry g fun g => { g with instancesStale := true })
        t) := by
    intro l
    induction l with
    | nil => exact fun _ ht => ht
    | cons g l ih => exact fun t ht => ih _ ⟨ht.live, ht.null⟩
  exact hfold _ _ ⟨h.live, h.null⟩

end Covered

theorem nodeEdit_forgetGeometry (hs : Sound s) (id : ComponentId) :
    NodeEdit s (s.forgetGeometry id) := by
  unfold forgetGeometry
  split
  · exact .refl s
  · exact (Valid.clearEach (f := fun b => { b with geometry := .null }) (fun _ => rfl) hs _).1

theorem geometryEdit_rebind (t : Scene) (id : ComponentId) (geometry material : ComponentId)
    (n : Node) : GeometryEdit (t.remesh id (some { geometry, material }))
      (t.rebind id n geometry material) := by
  unfold rebind
  dsimp only
  split
  · exact (GeometryEdit.modifyGeometry _ _ (Geometry.id_unbind id)).trans
      (.modifyGeometry _ _ fun _ => rfl)
  · split
    · exact .modifyGeometry _ _ fun _ => rfl
    · exact .refl _

/-- A step lets the source fall behind nothing that comes into use. -/
theorem Step.covered [Mat4.Arithmetic] (h : Step as s cs s') (hv : Valid s) (hc : Covered s) :
    Covered s' := by
  cases h with
  | draw _ hi => exact ⟨fun hx => (hc.live hx).allocate hi, hc.null.allocate hi⟩
  | reserve => exact ⟨fun hx => (hc.live hx).reserve _, hc.null.reserve _⟩
  | add _ _ hid => exact hc.add hid
  | rename | material | reshade | shader | texture | geometries => exact ⟨hc.live, hc.null⟩
  | place => exact (hc.modifyNode _ _).of_nodeEdit (nodeEdit_flag _ _ _)
  | flag => exact hc.of_nodeEdit (nodeEdit_flag _ _ _)
  | detach c => exact hc.of_nodeEdit ((nodeEdit_detach s c).trans (nodeEdit_flag _ _ _))
  | attach => exact hc.of_nodeEdit ((nodeEdit_detach s _).trans (nodeEdit_adopt _ _ _))
  | bare => exact (hc.modifyNode _ _).of_nodeEdit (nodeEdit_adoptAll _ _ _)
  | geometry _ _ _ | rebatch => exact ⟨hc.live, hc.null⟩
  | @rebind id geometry material n =>
    have he := (nodeEdit_remesh s id (some { geometry, material }))
    exact (hc.of_nodeEdit he).of_geometryEdit (geometryEdit_rebind s id geometry material n)
  | rebuild _ hn =>
    rw [(rebuiltFrom_spec hv.sound hv.forest hv.fresh.marked hn).rest]
    exact ⟨hc.live, hc.null⟩
  | @destroyNode id slot n hn hslot hk =>
    have he := nodeEdit_handedOver s id n
    have hs := he.sound hv.sound
    have hg : GeometryEdit (s.handedOver id n) (s.orphaned id n) :=
      .modifyGeometry _ _ (Geometry.id_unbind id)
    refine ((hc.of_nodeEdit he).of_geometryEdit hg).removeSlot (hg.sound hs) ?_
    rw [hg.slots, he.slots, hslot]
  | @destroyGeometry id slot hslot _ =>
    have he := nodeEdit_forgetGeometry hv.sound id
    exact (hc.of_nodeEdit he).removeSlot (he.sound hv.sound) (he.slots ▸ hslot)
  | @destroyMaterial id slot hslot _ =>
    have hspec := Valid.forgetMaterial_spec hv.sound id
    exact (hc.forgetMaterial id).removeSlot hspec.1 (hspec.2.1 ▸ hslot)
  | @destroyShader id slot hslot _ =>
    exact Covered.removeSlot ⟨hc.live, hc.null⟩ (hv.sound.forgetShader id) hslot
  | destroyTexture hslot _ => exact hc.removeSlot hv.sound hslot

theorem Steps.covered [Mat4.Arithmetic] (h : Steps as s cs s') (hv : Valid s) (hc : Covered s) :
    Covered s' := by
  induction h with
  | refl => exact hc
  | tail hs h ih => exact h.covered (hs.valid hv) ih

end Scene

end SceneGraph
