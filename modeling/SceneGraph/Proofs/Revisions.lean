import SceneGraph.Proofs.Steps

/-!
# Steps as revisions of the contents

A step revises the contents of a scene as its changes say, or does not touch them. So no step leaves
a reference to what is gone, and the changes of a run tell every field, wherever the rows went.
-/

namespace SceneGraph

namespace Geometry

theorem datum?_unbind (mesh : ComponentId) (g : Geometry) : (g.unbind mesh).datum? = g.datum? := by
  unfold unbind
  split <;> rfl

end Geometry

namespace Scene

variable {s s' : Scene} {id x : ComponentId} {k : ComponentKind} {cs ds : List Change}

theorem Relinked.quiet (h : Relinked s s') : Quiet s s' := by
  induction h with
  | refl => exact .refl s
  | modifyNode _ hf _ ih => exact ih.modifyNode (fun n => by rw [hf]) fun k n => by rw [hf]; rfl

theorem Quiet.revision (h : Quiet s s') (hs : Sound s) :
    View.Revision s.contents [] s'.contents := by
  rw [(h hs).2]
  exact .keep

section Edits

/-- Fields of one component were assigned. -/
theorem revision_assign {ds : List Datum} (hs : Sound s) (hk : s.kindOf? id = some k)
    (h : s'.contents = s.contents.modify id (Content.assign ds)) :
    View.Revision s.contents (ds.map (Change.assigned id)) s'.contents := by
  obtain ⟨c, hc, -⟩ := exists_contents hs hk
  rw [h]
  exact .assign ds hc

theorem revision_modifyNode {f : Node → Node} {n : Node} (ds : List Datum) (hs : Sound s)
    (hn : s.nodeAt id = some n) (hid : ∀ n, (f n).id = n.id)
    (hf : ∀ k n, (f n).content k = (n.content k).assign ds) :
    View.Revision s.contents (ds.map (Change.assigned id)) (s.modifyNode id f).contents := by
  obtain ⟨k, hk, -⟩ := kindOf?_of_rowAt hn
  exact revision_assign hs hk (contents_modifyNode hs hn hid hf)

theorem quiet_geometries {f : Geometry → Geometry} (hf : ∀ g, (f g).id = g.id)
    (hd : ∀ g, (f g).datum? = g.datum?) : Quiet s { s with geometries := s.geometries.map f } := by
  intro hs
  have he : GeometryEdit s { s with geometries := s.geometries.map f } :=
    ⟨Placed.ids_map hf s.geometries, rfl⟩
  have hw : Scene.geometryAt { s with geometries := s.geometries.map f } =
      s.geometryAt.edit fun _ => f :=
    funext fun x => rowAt_map f
  exact ⟨he.sound hs, contents_sameGeometries he hw fun _ => hd⟩

/-- A rebuild recomputes what is cached. -/
theorem contents_rebuiltFrom [Mat4.Arithmetic] {n : Node} (hv : Valid s)
    (hn : s.nodeAt id = some n) : (s.rebuiltFrom id).1.contents = s.contents := by
  have h := rebuiltFrom_spec hv.sound hv.forest hv.fresh.marked hn
  generalize (s.rebuiltFrom id).1 = t at *
  obtain ⟨marked, hw, -⟩ := h.marked
  have hnodes : ∀ q : Node → Content, (∀ n m w g, q { n with
      localMatrix := m, worldMatrix := w, stale := g } = q n) →
      View.map q t.nodeAt = View.map q s.nodeAt := by
    intro q hq
    funext x
    cases hx : s.nodeAt x with
    | none => simp [View.map, hx, h.rebuilt.free hx]
    | some n =>
      obtain ⟨n', hn', he⟩ := h.rebuilt.keeps hx
      rw [View.map, View.map, hx, hn', he, Option.map_some, hq]
      rfl
  refine contents_congr h.slots fun k => ?_
  cases k with
  | transform =>
    simp only [record, rowOf, View.map_map]
    exact hnodes _ fun _ _ _ _ => rfl
  | mesh =>
    simp only [record, rowOf, View.map_map]
    exact hnodes _ fun _ _ _ _ => rfl
  | geometry =>
    simp only [record, rowOf, View.map_map, hw]
    exact View.map_edit_same fun x g => by split <;> rfl
  | _ =>
    rw [h.rest]
    rfl

/-- Of binding a mesh anew, only the binding itself shows. -/
theorem quiet_rebind (s : Scene) (id : ComponentId) (n : Node) (geometry material : ComponentId) :
    Quiet (s.remesh id (some ⟨geometry, material⟩)) (s.rebind id n geometry material) := by
  unfold Scene.rebind
  dsimp only
  split
  · exact .modifyGeometry (.modifyGeometry (.refl _) (Geometry.id_unbind id)
      (Geometry.datum?_unbind id)) (fun _ => rfl) fun _ => rfl
  · split
    · exact .modifyGeometry (.refl _) (fun _ => rfl) fun _ => rfl
    · exact .refl _

theorem revision_rebind {geometry material : ComponentId} {n : Node} (hs : Sound s)
    (hn : s.mesh id = .ok n) (hg : geometry ≠ .null → ∃ g, s.geometryAt geometry = some g)
    (hm : material ≠ .null → ∃ m, s.materialAt material = some m) :
    View.Revision s.contents [] (s.rebind id n geometry material).contents := by
  have hremesh : (s.remesh id (some ⟨geometry, material⟩)).contents =
      s.contents.modify id fun c => { c with binding := some ⟨geometry, material⟩ } :=
    contents_modifyNode hs (nodeAt_of_mesh hn) (fun _ => rfl) fun _ _ => rfl
  rw [(quiet_rebind s id n geometry material ((nodeEdit_remesh s id _).sound hs)).2, hremesh]
  refine .rebind ?_ (fun hne => ?_) fun hne => ?_
  · exact kindOf?_of_row hs (find_eq_ok_iff.mp hn) fun _ => of_decide_eq_true
  · obtain ⟨g, hg⟩ := hg hne
    exact kindOf?_of_row hs hg fun _ => of_decide_eq_true
  · obtain ⟨m, hm⟩ := hm hne
    exact kindOf?_of_row hs hm fun _ => of_decide_eq_true

theorem revision_reshade {shader : ComponentId} {m : Material} (hs : Sound s)
    (hm : s.materialAt id = some m) (ha : shader ≠ .null → ∃ a, s.shaderAt shader = some a) :
    View.Revision s.contents [] (s.modifyMaterial id fun m => { m with shader }).contents := by
  rw [contents_modifyMaterial (F := fun c => { c with shader }) hs hm fun _ => rfl]
  refine .reshade fun hne => ?_
  obtain ⟨a, ha⟩ := ha hne
  exact kindOf?_of_row hs ha fun _ => of_decide_eq_true

end Edits

section Removals

variable {slot : Slot} {t : Scene}

/-- The removal of a component that all others have forgotten. -/
theorem revision_destroy (ht : Sound t) (hslot : t.slots.get? id = some slot)
    (h : ∀ x, x ≠ id → t.contents x = (s.contents x).map (Content.forget id)) :
    View.Revision s.contents [.destroyed id] (t.removeSlot id slot).contents := by
  have he : (t.removeSlot id slot).contents =
      (s.contents.erase id).edit fun _ => Content.forget id := by
    rw [(removeSlot_removal ht hslot).contents]
    funext x
    by_cases hx : x = id
    · simp [View.erase, View.edit, hx]
    · simp only [View.erase, View.edit, if_neg hx, h x hx]
  rw [he]
  exact .destroy id

variable [Mat4.Arithmetic] (hv : Valid s) (hc : View.Closed s.contents)
include hv hc

/-- The removal of a component that nothing refers to. -/
theorem revision_destroy_unreferred (ht : Sound t) (hslots : t.slots = s.slots)
    (hslot : s.slots.get? id = some slot) (hkind : slot.kind ∉ [.geometry, .material, .shader])
    (h : ∀ x, x ≠ id → t.contents x = s.contents x) :
    View.Revision s.contents [.destroyed id] (t.removeSlot id slot).contents := by
  refine revision_destroy ht (hslots ▸ hslot) fun x hx => ?_
  rw [h x hx]
  cases hxc : s.contents x with
  | none => rfl
  | some c =>
    have hk : s.contents.kindOf? id = some slot.kind :=
      (kindOf?_contents hv.sound id).trans (kindOf?_of_slot hslot)
    rw [Option.map_some, hc.forget_unreferred hxc (hv.sound.ne_null hslot) hk hkind]

theorem revision_destroyNode {n : Node} (hn : s.nodeAt id = some n)
    (hslot : s.slots.get? id = some slot) (hk : Role.node.accepts slot.kind) :
    View.Revision s.contents [.destroyed id] ((s.orphaned id n).removeSlot id slot).contents := by
  have he : NodeEdit s (s.modifyNode id fun n => { n with children := [], mesh := none }) :=
    .modifyNode s id fun _ => rfl
  have hq : Quiet (s.modifyNode id fun n => { n with children := [], mesh := none })
      (s.orphaned id n) :=
    .modifyGeometry ((Relinked.refl.detach id).adoptAll n.parent n.children).quiet
      (Geometry.id_unbind id) (Geometry.datum?_unbind id)
  obtain ⟨ht, hcontents⟩ := hq (he.sound hv.sound)
  -- of all that is done to the node and around it, only the lost binding shows
  have hunbound : (s.modifyNode id fun n => { n with children := [], mesh := none }).contents =
      s.contents.modify id fun c => { c with binding := none } :=
    contents_modifyNode hv.sound hn (fun _ => rfl) fun _ _ => rfl
  refine revision_destroy_unreferred hv hc ht (nodeEdit_handedOver s id n).slots hslot ?_
    fun x hx => ?_
  · cases hkind : slot.kind <;> simp_all [Role.accepts, ComponentKind.isNode]
  · rw [hcontents, hunbound, View.modify_of_ne hx]

theorem revision_destroyTexture (hslot : s.slots.get? id = some slot) (hk : slot.kind = .texture) :
    View.Revision s.contents [.destroyed id] (s.removeSlot id slot).contents :=
  revision_destroy_unreferred hv hc hv.sound rfl hslot (by rw [hk]; decide) fun _ _ => rfl

/-- What is referred to as a component of some kind is of that kind. -/
theorem kind_of_refers {c : Content} (hx : s.contents x = some c)
    (hslot : s.slots.get? id = some slot) (hr : c.Refers k id) : slot.kind = k := by
  have hkind := hc.live hx hr (hv.sound.ne_null hslot)
  rw [kindOf?_contents hv.sound, kindOf?_of_slot hslot] at hkind
  exact Option.some.inj hkind

/-- The nodes forget a geometry or a material. -/
theorem contents_forgetting {f : ComponentId → Node → Node} (he : NodeEdit s t)
    (hview : t.nodeAt = s.nodeAt.edit f) (hslot : s.slots.get? id = some slot)
    (hk : slot.kind ≠ .shader)
    (hf : ∀ x n, s.nodeAt x = some n → f x n = { n with mesh := n.mesh.map (.forget id) }) :
    t.contents = s.contents.edit fun _ => Content.forget id := by
  have hkind : s.contents.kindOf? id = some slot.kind :=
    (kindOf?_contents hv.sound id).trans (kindOf?_of_slot hslot)
  refine contents_editNodes he hview (fun k x n hn => ?_) fun x c hx hnode => ?_
  · rw [hf x n hn, Node.content_forget]
  · exact hc.forget_of_not_node hx (hv.sound.ne_null hslot) hkind hk hnode

theorem revision_destroyGeometry (hslot : s.slots.get? id = some slot)
    (hk : slot.kind = .geometry) : View.Revision s.contents [.destroyed id]
      ((s.forgetGeometry id).removeSlot id slot).contents := by
  have hid := hv.sound.ne_null hslot
  obtain ⟨g, hg⟩ := hv.sound.geometries.slot_iff.mp
    ⟨slot.kind, slot.index, hslot, by rw [hk]; decide⟩
  have hforget : s.forgetGeometry id = g.bindings.foldl (fun s mesh => s.modifyNode mesh fun n =>
      { n with mesh := n.mesh.map fun b => { b with geometry := .null } }) s := by
    rw [forgetGeometry, geometry_eq_ok.mpr hg]
  obtain ⟨he, hview⟩ := Valid.clearEach (f := fun b => { b with geometry := .null }) (fun _ => rfl)
    hv.sound g.bindings
  rw [← hforget] at he hview
  have hcontents := contents_forgetting hv hc he hview hslot (by rw [hk]; decide) fun x n hn => ?_
  · refine revision_destroy (he.sound hv.sound) (he.slots ▸ hslot) fun x _ => ?_
    rw [hcontents]
    rfl
  · cases hb : n.mesh with
    | none => simp
    | some b =>
      obtain ⟨k, hx, -⟩ := contents_of_nodeAt hn
      -- only the meshes on the list are told, so the list has to name all that are bound
      have hbound : x ∈ g.bindings ↔ b.geometry = id := by
        rw [hv.batched.mem hg, View.draws_of_some hn, hb]
        exact (View.nonNull_eq_some hid).trans eq_comm
      have hmaterial : b.material ≠ id := by
        rintro rfl
        have hkind := kind_of_refers hv hc hx hslot (.material hb)
        rw [hk] at hkind
        cases hkind
      by_cases hgeometry : b.geometry = id <;>
        simp [MeshBinding.forget, hbound, hgeometry, hmaterial]

theorem revision_destroyMaterial (hslot : s.slots.get? id = some slot)
    (hk : slot.kind = .material) : View.Revision s.contents [.destroyed id]
      ((s.forgetMaterial id).removeSlot id slot).contents := by
  -- the nodes alone, before any geometry is marked
  let t : Scene :=
    { s with nodes := s.nodes.map fun n => { n with mesh := n.mesh.map (Valid.clearMaterial id) } }
  have he : NodeEdit s t := by
    refine ⟨Placed.ids_map ?_ s.nodes, rfl⟩
    exact fun _ => rfl
  have hview : t.nodeAt =
      s.nodeAt.edit fun _ n => { n with mesh := n.mesh.map (Valid.clearMaterial id) } :=
    funext fun x => rowAt_map _
  have hq : Quiet t (s.forgetMaterial id) := by
    refine Quiet.foldl (fun s g => ?_) (s.drawnWith id) t
    exact .modifyGeometry (.refl s) (fun _ => rfl) fun _ => rfl
  obtain ⟨ht, hmarked⟩ := hq (he.sound hv.sound)
  have hcontents := contents_forgetting hv hc he hview hslot (by rw [hk]; decide) fun x n hn => ?_
  · refine revision_destroy ht ((Valid.forgetMaterial_spec hv.sound id).2.1 ▸ hslot) fun x _ => ?_
    rw [hmarked, hcontents]
    rfl
  · cases hb : n.mesh with
    | none => simp
    | some b =>
      obtain ⟨k, hx, -⟩ := contents_of_nodeAt hn
      have hgeometry : b.geometry ≠ id := by
        rintro rfl
        have hkind := kind_of_refers hv hc hx hslot (.geometry hb)
        rw [hk] at hkind
        cases hkind
      by_cases hmaterial : b.material = id <;>
        simp [MeshBinding.forget, Valid.clearMaterial, hgeometry, hmaterial]

theorem revision_destroyShader (hslot : s.slots.get? id = some slot) (hk : slot.kind = .shader) :
    View.Revision s.contents [.destroyed id] ((s.forgetShader id).removeSlot id slot).contents := by
  have hid := hv.sound.ne_null hslot
  have hkind : s.contents.kindOf? id = some .shader := by
    rw [kindOf?_contents hv.sound, kindOf?_of_slot hslot, hk]
  have hview : (s.forgetShader id).materialAt = s.materialAt.edit fun _ m =>
      { m with shader := if m.shader = id then .null else m.shader } :=
    funext fun x => rowAt_map _
  have hcontents : (s.forgetShader id).contents = s.contents.edit fun _ => Content.forget id := by
    refine contents_edit Role.material.accepts rfl (fun k hk => ?_) (fun k hk => ?_)
      fun x c hx hc' => hc.forget_eq hx hid fun k hr he => ?_
    · cases k <;> first | rfl | cases hk
    · obtain rfl : k = .material := of_decide_eq_true hk
      simp only [record, rowOf, View.map_map, hview]
      exact View.map_edit fun _ _ _ => rfl
    · obtain rfl : ComponentKind.shader = k := Option.some.inj (hkind.symm.trans he)
      -- a reference to a shader, but not in a material
      cases hr
      rw [kind_of_shader hx hid] at hc'
      cases hc'
  refine revision_destroy (hv.sound.forgetShader id) hslot fun x _ => ?_
  rw [hcontents]
  rfl

end Removals

/-- A step revises the contents as its changes say. -/
theorem Step.revision [Mat4.Arithmetic] {as : List Aside} (h : Step as s cs s') (hv : Valid s)
    (hc : View.Closed s.contents) : View.Revision s.contents cs s'.contents := by
  have hs := hv.sound
  cases h with
  | draw | reserve => exact .keep
  | add hid hfree hc =>
    rw [contents_add hs hfree]
    exact .create _ _ (contents_of_free hfree)
  | rename hn name =>
    exact revision_modifyNode [.name (Name.clamp name)] hs hn (fun _ => rfl) fun k n =>
      congrArg (Content.mk k n.mesh .null) (funext fun φ => by cases φ <;> rfl)
  | @place id n f d hn hf hd =>
    have hid : ∀ n, (f n).id = n.id := fun n => by rw [hf]
    have he : NodeEdit s (s.modifyNode id f) := .modifyNode s id hid
    have hq : Quiet (s.modifyNode id f) ((s.modifyNode id f).flag id .local) :=
      (Relinked.refl.flag id .local).quiet
    rw [(hq (he.sound hs)).2]
    exact revision_modifyNode [d] hs hn hid hd
  | flag id g => exact (Relinked.refl.flag id g).quiet.revision hs
  | detach c => exact ((Relinked.refl.detach c).flag c .world).quiet.revision hs
  | @attach c p => exact ((Relinked.refl.detach c).adopt p c).quiet.revision hs
  | @bare p n hp =>
    have hbare : Relinked s (s.modifyNode p fun n => { n with children := [] }) :=
      .modifyLinks .refl fun _ => rfl
    exact (hbare.adoptAll .null n.children).quiet.revision hs
  | geometry ds hg hf hd =>
    obtain ⟨k, hk, -⟩ := kindOf?_of_rowAt hg
    exact revision_assign hs hk (contents_modifyGeometry hs hg hd)
  | geometries hf hd => exact (quiet_geometries (fun g => (hf g).1) hd).revision hs
  | material ds hm hf hd =>
    obtain ⟨k, hk, -⟩ := kindOf?_of_rowAt hm
    exact revision_assign hs hk (contents_modifyMaterial hs hm hd)
  | reshade hm ha => exact revision_reshade hs hm ha
  | shader ds ha hf hd =>
    obtain ⟨k, hk, -⟩ := kindOf?_of_rowAt ha
    exact revision_assign hs hk (contents_modifyShader hs ha hd)
  | texture ds ht hf hd =>
    obtain ⟨k, hk, -⟩ := kindOf?_of_rowAt ht
    exact revision_assign hs hk (contents_modifyTexture hs ht hd)
  | rebind hn hg hm => exact revision_rebind hs hn hg hm
  | rebatch id =>
    refine Quiet.revision ?_ hs
    exact .modifyGeometry (.refl s) (fun _ => rfl) fun _ => rfl
  | rebuild _ hn =>
    rw [contents_rebuiltFrom hv hn]
    exact .keep
  | destroyNode hn hslot hk => exact revision_destroyNode hv hc hn hslot hk
  | destroyGeometry hslot hk => exact revision_destroyGeometry hv hc hslot hk
  | destroyMaterial hslot hk => exact revision_destroyMaterial hv hc hslot hk
  | destroyShader hslot hk => exact revision_destroyShader hv hc hslot hk
  | destroyTexture hslot hk => exact revision_destroyTexture hv hc hslot hk

/-- Steps leave no reference to what is gone. -/
theorem Steps.closed [Mat4.Arithmetic] {as : List Aside} (h : Steps as s cs s') (hv : Valid s)
    (hc : View.Closed s.contents) : View.Closed s'.contents := by
  induction h with
  | refl => exact hc
  | tail h h' ih => exact (h'.revision (h.valid hv) ih).closed ih

/-- After steps, kinds and fields are as the changes of the steps tell them. -/
theorem Steps.entryOf_eq [Mat4.Arithmetic] {as : List Aside} (h : Steps as s cs s') (hv : Valid s)
    (hc : View.Closed s.contents) (x : ComponentId) :
    s'.entryOf x = cs.foldl (Change.tell x) (s.entryOf x) := by
  induction h with
  | refl => rfl
  | tail h h' ih =>
    have hstep := (h'.revision (h.valid hv) (h.closed hv hc)).entryOf_eq x
    rw [entryOf_contents, entryOf_contents, ih] at hstep
    rw [hstep, List.foldl_append]

end Scene

end SceneGraph
