import SceneGraph.Proofs.Steps
import SceneGraph.Scene.Apply

/-!
# Edits are steps or change nothing

Every edit of a valid scene either takes it through steps or is refused and leaves it as it is. An
edit that asks for what it needs before it changes anything has this for free; where an edit asks
again later, the answer is known to be a good one.
-/

namespace SceneGraph.Scene

variable {α β : Type} {s s' : Scene} {id c p : ComponentId} {n : Node} {g : Staleness}
  {cs : List Change} {as : List Aside}

/-- The scene went through steps with these changes, or the edit was refused and the scene is as it
was. -/
def Outcome [Mat4.Arithmetic] (as : List Aside) (s : Scene) (cs : List Change) :
    EStateM.Result SceneError Scene α → Prop
  | .ok _ s' => Steps as s cs s'
  | .error _ s' => s' = s

section Runs

variable {ε σ : Type} {e : EStateM ε σ α} {f : α → EStateM ε σ β} {t t' : σ}

theorem bind_ok {a : α} (h : e t = .ok a t') : (e >>= f) t = f a t' := by
  simp only [bind, EStateM.bind, h]

theorem bind_error {err : ε} (h : e t = .error err t') : (e >>= f) t = .error err t' := by
  simp only [bind, EStateM.bind, h]

theorem run_modify (f : Scene → Scene) : (modify f : SceneEdit Unit) s = .ok () (f s) := rfl

theorem run_get : (get : SceneEdit Scene) s = .ok s s := rfl

theorem discard_eq (e : SceneEdit α) : discard e = (e >>= fun _ => pure ()) := by
  funext s
  change EStateM.map (fun _ => ()) e s = EStateM.bind e _ s
  unfold EStateM.map EStateM.bind
  cases e s with
  | ok a s' => rfl
  | error err s' => rfl

theorem run_updateNode {f : Node → Node} (hn : s.nodeAt id = some n) :
    updateNode id f s = .ok () (s.modifyNode id f) :=
  bind_ok (run_ask_ok (node_eq_ok.mpr hn))

theorem run_setStale (hn : s.nodeAt id = some n) : setStale id g s = .ok () (s.flag id g) :=
  bind_ok (run_ask_ok (node_eq_ok.mpr hn))

theorem run_updateGeometry {f : Geometry → Geometry} {a : Geometry}
    (hg : s.geometryAt id = some a) : updateGeometry id f s = .ok () (s.modifyGeometry id f) :=
  bind_ok (run_ask_ok (geometry_eq_ok.mpr hg))

end Runs

namespace Outcome

variable [Mat4.Arithmetic]

theorem ask {f : Scene → Except SceneError α} {e : α → SceneEdit β}
    (h : ∀ a, f s = .ok a → Outcome as s cs (e a s)) : Outcome as s cs ((Scene.ask f >>= e) s) := by
  cases hf : f s with
  | error err =>
    rw [bind_error (run_ask_error hf)]
    rfl
  | ok a =>
    rw [bind_ok (run_ask_ok hf)]
    exact h a hf

theorem asked (f : Scene → Except SceneError α) : Outcome as s [] (Scene.ask f s) := by
  cases hf : f s with
  | error err =>
    rw [run_ask_error hf]
    rfl
  | ok a =>
    rw [run_ask_ok hf]
    exact Steps.refl

theorem get {e : Scene → SceneEdit α} (h : Outcome as s cs (e s s)) :
    Outcome as s cs ((MonadState.get >>= e : SceneEdit α) s) := h

theorem one {a : α} (h : Step as s cs s') :
    Outcome as s cs (.ok a s' : EStateM.Result SceneError Scene α) :=
  Steps.single h

theorem none {a : α} : Outcome as s [] (.ok a s : EStateM.Result SceneError Scene α) :=
  Steps.refl

theorem throw {err : SceneError} {e : β → SceneEdit α} :
    Outcome as s cs ((MonadExcept.throw err >>= e : SceneEdit α) s) := rfl

theorem refused {err : SceneError} :
    Outcome as s cs (.error err s : EStateM.Result SceneError Scene α) := rfl

end Outcome

section Hierarchy

theorem setStale_outcome [Mat4.Arithmetic] (id : ComponentId) (g : Staleness) :
    Outcome as s [] (setStale id g s) :=
  .ask fun _ _ => .one (.flag id g)

/-- A node gets other values of its own and is flagged. -/
theorem place_outcome [Mat4.Arithmetic] {f : Node → Node} {d : Datum} (hs : Sound s)
    (hf : ∀ n, f n =
      { n with position := (f n).position, rotation := (f n).rotation, scale := (f n).scale })
    (hd : ∀ n φ, (f n).datum? φ = Datum.assign [d] φ (n.datum? φ)) :
    Outcome as s [.assigned id d]
      ((do updateNode id f; setStale id .local : SceneEdit Unit) s) := by
  cases hn : s.nodeAt id with
  | none =>
    obtain ⟨e, he⟩ := find_eq_error hn
    have hupdate : updateNode id f s = .error e s := bind_error (run_ask_error he)
    rw [bind_error hupdate]
    exact .refused
  | some n =>
    have hn' : (s.modifyNode id f).nodeAt id = some (f n) := by
      rw [nodeAt_modifyNode hs]
      exact View.edit_eq_some.mpr ⟨n, hn, if_pos rfl⟩
    rw [bind_ok (run_updateNode hn), run_setStale hn']
    refine .one (.place hn hf fun k n => ?_)
    have hmesh : (f n).mesh = n.mesh := by rw [hf]
    rw [Node.content, hmesh, funext (hd n)]
    rfl

theorem setPosition_outcome [Mat4.Arithmetic] (hs : Sound s) (id : ComponentId) (position : Vec3) :
    Outcome as s [.assigned id (.position position)] (setPosition id position s) :=
  place_outcome hs (fun _ => rfl) fun _ φ => by cases φ <;> rfl

theorem setRotation_outcome [Mat4.Arithmetic] (hs : Sound s) (id : ComponentId) (rotation : Quat) :
    Outcome as s [.assigned id (.rotation rotation)] (setRotation id rotation s) :=
  place_outcome hs (fun _ => rfl) fun _ φ => by cases φ <;> rfl

theorem setScale_outcome [Mat4.Arithmetic] (hs : Sound s) (id : ComponentId) (scale : Vec3) :
    Outcome as s [.assigned id (.scale scale)] (setScale id scale s) :=
  place_outcome hs (fun _ => rfl) fun _ φ => by cases φ <;> rfl

theorem indexOf_of_nodeAt (hn : s.nodeAt id = some n) : ∃ i, s.indexOf .node id = .ok i := by
  obtain ⟨kind, i, hslot, hk, -⟩ := rowAt_eq_some.mp hn
  exact ⟨i, indexOf_eq_ok.mpr ⟨kind, hslot, hk⟩⟩

theorem nodeAt_of_indexOf (hs : Sound s) {i : ℕ} (hi : s.indexOf .node id = .ok i) :
    ∃ n, s.nodeAt id = some n := by
  obtain ⟨kind, hslot, hk⟩ := indexOf_eq_ok.mp hi
  exact hs.nodes.slot_iff.mp ⟨kind, i, hslot, hk⟩

/-- Attaching is refused where it would close a cycle. -/
theorem run_addChild_cycle {m : Node} (hc : s.nodeAt c = some n) (hp : s.nodeAt p = some m)
    (h : c = p ∨ s.isAncestor c p) : addChild p c s = .error (.cycle p c) s := by
  obtain ⟨i, hi⟩ := indexOf_of_nodeAt hp
  rw [addChild, bind_ok (run_ask_ok hi), bind_ok (run_ask_ok (node_eq_ok.mpr hc)),
    bind_ok run_get]
  simp only [if_pos h]
  exact bind_error rfl

theorem run_addChild_same {m : Node} (hc : s.nodeAt c = some n) (hp : s.nodeAt p = some m)
    (h : ¬ (c = p ∨ s.isAncestor c p)) (hnp : n.parent = p) : addChild p c s = .ok () s := by
  obtain ⟨i, hi⟩ := indexOf_of_nodeAt hp
  rw [addChild, bind_ok (run_ask_ok hi), bind_ok (run_ask_ok (node_eq_ok.mpr hc)),
    bind_ok run_get]
  simp only [if_neg h, if_pos hnp]
  rfl

theorem run_addChild [Mat4.Arithmetic] {m : Node} (hv : Valid s) (hc : s.nodeAt c = some n)
    (hp : s.nodeAt p = some m) (h : ¬ (c = p ∨ s.isAncestor c p)) (hnp : n.parent ≠ p) :
    addChild p c s = .ok () ((s.detach c).adopt p c) := by
  obtain ⟨i, hi⟩ := indexOf_of_nodeAt hp
  have hs : Sound (s.detach c) := (nodeEdit_detach s c).sound hv.sound
  have hdetach := nodeAt_detach hv.sound hv.rooted c
  obtain ⟨n₁, hn₁⟩ : ∃ n, (s.detach c).nodeAt c = some n := by
    rw [hdetach]
    exact ⟨_, View.edit_of_some hc⟩
  obtain ⟨m₁, hm₁⟩ : ∃ n, ((s.detach c).modifyNode c fun n => { n with parent := p }).nodeAt p =
      some n := by
    rw [nodeAt_modifyNode hs, hdetach]
    exact ⟨_, View.edit_of_some (View.edit_of_some hp)⟩
  have hs₁ : Sound ((s.detach c).modifyNode c fun n => { n with parent := p }) := by
    have he : NodeEdit (s.detach c) ((s.detach c).modifyNode c fun n => { n with parent := p }) :=
      .modifyNode _ c fun _ => rfl
    exact he.sound hs
  obtain ⟨n₂, hn₂⟩ : ∃ n, (((s.detach c).modifyNode c fun n => { n with parent := p }).modifyNode p
      fun p => { p with children := p.children ++ [c] }).nodeAt c = some n := by
    rw [nodeAt_modifyNode hs₁, nodeAt_modifyNode hs]
    exact ⟨_, View.edit_of_some (View.edit_of_some hn₁)⟩
  rw [addChild, bind_ok (run_ask_ok hi), bind_ok (run_ask_ok (node_eq_ok.mpr hc)),
    bind_ok run_get]
  simp only [if_neg h, if_neg hnp]
  rw [bind_ok (run_modify _), bind_ok (run_updateNode hn₁), bind_ok (run_updateNode hm₁),
    run_setStale hn₂]
  rfl

/-- What the test for cycles finds. -/
theorem cycle_iff_under [Mat4.Arithmetic] (hv : Valid s) :
    c = p ∨ s.isAncestor c p ↔ Under s.nodeAt.up p c := by
  rw [isAncestor_iff hv.sound hv.rooted, Under.eq_or_above, eq_comm]

theorem addChild_outcome [Mat4.Arithmetic] (hv : Valid s) (p c : ComponentId) :
    Outcome as s [] (addChild p c s) := by
  cases hi : s.indexOf .node p with
  | error e =>
    rw [addChild, bind_error (run_ask_error hi)]
    exact .refused
  | ok i =>
    obtain ⟨m, hm⟩ := nodeAt_of_indexOf hv.sound hi
    cases hc : s.node c with
    | error e =>
      rw [addChild, bind_ok (run_ask_ok hi), bind_error (run_ask_error hc)]
      exact .refused
    | ok n =>
      have hn := node_eq_ok.mp hc
      by_cases h : c = p ∨ s.isAncestor c p
      · rw [run_addChild_cycle hn hm h]
        exact .refused
      · by_cases hnp : n.parent = p
        · rw [run_addChild_same hn hm h hnp]
          exact .none
        · rw [run_addChild hv hn hm h hnp]
          exact .one (.attach hn hm (mt (cycle_iff_under hv).mpr h))

/-- Taking a child away from its parent. -/
theorem run_detachChild [Mat4.Arithmetic] (hv : Valid s) (hc : s.nodeAt c = some n) :
    (do modify fun s => s.detach c
        setStale c .world : SceneEdit Unit) s = .ok () ((s.detach c).flag c .world) := by
  obtain ⟨n₁, hn₁⟩ : ∃ n, (s.detach c).nodeAt c = some n := by
    rw [nodeAt_detach hv.sound hv.rooted]
    exact ⟨_, View.edit_of_some hc⟩
  rw [bind_ok (run_modify _), run_setStale hn₁]

theorem removeChild_outcome [Mat4.Arithmetic] (hv : Valid s) (p c : ComponentId) :
    Outcome as s [] (removeChild p c s) := by
  refine .ask fun i hi => .ask fun n hn => ?_
  by_cases hnp : n.parent = p
  · simp only [if_neg (not_not.mpr hnp)]
    rw [run_detachChild hv (node_eq_ok.mp hn)]
    exact .one (.detach c)
  · simp only [if_pos hnp]
    exact .throw

/-- Taking a child away from a parent that lists it no longer. -/
theorem run_takeChild (hs : Sound s) (hc : s.nodeAt c = some n) :
    (do modify fun s => s.modifyNode c fun n => { n with parent := .null }
        setStale c .world : SceneEdit Unit) s = .ok () (s.adopt .null c) := by
  have he : NodeEdit s (s.modifyNode c fun n => { n with parent := .null }) :=
    .modifyNode s c fun _ => rfl
  obtain ⟨n₁, hn₁⟩ : ∃ m,
      (s.modifyNode c fun n => { n with parent := .null }).nodeAt c = some m := by
    rw [nodeAt_modifyNode hs]
    exact ⟨_, View.edit_of_some hc⟩
  rw [bind_ok (run_modify _), run_setStale hn₁, adopt, modifyNode_null (he.sound hs)]

theorem run_takeChildren (hs : Sound s) {d : ComponentId} {cs : List ComponentId}
    (h : View.Handover s.nodeAt d .null cs) :
    (cs.forM fun c => do
      modify fun s => s.modifyNode c fun n => { n with parent := .null }
      setStale c .world : SceneEdit Unit) s = .ok () (cs.foldl (fun s c => s.adopt .null c) s) := by
  induction cs generalizing s with
  | nil => rfl
  | cons c cs ih =>
    obtain ⟨-, ⟨n, hn⟩, -⟩ := h.child
    have hv : (s.adopt .null c).nodeAt = (s.nodeAt.link .null c).flag c .world :=
      nodeAt_adopt hs h.rooted_link (fun x _ => h.marked x) hn
    have hrest := ih ((nodeEdit_adopt s .null c).sound hs) (hv ▸ h.step)
    exact (bind_ok (run_takeChild hs hn)).trans hrest

theorem run_removeAllChildren [Mat4.Arithmetic] (hv : Valid s) (hp : s.nodeAt p = some n) :
    removeAllChildren p s = .ok n.children.length (n.children.foldl (fun s c => s.adopt .null c)
      (s.modifyNode p fun n => { n with children := [] })) := by
  have he : NodeEdit s (s.modifyNode p fun n => { n with children := [] }) :=
    .modifyNode s p fun _ => rfl
  rw [removeAllChildren, bind_ok (run_ask_ok (node_eq_ok.mpr hp)), bind_ok (run_modify _),
    bind_ok (run_takeChildren (he.sound hv.sound) (hv.handover_bare hp))]
  rfl

theorem removeAllChildren_outcome [Mat4.Arithmetic] (hv : Valid s) (p : ComponentId) :
    Outcome as s [] (removeAllChildren p s) := by
  cases hn : s.nodeAt p with
  | none =>
    obtain ⟨e, he⟩ := find_eq_error hn
    rw [removeAllChildren, bind_error (run_ask_error he)]
    exact .refused
  | some n =>
    rw [run_removeAllChildren hv hn]
    exact .one (.bare hn)

theorem reparent_outcome [Mat4.Arithmetic] (hv : Valid s) (c : ComponentId)
    (p : Option ComponentId) : Outcome as s [] (reparent c p s) := by
  cases p with
  | some p => exact addChild_outcome hv p c
  | none =>
    refine .ask fun n hn => ?_
    cases hp : n.parent.nonNull with
    | none => exact .none
    | some q => exact removeChild_outcome hv q c

end Hierarchy

section Components

theorem free_of_not_contains (h : ¬ s.contains id) : s.slots.get? id = none := by
  rw [contains, IdMap.contains, Option.isSome_iff_ne_none, not_not] at h
  exact h

/-- A component under an identifier that may be used. -/
theorem run_insert {kind : ComponentKind} (hid : id ≠ .null) (hfree : s.slots.get? id = none)
    (name : String) : insert kind id name s = .ok () ((s.reserve id).add kind id name) := by
  have hnull : ¬ id.isNull := by simpa using hid
  have hcontains : ¬ s.contains id := by
    simp [contains, IdMap.contains, hfree]
  rw [insert, bind_ok run_get]
  simp only [if_neg hnull, if_neg hcontains]
  rfl

theorem run_insert_null (kind : ComponentKind) (name : String) :
    insert kind .null name s = .error .nullId s := rfl

theorem steps_insert [Mat4.Arithmetic] {kind : ComponentKind} (has : .reserve id ∈ as)
    (hid : id ≠ .null) (hfree : s.slots.get? id = none) (name : String) :
    Steps as s [.created kind id name] ((s.reserve id).add kind id name) :=
  .tail (.single (.reserve has)) (.add hid hfree (s.ids.covers_reserve id))

theorem insert_cases (kind : ComponentKind) (id : ComponentId) (name : String) :
    (∃ e, insert kind id name s = .error e s) ∨
      id ≠ .null ∧ s.slots.get? id = none ∧
        insert kind id name s = .ok () ((s.reserve id).add kind id name) := by
  by_cases hid : id = .null
  · rw [hid]
    exact .inl ⟨.nullId, run_insert_null kind name⟩
  · by_cases hcontains : s.contains id
    · refine .inl ⟨.duplicateId id, ?_⟩
      rw [insert, bind_ok run_get]
      simp only [ComponentId.isNull_eq_false hid, if_pos hcontains]
      exact bind_error rfl
    · have hfree := free_of_not_contains hcontains
      exact .inr ⟨hid, hfree, run_insert hid hfree name⟩

theorem insert_outcome [Mat4.Arithmetic] (has : .reserve id ∈ as) (kind : ComponentKind)
    (name : String) : Outcome as s [.created kind id name] (insert kind id name s) := by
  rcases insert_cases kind id name with ⟨e, he⟩ | ⟨hid, hfree, ht⟩
  · rw [he]
    exact .refused
  · rw [ht]
    exact steps_insert has hid hfree name

/-- An identifier that is drawn from the counter is new. -/
theorem fresh_allocated (hc : Covered s) (hi : s.ids.next.toNat < UInt64.size - 1) :
    s.allocate.1 ≠ .null ∧ s.slots.get? s.allocate.1 = none := by
  constructor
  · intro he
    exact IdSource.not_covers_allocated hi (he ▸ hc.null)
  · cases hslot : s.slots.get? s.allocate.1 with
    | none => rfl
    | some slot => exact absurd (hc.live hslot) (IdSource.not_covers_allocated hi)

theorem steps_create [Mat4.Arithmetic] (has : .draw ∈ as) (hc : Covered s)
    (hi : s.ids.next.toNat < UInt64.size - 1) (kind : ComponentKind) (name : String) :
    Steps as s [.created kind s.allocate.1 name] (s.create kind name).2 := by
  obtain ⟨hid, hfree⟩ := fresh_allocated hc hi
  exact .tail (.single (.draw has hi)) (.add hid hfree (IdSource.covers_allocated hi))

theorem setName_outcome [Mat4.Arithmetic] (id : ComponentId) (name : String) :
    Outcome as s [.assigned id (.name (Name.clamp name))] (setName id name s) := by
  refine .ask fun a ha => .one ?_
  have hrow := row_of_component ha
  cases a with
  | transform n => exact .rename hrow name
  | mesh n => exact .rename hrow name
  | geometry g =>
    exact .geometry [.name (Name.clamp name)] hrow (fun _ => ⟨rfl, rfl, rfl, rfl⟩) fun g =>
      content_geometry fun φ => by cases φ <;> rfl
  | material m =>
    exact .material [.name (Name.clamp name)] hrow (fun _ => rfl) fun m =>
      content_material rfl fun φ => by cases φ <;> rfl
  | shader a =>
    exact .shader [.name (Name.clamp name)] hrow (fun _ => rfl) fun a =>
      content_shader fun φ => by cases φ <;> rfl
  | texture t =>
    exact .texture [.name (Name.clamp name)] hrow (fun _ => rfl) fun t =>
      content_texture fun φ => by cases φ <;> rfl

/-- Taking a node out of the hierarchy and out of its geometry is never refused. -/
theorem run_orphan (hs : Sound s) (hn : s.nodeAt id = some n) :
    orphan id s = .ok () (s.orphaned id n) := by
  have hs' : Sound (s.handedOver id n) := (nodeEdit_handedOver s id n).sound hs
  have hnull : ∀ f : Geometry → Geometry, (s.handedOver id n).modifyGeometry .null f =
      s.handedOver id n := by
    intro f
    simp [modifyGeometry, modifyRow, indexOf, slot?, hs'.null]
  rw [orphan, bind_ok (run_ask_ok (node_eq_ok.mpr hn)), bind_ok (run_modify _),
    bind_ok (run_modify _), bind_ok (run_modify _), orphaned]
  cases n.mesh with
  | none => exact congrArg (EStateM.Result.ok ()) (hnull _).symm
  | some b =>
    by_cases hb : b.geometry = .null
    · simp only [Option.getD_some, hb]
      exact congrArg (EStateM.Result.ok ()) (hnull _).symm
    · simp only [ComponentId.isNull_eq_false hb, Option.getD_some]
      rfl

/-- Destroying a node is never refused either. -/
theorem run_destroyNode (hs : Sound s) {slot : Slot} (hslot : s.slots.get? id = some slot)
    (hk : Role.node.accepts slot.kind) : ∃ n, s.nodeAt id = some n ∧
      destroy id s = .ok slot.kind ((s.orphaned id n).removeSlot id slot) := by
  obtain ⟨n, hn⟩ := hs.nodes.slot_iff.mp ⟨slot.kind, slot.index, hslot, hk⟩
  refine ⟨n, hn, ?_⟩
  have hfound : s.slot? id = some slot := hslot
  rw [destroy, bind_ok run_get, hfound]
  obtain ⟨kind, i⟩ := slot
  cases kind with
  | transform | mesh =>
    dsimp only
    rw [bind_ok (run_orphan hs hn)]
    rfl
  | geometry | material | shader | texture => cases hk

theorem destroy_outcome [Mat4.Arithmetic] (hs : Sound s) (id : ComponentId) :
    Outcome as s [.destroyed id] (destroy id s) := by
  cases hslot : s.slot? id with
  | none =>
    rw [destroy, bind_ok run_get, hslot]
    exact .refused
  | some slot =>
    have hnode : Role.node.accepts slot.kind →
        Outcome as s [.destroyed id] (destroy id s) := by
      intro hk
      obtain ⟨n, hn, hrun⟩ := run_destroyNode hs hslot hk
      rw [hrun]
      exact .one (.destroyNode hn hslot hk)
    cases hk : slot.kind with
    | transform => exact hnode (by rw [hk]; rfl)
    | mesh => exact hnode (by rw [hk]; rfl)
    | geometry =>
      simp only [destroy, bind_ok run_get, hslot, hk]
      exact .one (.destroyGeometry hslot hk)
    | material =>
      simp only [destroy, bind_ok run_get, hslot, hk]
      exact .one (.destroyMaterial hslot hk)
    | shader =>
      simp only [destroy, bind_ok run_get, hslot, hk]
      exact .one (.destroyShader hslot hk)
    | texture =>
      simp only [destroy, bind_ok run_get, hslot, hk]
      exact .one (.destroyTexture hslot hk)

end Components

section Geometries

theorem updateGeometry_outcome [Mat4.Arithmetic] (id : ComponentId) {f : Geometry → Geometry}
    (ds : List Datum) (hf : Valid.Inert f)
    (hd : ∀ g φ, (f g).datum? φ = Datum.assign ds φ (g.datum? φ)) :
    Outcome as s (ds.map (Change.assigned id)) (updateGeometry id f s) :=
  .ask fun _ hg => .one (.geometry ds (geometry_eq_ok.mp hg) hf fun g => content_geometry (hd g))

/-- The data of a vertex stream that was replaced. -/
theorem datum?_setStream (g : Geometry) {location : ℕ} (h : location < streamLimit)
    (components : UInt32) (data : List Scalar) (φ : Field) :
    { g with
      streams := g.streams.set location (g.streams[location].replace components data) h
      verticesDirty := true }.datum? φ =
      Datum.assign [.stream location components data] φ (g.datum? φ) := by
  cases φ with
  | stream l =>
    by_cases hl : location = l
    · subst hl
      simp [Geometry.datum?, Datum.assign, Datum.field, h]
      rfl
    · simp [Geometry.datum?, Datum.assign, Datum.field, hl]
  | _ => rfl

theorem setVertexAttribute_outcome [Mat4.Arithmetic] (id : ComponentId)
    (location components : UInt32) (data : List Scalar) :
    Outcome as s [.assigned id (.stream location.toNat components data)]
      (setVertexAttribute id location components data s) := by
  refine .ask fun g hg => ?_
  by_cases hdata : components = 0 ∨ data.length % components.toNat ≠ 0
  · simp only [if_pos hdata]
    exact .throw
  · by_cases hlocation : location.toNat < streamLimit
    · simp only [if_neg hdata, dif_pos hlocation]
      exact .one (.geometry [.stream location.toNat components data] (geometry_eq_ok.mp hg)
        (fun _ => ⟨rfl, rfl, rfl, rfl⟩) fun g =>
          content_geometry (datum?_setStream g hlocation components data))
    · simp only [if_neg hdata, dif_neg hlocation]
      exact .refused

theorem setIndices_outcome [Mat4.Arithmetic] (id : ComponentId) (indices : List UInt32) :
    Outcome as s [.assigned id (.indices indices)] (setIndices id indices s) := by
  refine updateGeometry_outcome id [.indices indices] (fun _ => ⟨rfl, rfl, rfl, rfl⟩) fun g φ => ?_
  cases φ with
  | indices => simp [Geometry.datum?, Geometry.indexList, Datum.assign, Datum.field]
  | _ => rfl

theorem setVertexCount_outcome [Mat4.Arithmetic] (id : ComponentId) (count : Int32) :
    Outcome as s [.assigned id (.vertexOverride count)] (setVertexCount id count s) :=
  updateGeometry_outcome id [.vertexOverride count] (fun _ => ⟨rfl, rfl, rfl, rfl⟩) fun _ φ => by
    cases φ <;> rfl

theorem setIndicesCount_outcome [Mat4.Arithmetic] (id : ComponentId) (count : Int32) :
    Outcome as s [.assigned id (.indexOverride count)] (setIndicesCount id count s) :=
  updateGeometry_outcome id [.indexOverride count] (fun _ => ⟨rfl, rfl, rfl, rfl⟩) fun _ φ => by
    cases φ <;> rfl

theorem inert_takeUpload : Valid.Inert fun g => g.takeUpload.2 := by
  intro g
  by_cases hg : g.uploadPending <;> simp [Geometry.takeUpload, hg]

theorem inert_takeVertexChanges : Valid.Inert fun g => g.takeVertexChanges.2 :=
  fun _ => ⟨rfl, rfl, rfl, rfl⟩

theorem datum?_takeUpload (g : Geometry) : g.takeUpload.2.datum? = g.datum? := by
  by_cases hg : g.uploadPending
  · simp only [Geometry.takeUpload, if_pos hg]
    rfl
  · simp only [Geometry.takeUpload, if_neg hg]

theorem takeInstanceUpload_outcome [Mat4.Arithmetic] (id : ComponentId) :
    Outcome as s [] (takeInstanceUpload id s) :=
  .ask fun _ hg => .one (.geometry [] (geometry_eq_ok.mp hg) inert_takeUpload fun g =>
    content_geometry (congrFun (datum?_takeUpload g)))

theorem takeVertexChanges_outcome [Mat4.Arithmetic] (id : ComponentId) :
    Outcome as s [] (takeVertexChanges id s) :=
  .ask fun _ hg => .one (.geometry [] (geometry_eq_ok.mp hg) inert_takeVertexChanges fun _ => rfl)

theorem step_takeAll [Mat4.Arithmetic] (s : Scene) : Step as s [] s.takeAll.2 := by
  refine .geometries (f := fun g => g.takeUpload.2.takeVertexChanges.2) (fun g => ?_) fun g => ?_
  · exact inert_takeUpload g
  · exact datum?_takeUpload g

theorem rebuildGeometry_outcome [Mat4.Arithmetic] (id : ComponentId) :
    Outcome as s [] (rebuildGeometry id s) :=
  .ask fun _ _ => .one (.rebatch id)

theorem steps_rebatchAll [Mat4.Arithmetic] (l : List ComponentId) :
    Steps as s [] (l.foldl rebatch s) := by
  induction l generalizing s with
  | nil => exact .refl
  | cons id l ih => exact .trans (.single (.rebatch id)) ih

theorem steps_rebuildStaleGeometries [Mat4.Arithmetic] (s : Scene) :
    Steps [] s [] s.rebuildStaleGeometries.2 :=
  steps_rebatchAll _

theorem rebuildMatrices_outcome [Mat4.Arithmetic] (has : .rebuild ∈ as) (hs : Sound s)
    (root : ComponentId) : Outcome as s [] (rebuildMatrices root s) := by
  refine .ask fun i hi => ?_
  obtain ⟨n, hn⟩ := nodeAt_of_indexOf hs hi
  exact .one (.rebuild has hn)

theorem steps_rebuildRoot [Mat4.Arithmetic] (has : .rebuild ∈ as) (hs : Sound s)
    (stats : RebuildStats) (root : ComponentId) :
    Steps as s [] (rebuildRoot (s, stats) root).1 := by
  cases hi : s.indexOf .node root with
  | error e =>
    simp only [rebuildRoot, hi]
    exact .refl
  | ok i =>
    obtain ⟨n, hn⟩ := nodeAt_of_indexOf hs hi
    rw [rebuildRoot_fst stats hn]
    exact .single (.rebuild has hn)

theorem steps_rebuildAllMatrices [Mat4.Arithmetic] (hv : Valid s) :
    Steps [.rebuild] s [] s.rebuildAllMatrices.1 := by
  have key : ∀ (l : List ComponentId) (s : Scene) (stats : RebuildStats), Valid s →
      Steps [.rebuild] s [] (l.foldl rebuildRoot (s, stats)).1 := by
    intro l
    induction l with
    | nil => exact fun s stats _ => .refl
    | cons root l ih =>
      intro s stats hv
      have hfirst := steps_rebuildRoot (List.mem_singleton.mpr rfl) hv.sound stats root
      exact hfirst.trans (ih _ _ (hfirst.valid hv))
  exact key _ s {} hv

/-- A question that is asked under a condition only. -/
theorem askIf_cases {b : Bool} {f : Scene → Except SceneError α} :
    (∀ e : SceneEdit β, ∃ err,
      (if b = true then Scene.ask f >>= fun _ => e else e) s = .error err s) ∨
    (b = true → ∃ a, f s = .ok a) ∧
      ∀ e : SceneEdit β, (if b = true then Scene.ask f >>= fun _ => e else e) s = e s := by
  cases b with
  | false =>
    refine .inr ⟨fun hb => ?_, fun e => rfl⟩
    cases hb
  | true =>
    cases hf : f s with
    | error err => exact .inl fun e => ⟨err, bind_error (run_ask_error hf)⟩
    | ok a => exact .inr ⟨fun _ => ⟨a, rfl⟩, fun e => bind_ok (run_ask_ok hf)⟩

/-- What is left of binding a mesh when it is known that all parties exist. -/
def bindMesh (id geometry material : ComponentId) : SceneEdit Unit := do
  let n ← Scene.ask (mesh · id)
  let old := n.mesh.getD {}
  modify fun s => s.modifyNode id fun n => { n with mesh := some { geometry, material } }
  if old.geometry ≠ geometry then
    if !old.geometry.isNull then
      modify fun s => s.modifyGeometry old.geometry fun g => g.unbind id
    if !geometry.isNull then
      updateGeometry geometry fun g => g.bind id
  else if old.material ≠ material ∧ !geometry.isNull then
    updateGeometry geometry fun g => { g with instancesStale := true }

theorem updateMesh_eq (id geometry material : ComponentId) : updateMesh id geometry material = (do
    if !geometry.isNull then
      let _ ← Scene.ask (Scene.geometry · geometry)
    if !material.isNull then
      let _ ← Scene.ask (Scene.material · material)
    if !(← get).contains id then insert .mesh id "mesh"
    bindMesh id geometry material) := rfl

theorem modifyGeometry_null (hs : Sound s) (f : Geometry → Geometry) :
    s.modifyGeometry .null f = s := by
  simp [modifyGeometry, modifyRow, indexOf, slot?, hs.null]

theorem run_bindMesh (hs : Sound s) (hn : s.mesh id = .ok n) {geometry : ComponentId}
    (hg : geometry ≠ .null → ∃ g, s.geometryAt geometry = some g) (material : ComponentId) :
    bindMesh id geometry material s = .ok () (s.rebind id n geometry material) := by
  let t := s.modifyNode id fun n => { n with mesh := some { geometry, material } }
  have he : NodeEdit s t := .modifyNode s id fun _ => rfl
  have hst : Sound t := he.sound hs
  have hw : t.geometryAt = s.geometryAt := he.geometryAt
  rw [bindMesh, bind_ok (run_ask_ok hn), bind_ok (run_modify _), rebind]
  by_cases hold : (n.mesh.getD {}).geometry = geometry
  · simp only [if_neg (not_not.mpr hold)]
    by_cases hmaterial : (n.mesh.getD {}).material = material
    · simp only [hmaterial, ne_eq, not_true, false_and, if_false]
      rfl
    · by_cases hnull : geometry = .null
      · subst hnull
        simp only [ne_eq, hmaterial, not_false_iff, if_true]
        exact congrArg (EStateM.Result.ok ()) (modifyGeometry_null hst _).symm
      · obtain ⟨g, hgeometry⟩ := hg hnull
        simp only [ne_eq, hmaterial, not_false_iff, ComponentId.isNull_eq_false hnull, if_true,
          Bool.not_false, and_self]
        exact run_updateGeometry (hw ▸ hgeometry)
  · simp only [if_pos hold]
    have hunbind : ∀ rest : SceneEdit Unit,
        (if (!(n.mesh.getD {}).geometry.isNull) = true then
          modify (fun s => s.modifyGeometry (n.mesh.getD {}).geometry fun g => g.unbind id) >>=
            fun _ => rest
        else rest) t = rest (t.modifyGeometry (n.mesh.getD {}).geometry fun g => g.unbind id) := by
      intro rest
      by_cases hnull : (n.mesh.getD {}).geometry = .null
      · rw [hnull, modifyGeometry_null hst]
        rfl
      · rw [ComponentId.isNull_eq_false hnull]
        rfl
    refine (hunbind _).trans ?_
    have hst' : Sound (t.modifyGeometry (n.mesh.getD {}).geometry fun g => g.unbind id) :=
      (GeometryEdit.modifyGeometry t _ (Geometry.id_unbind id)).sound hst
    by_cases hnull : geometry = .null
    · subst hnull
      exact congrArg (EStateM.Result.ok ()) (modifyGeometry_null hst' _).symm
    · obtain ⟨g, hgeometry⟩ := hg hnull
      obtain ⟨g', hgeometry'⟩ : ∃ g', (t.modifyGeometry (n.mesh.getD {}).geometry
          fun g => g.unbind id).geometryAt geometry = some g' := by
        rw [geometryAt_modifyGeometry hst, hw]
        exact ⟨_, View.edit_of_some hgeometry⟩
      simp only [ComponentId.isNull_eq_false hnull, Bool.not_false, if_true]
      exact run_updateGeometry hgeometry'

/-- A mesh that was just created is found as one. -/
theorem mesh_add (hs : Sound s) (hfree : s.slots.get? id = none) (name : String) :
    ∃ n, (s.add .mesh id name).mesh id = .ok n := by
  obtain ⟨i, hi⟩ := slots_add s .mesh id name
  have hslot : (s.add .mesh id name).slots.get? id = some ⟨.mesh, i⟩ := by
    rw [hi, IdMap.get?_insert, if_pos rfl]
  obtain ⟨n, hn⟩ : ∃ n, (s.add .mesh id name).nodeAt id = some n := by
    rw [nodeAt_add hs hfree]
    exact ⟨_, if_pos rfl⟩
  refine ⟨n, find_eq_ok_iff.mpr ?_⟩
  rw [nodeAt, rowAt_of_slot hslot rfl] at hn
  rwa [rowAt_of_slot hslot rfl]

/-- What binding a mesh creates if it is not refused. -/
def meshChanges (s : Scene) (id : ComponentId) : List Change :=
  if s.contains id then [] else [.created .mesh id "mesh"]

/-- Binding a mesh anew is refused, or the mesh is there, perhaps as of now, and gets bound. -/
theorem updateMesh_cases [Mat4.Arithmetic] (has : .reserve id ∈ as) (hv : Valid s)
    (geometry material : ComponentId) :
    (∃ e, updateMesh id geometry material s = .error e s) ∨
      ∃ t n, Steps as s (s.meshChanges id) t ∧ t.mesh id = .ok n ∧
        (geometry ≠ .null → ∃ g, t.geometryAt geometry = some g) ∧
        (material ≠ .null → ∃ m, t.materialAt material = some m) ∧
        updateMesh id geometry material s = .ok () (t.rebind id n geometry material) := by
  rw [updateMesh_eq]
  rcases askIf_cases (b := !geometry.isNull) (f := (Scene.geometry · geometry)) with
    he | ⟨hgeometry, hrun⟩
  · exact .inl (he _)
  rw [hrun]
  dsimp only
  rcases askIf_cases (b := !material.isNull) (f := (Scene.material · material)) with
    he | ⟨hmaterial, hrun⟩
  · exact .inl (he _)
  rw [hrun, bind_ok run_get]
  have hg : geometry ≠ .null → ∃ g, s.geometryAt geometry = some g := by
    intro hnull
    obtain ⟨g, hg⟩ := hgeometry (by rw [ComponentId.isNull_eq_false hnull]; rfl)
    exact ⟨g, geometry_eq_ok.mp hg⟩
  have hm : material ≠ .null → ∃ m, s.materialAt material = some m := by
    intro hnull
    obtain ⟨m, hm⟩ := hmaterial (by rw [ComponentId.isNull_eq_false hnull]; rfl)
    exact ⟨m, material_eq_ok.mp hm⟩
  by_cases hcontains : s.contains id
  · simp only [hcontains, meshChanges, Bool.not_true, Bool.false_eq_true, if_false, if_true]
    cases hn : s.mesh id with
    | error e => exact .inl ⟨e, bind_error (run_ask_error hn)⟩
    | ok n => exact .inr ⟨s, n, .refl, hn, hg, hm, run_bindMesh hv.sound hn hg material⟩
  · have hfree := free_of_not_contains hcontains
    simp only [hcontains, meshChanges, Bool.not_false, Bool.false_eq_true, if_false, if_true]
    by_cases hid : id = .null
    · rw [hid]
      exact .inl ⟨.nullId, bind_error (run_insert_null _ _)⟩
    · have hsteps : Steps as s [.created .mesh id "mesh"] ((s.reserve id).add .mesh id "mesh") :=
        steps_insert has hid hfree "mesh"
      have hs' : Sound (s.reserve id) := (hv.source _).sound
      obtain ⟨n, hn⟩ := mesh_add hs' hfree "mesh"
      have hg' : geometry ≠ .null →
          ∃ g, ((s.reserve id).add .mesh id "mesh").geometryAt geometry = some g := by
        rw [geometryAt_add hs' hfree]
        exact hg
      have hm' : material ≠ .null →
          ∃ m, ((s.reserve id).add .mesh id "mesh").materialAt material = some m := by
        rw [materialAt_add hs' hfree]
        exact hm
      refine .inr ⟨_, n, hsteps, hn, hg', hm', ?_⟩
      rw [bind_ok (run_insert hid hfree "mesh")]
      exact run_bindMesh (hsteps.valid hv).sound hn hg' material

/-- The binding itself is no change to the fields of a component. -/
theorem updateMesh_outcome [Mat4.Arithmetic] (has : .reserve id ∈ as) (hv : Valid s)
    (geometry material : ComponentId) :
    Outcome as s (s.meshChanges id) (updateMesh id geometry material s) := by
  rcases updateMesh_cases has hv geometry material with ⟨e, he⟩ | ⟨t, n, hsteps, hn, hg, hm, ht⟩
  · rw [he]
    exact .refused
  · have hall := hsteps.tail (.rebind hn hg hm)
    rw [List.append_nil] at hall
    rw [ht]
    exact hall

end Geometries

section Others

variable [Mat4.Arithmetic]

theorem updateShader_outcome (id : ComponentId) {f : Shader → Shader} (ds : List Datum)
    (hf : ∀ a, (f a).id = a.id) (hd : ∀ a φ, (f a).datum? φ = Datum.assign ds φ (a.datum? φ)) :
    Outcome as s (ds.map (Change.assigned id)) (updateShader id f s) :=
  .ask fun _ ha => .one (.shader ds (shader_eq_ok.mp ha) hf fun a => content_shader (hd a))

theorem updateTexture_outcome (id : ComponentId) {f : Texture → Texture} (ds : List Datum)
    (hf : ∀ t, (f t).id = t.id) (hd : ∀ t φ, (f t).datum? φ = Datum.assign ds φ (t.datum? φ)) :
    Outcome as s (ds.map (Change.assigned id)) (updateTexture id f s) :=
  .ask fun _ ht => .one (.texture ds (texture_eq_ok.mp ht) hf fun t => content_texture (hd t))

theorem setShaderSource_outcome (id : ComponentId) (vertex fragment : String) :
    Outcome as s [.assigned id (.vertexSource vertex), .assigned id (.fragmentSource fragment)]
      (setShaderSource id vertex fragment s) :=
  updateShader_outcome id [.vertexSource vertex, .fragmentSource fragment] (fun _ => rfl)
    fun _ φ => by cases φ <;> rfl

/-- A material that is there is given a shader that is there. -/
theorem updateMaterialShader_outcome (id shader : ComponentId)
    (hs : shader ≠ .null → ∃ a, s.shaderAt shader = some a) :
    Outcome as s [] (updateMaterial id (fun m => { m with shader }) s) :=
  .ask fun _ hm => .one (.reshade (material_eq_ok.mp hm) hs)

theorem setMaterialShader_outcome (id shader : ComponentId) :
    Outcome as s [] (setMaterialShader id shader s) := by
  unfold setMaterialShader
  by_cases hs : shader = .null
  · simp only [(ComponentId.isNull_iff shader).mpr hs]
    exact updateMaterialShader_outcome id shader fun hne => absurd hs hne
  · simp only [ComponentId.isNull_eq_false hs]
    exact .ask fun a ha => updateMaterialShader_outcome id shader fun _ => ⟨a, shader_eq_ok.mp ha⟩

omit [Mat4.Arithmetic] in
/-- The data of a material of which a uniform was set. -/
theorem datum?_setUniform (m : Material) {slot : ℕ} (h : slot < uniformLimit) (value : Vec4)
    (φ : Field) :
    { m with uniforms := m.uniforms.set slot value h, uniformsDirty := true }.datum? φ =
      Datum.assign [.uniform slot value] φ (m.datum? φ) := by
  cases φ with
  | uniform l =>
    by_cases hl : slot = l
    · subst hl
      simp [Material.datum?, Datum.assign, Datum.field, h]
    · simp [Material.datum?, Datum.assign, Datum.field, hl]
  | _ => rfl

theorem setMaterialUniform_outcome (id : ComponentId) (slot : UInt32) (value : Vec4) :
    Outcome as s [.assigned id (.uniform slot.toNat value)]
      (setMaterialUniform id slot value s) := by
  refine .ask fun m hm => ?_
  by_cases hslot : slot.toNat < uniformLimit
  · simp only [dif_pos hslot]
    exact .one (.material [.uniform slot.toNat value] (material_eq_ok.mp hm) (fun _ => rfl) fun m =>
      content_material rfl (datum?_setUniform m hslot value))
  · simp only [dif_neg hslot]
    exact .refused

theorem acknowledgeMaterial_outcome (id : ComponentId) :
    Outcome as s [] (acknowledgeMaterial id s) :=
  .ask fun _ hm => .one (.material [] (material_eq_ok.mp hm) (fun _ => rfl) fun _ => rfl)

theorem resizeTexture_outcome (id : ComponentId) (width height : UInt32) :
    Outcome as s [.assigned id (.size width height),
      .assigned id (.pixels (List.replicate (Texture.byteLength width height) 0))]
      (resizeTexture id width height s) :=
  updateTexture_outcome id
    [.size width height, .pixels (List.replicate (Texture.byteLength width height) 0)]
    (fun _ => rfl) fun _ φ => by cases φ <;> rfl

theorem writeTexture_outcome (id : ComponentId) (pixels : Bytes) :
    Outcome as s [.assigned id (.pixels pixels)] (writeTexture id pixels s) := by
  refine .ask fun t ht => ?_
  by_cases hpixels : pixels.length = Texture.byteLength t.width t.height
  · simp only [if_neg (not_not.mpr hpixels)]
    exact .one (.texture [.pixels pixels] (texture_eq_ok.mp ht) (fun _ => rfl) fun t =>
      content_texture fun φ => by cases φ <;> rfl)
  · simp only [if_pos hpixels]
    exact .throw

theorem acknowledgeTexture_outcome (id : ComponentId) : Outcome as s [] (acknowledgeTexture id s) :=
  .ask fun _ ht => .one (.texture [] (texture_eq_ok.mp ht) (fun _ => rfl) fun _ => rfl)

end Others

end SceneGraph.Scene
