import SceneGraph.Proofs.References

/-!
# What comes to be and what goes

A component is there from the change that creates it to the one that destroys it. The counter of
identifiers moves only where a step draws or reserves one that it has not passed. A command that
creates something is not refused for its identifier if that is not null and not in use, and where it
needs nothing else it is not refused at all.
-/

namespace SceneGraph

/-- What is passed already does not move the counter. -/
theorem IdSource.reserve_of_covers {i : IdSource} {x : ComponentId} (h : i.Covers x) :
    i.reserve x = i := by
  by_cases hx : x.raw + 1 = 0
  · exact if_pos hx
  · have hlt := h.resolve_right hx
    have hnext : (i.reserve x).next = i.next := by
      rw [i.next_reserve hx]
      split
      · grind
      · rfl
    exact congrArg IdSource.mk hnext

namespace View.Revision

variable {v v' : View Content} {cs : List Change} {x : ComponentId} {k : ComponentKind}

theorem kindOf?_some (h : Revision v cs v') (hk : v.kindOf? x = some k)
    (hx : .destroyed x ∉ cs) : v'.kindOf? x = some k := by
  cases h with
  | keep => exact hk
  | @create id kind name hfree =>
    have hne : x ≠ id := by
      rintro rfl
      simp [kindOf?, hfree] at hk
    simpa [kindOf?, View.insert, hne] using hk
  | assign | rebind | reshade =>
    refine (kindOf?_edit (fun y c => ?_) x).trans hk
    split <;> rfl
  | destroy id =>
    have hne : x ≠ id := by simpa using hx
    refine (kindOf?_edit (f := fun _ => Content.forget id) (fun _ _ => rfl) x).trans ?_
    simpa [kindOf?, View.erase, hne] using hk

theorem kindOf?_none (h : Revision v cs v') (hk : v.kindOf? x = none)
    (hx : ∀ k name, .created k x name ∉ cs) : v'.kindOf? x = none := by
  cases h with
  | keep => exact hk
  | @create id kind name hfree =>
    have hne : x ≠ id := by
      rintro rfl
      exact hx kind name (List.mem_singleton.mpr rfl)
    simpa [kindOf?, View.insert, hne] using hk
  | assign | rebind | reshade =>
    refine (kindOf?_edit (fun y c => ?_) x).trans hk
    split <;> rfl
  | destroy id =>
    refine (kindOf?_edit (f := fun _ => Content.forget id) (fun _ _ => rfl) x).trans ?_
    by_cases hne : x = id
    · simp [kindOf?, View.erase, hne]
    · simpa [kindOf?, View.erase, hne] using hk

end View.Revision

namespace Scene

variable {as : List Aside} {cs : List Change} {s s' : Scene} {id x : ComponentId}
  {k : ComponentKind}

section Steps

theorem Steps.kindOf?_some [Mat4.Arithmetic] (h : Steps as s cs s') (hv : Valid s)
    (hc : View.Closed s.contents) (hk : s.kindOf? x = some k) (hx : .destroyed x ∉ cs) :
    s'.kindOf? x = some k := by
  induction h with
  | refl => exact hk
  | tail h h' ih =>
    rw [List.mem_append, not_or] at hx
    have hmid := ih hx.1
    have hv' := h.valid hv
    rw [← kindOf?_contents hv'.sound] at hmid
    rw [← kindOf?_contents (h'.valid hv').sound]
    exact (h'.revision hv' (h.closed hv hc)).kindOf?_some hmid hx.2

theorem Steps.kindOf?_none [Mat4.Arithmetic] (h : Steps as s cs s') (hv : Valid s)
    (hc : View.Closed s.contents) (hk : s.kindOf? x = none)
    (hx : ∀ k name, .created k x name ∉ cs) : s'.kindOf? x = none := by
  induction h with
  | refl => exact hk
  | tail h h' ih =>
    have hmid := ih fun k name hm => hx k name (List.mem_append_left _ hm)
    have hv' := h.valid hv
    rw [← kindOf?_contents hv'.sound] at hmid
    rw [← kindOf?_contents (h'.valid hv').sound]
    exact (h'.revision hv' (h.closed hv hc)).kindOf?_none hmid fun k name hm =>
      hx k name (List.mem_append_right _ hm)

theorem ids_forgetMaterial (s : Scene) (id : ComponentId) : (s.forgetMaterial id).ids = s.ids := by
  have hfold : ∀ (l : List ComponentId) (t : Scene),
      (l.foldl (fun s g => s.modifyGeometry g fun g => { g with instancesStale := true }) t).ids =
        t.ids := by
    intro l
    induction l with
    | nil => exact fun _ => rfl
    | cons g l ih => exact fun t => ih _
  exact hfold _ _

theorem NodeEdit.source (h : NodeEdit s s') : s'.ids = s.ids := by rw [h.rest]

theorem GeometryEdit.source (h : GeometryEdit s s') : s'.ids = s.ids := by rw [h.rest]

theorem Step.ids_eq [Mat4.Arithmetic] (h : Step as s cs s') (hv : Valid s) (hdraw : .draw ∉ as)
    (has : ∀ x, .reserve x ∈ as → s.ids.Covers x) : s'.ids = s.ids := by
  have hs := hv.sound
  cases h with
  | draw h => exact absurd h hdraw
  | reserve h => exact IdSource.reserve_of_covers (has _ h)
  | add => exact ids_add
  | rename | geometry | geometries | material | reshade | shader | texture | rebatch => rfl
  | @place id n f => exact (nodeEdit_flag (s.modifyNode id f) id .local).source
  | flag => exact (nodeEdit_flag _ _ _).source
  | detach c => exact ((nodeEdit_detach s c).trans (nodeEdit_flag _ _ _)).source
  | attach => exact ((nodeEdit_detach s _).trans (nodeEdit_adopt _ _ _)).source
  | @bare p n =>
    exact (nodeEdit_adoptAll (s.modifyNode p fun n => { n with children := [] }) _ _).source
  | @rebind id geometry material n => exact (geometryEdit_rebind s id geometry material n).source
  | rebuild _ hn =>
    rw [(rebuiltFrom_spec hs hv.forest hv.fresh.marked hn).rest]
  | @destroyNode id slot n hn hslot _ =>
    have he := nodeEdit_handedOver s id n
    have hg : GeometryEdit (s.handedOver id n) (s.orphaned id n) :=
      .modifyGeometry _ _ (Geometry.id_unbind id)
    have hslot' : (s.orphaned id n).slots.get? id = some slot := by
      rw [hg.slots, he.slots, hslot]
    rw [(removeSlot_removal (hg.sound (he.sound hs)) hslot').ids, hg.source, he.source]
  | @destroyGeometry id slot hslot _ =>
    have he := nodeEdit_forgetGeometry hs id
    rw [(removeSlot_removal (he.sound hs) (he.slots ▸ hslot)).ids, he.source]
  | @destroyMaterial id slot hslot _ =>
    obtain ⟨ht, hslots, -⟩ := Valid.forgetMaterial_spec hs id
    rw [(removeSlot_removal ht (hslots ▸ hslot)).ids, ids_forgetMaterial]
  | destroyShader hslot _ => exact (removeSlot_removal (hs.forgetShader _) hslot).ids
  | destroyTexture hslot _ => exact (removeSlot_removal hs hslot).ids

theorem Steps.ids_eq [Mat4.Arithmetic] (h : Steps as s cs s') (hv : Valid s) (hdraw : .draw ∉ as)
    (has : ∀ x, .reserve x ∈ as → s.ids.Covers x) : s'.ids = s.ids := by
  induction h with
  | refl => rfl
  | tail h h' ih =>
    rw [h'.ids_eq (h.valid hv) hdraw fun x hx => by rw [ih]; exact has x hx, ih]

end Steps

end Scene

/-! ## Creations -/

/-- The identifier under which a command creates something new, and the kind of what it creates. -/
def Command.creates? : Command → Option (ComponentKind × ComponentId)
  | createTransform id _ => some (.transform, id)
  | createGeometry id _ => some (.geometry, id)
  | createShader id .. => some (.shader, id)
  | createMaterial id .. => some (.material, id)
  | createMesh id .. => some (.mesh, id)
  | createTexture id .. => some (.texture, id)
  | _ => none

/-- Whether an identifier was refused for something new: it is null or in use. -/
def SceneError.IsClash : SceneError → Prop
  | nullId | duplicateId _ => True
  | _ => False

namespace Scene

variable {α β : Type} {s s' : Scene} {id x : ComponentId} {k : ComponentKind} {c : Command}

theorem created_mem_asides {name : String} (h : .created k x name ∈ c.changes s) :
    .reserve x ∈ c.asides := by
  cases c with
  | updateMesh mesh geometry material =>
    simp only [Command.changes, meshChanges] at h
    split at h
    · cases h
    · simp_all [Command.asides]
  | _ => simp_all [Command.changes, Command.asides]

theorem draw_not_mem_asides : .draw ∉ c.asides := by
  cases c <;> simp [Command.asides]

theorem Command.reserve_of_creates {c : Command} (h : c.creates? = some (k, id)) :
    .reserve id ∈ c.asides := by
  cases c <;> simp_all [Command.creates?, Command.asides]

section Clashes

/-- The edit is not refused for an identifier that something new is to have. -/
def Clashless (s : Scene) (e : SceneEdit α) : Prop :=
  ∀ err s', e s = .error err s' → ¬ err.IsClash

namespace Clashless

variable {e : SceneEdit α} {f : α → SceneEdit β}

theorem of_ok {a : α} (h : e s = .ok a s') : Clashless s e := by
  intro err t ht
  rw [h] at ht
  cases ht

theorem bind (h : Clashless s e) (hf : ∀ a s', e s = .ok a s' → Clashless s' (f a)) :
    Clashless s (e >>= f) := by
  intro err t ht
  cases he : e s with
  | ok a s' =>
    rw [bind_ok he] at ht
    exact hf a s' he err t ht
  | error err' s' =>
    rw [bind_error he] at ht
    cases ht
    exact h _ _ he

/-- A question is only refused for a component that is missing or of another kind. -/
theorem ask {g : Scene → Except SceneError α} (hg : ∀ err, g s = .error err → ¬ err.IsClash)
    (hf : ∀ a, Clashless s (f a)) : Clashless s (Scene.ask g >>= f) := by
  refine bind (fun err t ht => ?_) fun a s' ha => ?_
  · cases hr : g s with
    | error err' =>
      rw [run_ask_error hr] at ht
      cases ht
      exact hg err hr
    | ok a =>
      rw [run_ask_ok hr] at ht
      cases ht
  · cases hr : g s with
    | error err' =>
      rw [run_ask_error hr] at ha
      cases ha
    | ok b =>
      rw [run_ask_ok hr] at ha
      cases ha
      exact hf a

theorem modify (g : Scene → Scene) : Clashless s (modify g : SceneEdit Unit) := of_ok rfl

theorem ite {p : Prop} [Decidable p] {e' : SceneEdit α} (h : p → Clashless s e)
    (h' : ¬ p → Clashless s e') : Clashless s (if p then e else e') := by
  split
  · next hp => exact h hp
  · next hp => exact h' hp

end Clashless

theorem find_clashless {role : Role} {t : Table α} (err : SceneError)
    (h : s.find role t id = .error err) : ¬ err.IsClash := by
  cases hslot : s.slot? id with
  | none =>
    simp only [find, indexOf, hslot, Except.error.injEq] at h
    rw [← h]
    exact not_false
  | some slot =>
    by_cases hk : role.accepts slot.kind
    · cases hrow : t.get? slot.index with
      | none =>
        simp only [find, indexOf, hslot, if_pos hk, hrow, Except.error.injEq] at h
        rw [← h]
        exact not_false
      | some a => simp [find, indexOf, hslot, hk, hrow] at h
    · simp only [find, indexOf, hslot, if_neg hk, Except.error.injEq] at h
      rw [← h]
      exact not_false

theorem component_clashless (err : SceneError) (h : s.component id = .error err) :
    ¬ err.IsClash := by
  rw [component_eq] at h
  split at h
  · cases h
    exact not_false
  · cases h

theorem updateGeometry_clashless (id : ComponentId) (f : Geometry → Geometry) :
    Clashless s (updateGeometry id f) :=
  .ask find_clashless fun _ => .modify _

theorem updateMaterial_clashless (id : ComponentId) (f : Material → Material) :
    Clashless s (updateMaterial id f) :=
  .ask find_clashless fun _ => .modify _

theorem setMaterialShader_clashless (id shader : ComponentId) :
    Clashless s (setMaterialShader id shader) :=
  .ite (fun _ => .ask find_clashless fun _ => updateMaterial_clashless _ _)
    fun _ => updateMaterial_clashless _ _

theorem setName_clashless (id : ComponentId) (name : String) : Clashless s (setName id name) :=
  .ask component_clashless fun _ => .modify _

theorem bindMesh_clashless (id geometry material : ComponentId) :
    Clashless s (bindMesh id geometry material) := by
  refine .ask find_clashless fun n => .bind (.modify _) fun _ t _ => ?_
  refine .ite (fun _ => ?_) fun _ =>
    .ite (fun _ => updateGeometry_clashless _ _) fun _ => .of_ok rfl
  have hbind : ∀ t, Clashless t (if (!geometry.isNull) = true then
      updateGeometry geometry fun g => g.bind id else pure ()) := fun t =>
    .ite (fun _ => updateGeometry_clashless _ _) fun _ => .of_ok rfl
  exact .ite (fun _ => .bind (.modify _) fun _ t _ => hbind t) fun _ => hbind t

theorem insert_clashless {kind : ComponentKind} (hid : id ≠ .null)
    (hfree : s.slots.get? id = none) (name : String) : Clashless s (insert kind id name) :=
  .of_ok (run_insert hid hfree name)

theorem updateMesh_clashless (hid : id ≠ .null) (geometry material : ComponentId) :
    Clashless s (updateMesh id geometry material) := by
  rw [updateMesh_eq]
  have hrest : Clashless s (do
      if !(← get).contains id then insert .mesh id "mesh"
      bindMesh id geometry material) := by
    refine .bind (.of_ok run_get) fun t s' ht => ?_
    cases ht
    refine .ite (fun hc => ?_) fun _ => bindMesh_clashless _ _ _
    have hfree : s.slots.get? id = none := free_of_not_contains (by simpa using hc)
    exact .bind (insert_clashless hid hfree _) fun _ _ _ => bindMesh_clashless _ _ _
  have hmaterial : Clashless s (do
      if !material.isNull then
        let _ ← Scene.ask (Scene.material · material)
      if !(← get).contains id then insert .mesh id "mesh"
      bindMesh id geometry material) :=
    .ite (fun _ => .ask find_clashless fun _ => hrest) fun _ => hrest
  exact .ite (fun _ => .ask find_clashless fun _ => hmaterial) fun _ => hmaterial

/-- A command that may create something is not refused for its identifier, if that is not null and,
where only something new can have it, not in use. -/
theorem command_clashless (hmay : .reserve id ∈ c.asides) (hid : id ≠ .null)
    (hfree : ∀ k, c.creates? = some (k, id) → s.slots.get? id = none) : Clashless s c.edit := by
  cases c with
  | createTransform x name | createGeometry x name =>
    obtain rfl : id = x := by simpa [Command.asides] using hmay
    exact insert_clashless hid (hfree _ rfl) name
  | createShader x vertex fragment =>
    obtain rfl : id = x := by simpa [Command.asides] using hmay
    exact .bind (insert_clashless hid (hfree _ rfl) _) fun _ _ _ =>
      .ask find_clashless fun _ => .modify _
  | createMaterial x shader name =>
    obtain rfl : id = x := by simpa [Command.asides] using hmay
    have hrest : Clashless s (do
        insert .material id name
        setMaterialShader id shader) :=
      .bind (insert_clashless hid (hfree _ rfl) name) fun _ _ _ =>
        setMaterialShader_clashless _ _
    exact .ite (fun _ => .ask find_clashless fun _ => hrest) fun _ => hrest
  | createMesh x geometry material name =>
    obtain rfl : id = x := by simpa [Command.asides] using hmay
    refine .bind (.of_ok run_get) fun t s' ht => ?_
    cases ht
    have hcontains : ¬ s.contains id := by simp [contains, IdMap.contains, hfree _ rfl]
    refine .ite (fun hc => absurd hc hcontains) fun _ => ?_
    exact .bind (updateMesh_clashless hid geometry material) fun _ _ _ => setName_clashless _ _
  | updateMesh x geometry material =>
    obtain rfl : id = x := by simpa [Command.asides] using hmay
    exact updateMesh_clashless hid geometry material
  | createTexture x width height name =>
    obtain rfl : id = x := by simpa [Command.asides] using hmay
    exact .bind (insert_clashless hid (hfree _ rfl) name) fun _ _ _ =>
      .ask find_clashless fun _ => .modify _
  | _ => simp [Command.asides] at hmay

end Clashes

/-- Only materials and meshes need anything else to be there. -/
theorem run_created [Mat4.Arithmetic] (hv : Valid s) (h : c.creates? = some (k, id))
    (hmaterial : k ≠ .material) (hmesh : k ≠ .mesh) (hid : id ≠ .null)
    (hfree : s.slots.get? id = none) :
    ∃ s', c.edit s = .ok () s' := by
  cases c with
  | createTransform x name | createGeometry x name =>
    obtain ⟨rfl, rfl⟩ : _ = k ∧ x = id := by simpa [Command.creates?] using h
    exact ⟨_, run_insert hid hfree name⟩
  | createShader x vertex fragment =>
    obtain ⟨rfl, rfl⟩ : _ = k ∧ x = id := by simpa [Command.creates?] using h
    exact ⟨_, (bind_ok (run_insert hid hfree _)).trans
      (bind_ok (run_ask_ok (shader_eq_ok.mpr (shaderAt_inserted hv hfree _))))⟩
  | createTexture x width height name =>
    obtain ⟨rfl, rfl⟩ : _ = k ∧ x = id := by simpa [Command.creates?] using h
    exact ⟨_, (bind_ok (run_insert hid hfree _)).trans
      (bind_ok (run_ask_ok (texture_eq_ok.mpr (textureAt_inserted hv hfree _))))⟩
  | createMaterial | createMesh => simp_all [Command.creates?]
  | _ => simp [Command.creates?] at h

theorem kindOf?_created [Mat4.Arithmetic] (hv : Valid s) (hc : View.Closed s.contents)
    (h : c.creates? = some (k, id)) (hok : c.edit s = .ok () s') : s'.kindOf? id = some k := by
  have hsteps := steps_of_accepted hv hok
  have hentry := hsteps.entryOf_eq hv hc id
  have hkind : (s'.entryOf id).map Entry.kind = some k := by
    rw [hentry]
    cases c <;> simp_all [Command.creates?, Command.changes, Change.tell, Entry.new, Entry.assign]
  rw [← kindOf?_contents (hsteps.valid hv).sound, ← hkind, ← entryOf_contents, View.entryOf,
    Option.map_map]
  rfl

end Scene

end SceneGraph
