import SceneGraph.Proofs.Links
import SceneGraph.Scene.Geometries

/-!
# Bindings and cached batches

Of a node, the batches of geometries see its mesh binding and its world matrix. Three things tie
geometries to nodes: a geometry lists the nodes bound to it, each once; a node is bound to a
geometry that exists, if to any; and the batches of a geometry that is not stale are those that its
nodes have now. What changes the drawing of a node has to make its geometry stale.
-/

namespace SceneGraph

theorem Geometry.id_unbind (mesh : ComponentId) (g : Geometry) : (g.unbind mesh).id = g.id := by
  unfold unbind
  split <;> rfl

namespace View

variable {v v' : View Node} {w w' : View Geometry} {f : ComponentId → Node → Node}
  {c p m x id : ComponentId} {n : Node}

/-- What the batches see of a node. -/
def drawn (v : View Node) : View (Option MeshBinding × Mat4) :=
  fun x => (v x).map fun n => (n.mesh, n.worldMatrix)

/-- The geometry that a node is bound to. -/
def draws (v : View Node) (x : ComponentId) : Option ComponentId :=
  (v x).bind fun n => n.mesh.bind fun b => b.geometry.nonNull

/-- The batches that the meshes have now. -/
def batches (v : View Node) (meshes : List ComponentId) : List InstanceBatch :=
  meshes.foldl (fun bs id =>
    match v.drawn id with
    | some d => InstanceBatch.insert (d.1.getD {}).material id d.2 bs
    | none => bs) []

structure Batched (v : View Node) (w : View Geometry) : Prop where
  nodup : ∀ {id g}, w id = some g → g.bindings.Nodup
  mem : ∀ {id g}, w id = some g → ∀ m, m ∈ g.bindings ↔ v.draws m = some id
  bound : ∀ {m id}, v.draws m = some id → ∃ g, w id = some g
  cached : ∀ {id g}, w id = some g → g.instancesStale = false → g.batches = v.batches g.bindings

theorem drawn_of_some (h : v x = some n) : v.drawn x = some (n.mesh, n.worldMatrix) := by
  simp [drawn, h]

theorem draws_of_some (h : v x = some n) :
    v.draws x = n.mesh.bind fun b => b.geometry.nonNull := by
  simp [draws, h]

theorem draws_of_none (h : v x = none) : v.draws x = none := by
  simp [draws, h]

theorem draws_of_drawn (h : v'.drawn x = v.drawn x) : v'.draws x = v.draws x := by
  have key : ∀ u : View Node, u.draws x = (u.drawn x).bind fun d =>
      d.1.bind fun b => b.geometry.nonNull := by
    intro u
    cases hu : u x with
    | none => simp [draws, drawn, hu]
    | some n => simp [draws, drawn, hu]
  rw [key, key, h]

theorem drawn_edit_of (h : ∀ n, v x = some n →
    (f x n).mesh = n.mesh ∧ (f x n).worldMatrix = n.worldMatrix) :
    (v.edit f).drawn x = v.drawn x := by
  cases hx : v x with
  | none => simp [drawn, edit, hx]
  | some n =>
    obtain ⟨hm, hw⟩ := h n hx
    simp [drawn, edit, hx, hm, hw]

theorem drawn_edit (h : ∀ x n, (f x n).mesh = n.mesh ∧ (f x n).worldMatrix = n.worldMatrix) :
    (v.edit f).drawn = v.drawn :=
  funext fun x => drawn_edit_of fun n _ => h x n

theorem draws_edit (h : ∀ x n, (f x n).mesh = n.mesh) : (v.edit f).draws = v.draws := by
  funext x
  cases hx : v x with
  | none => rw [draws_of_none hx, draws_of_none (edit_eq_none.mpr hx)]
  | some n => rw [draws_of_some hx, draws_of_some (edit_of_some hx), h]

theorem draws_map {f : MeshBinding → MeshBinding} (hf : ∀ b, (f b).geometry = b.geometry)
    (x : ComponentId) :
    (v.edit fun _ n => { n with mesh := n.mesh.map f }).draws x = v.draws x := by
  cases hn : v x with
  | none => rw [draws_of_none hn, draws_of_none (edit_eq_none.mpr hn)]
  | some n =>
    rw [draws_of_some hn, draws_of_some (edit_of_some hn)]
    cases n.mesh with
    | none => rfl
    | some b => exact congrArg ComponentId.nonNull (hf b)

theorem drawn_flag (id : ComponentId) (g : Staleness) : (v.flag id g).drawn = v.drawn :=
  drawn_edit fun _ _ => ⟨rfl, rfl⟩

theorem drawn_unlink (c : ComponentId) : (v.unlink c).drawn = v.drawn :=
  drawn_edit fun _ _ => ⟨rfl, rfl⟩

theorem drawn_link (p c : ComponentId) : (v.link p c).drawn = v.drawn :=
  drawn_edit fun _ _ => ⟨rfl, rfl⟩

theorem drawn_hand (p : ComponentId) (cs : List ComponentId) : (v.hand p cs).drawn = v.drawn := by
  induction cs generalizing v with
  | nil => rfl
  | cons c cs ih =>
    have hc : ((v.link p c).flag c .world).drawn = v.drawn := by rw [drawn_flag, drawn_link]
    exact ih.trans hc

theorem drawn_modify_of_ne {f : Node → Node} (hx : x ≠ id) :
    (v.modify id f).drawn x = v.drawn x := by
  refine drawn_edit_of fun n _ => ?_
  rw [if_neg hx]
  exact ⟨rfl, rfl⟩

theorem drawn_insert_of_ne (hx : x ≠ id) : (v.insert id n).drawn x = v.drawn x := by
  simp [drawn, insert, hx]

theorem drawn_erase_of_ne (hx : x ≠ id) : (v.erase id).drawn x = v.drawn x := by
  simp [drawn, erase, hx]

/-- A geometry has the identifier of a reference if the reference is not null. -/
theorem nonNull_eq_some {a : ComponentId} (hid : id ≠ .null) : a.nonNull = some id ↔ id = a := by
  rw [ComponentId.nonNull_eq_some_iff]
  constructor
  · exact fun h => h.2.symm
  · exact fun h => ⟨h ▸ hid, h.symm⟩

theorem ne_null_of_some {g : Geometry} (hnull : w .null = none) (hg : w id = some g) :
    id ≠ .null := by
  intro he
  rw [he, hnull] at hg
  cases hg

theorem batches_congr {l : List ComponentId} (h : ∀ m ∈ l, v'.drawn m = v.drawn m) :
    v'.batches l = v.batches l := by
  unfold batches
  apply List.foldl_ext
  intro bs m hm
  rw [h m hm]

namespace Batched

/-- To keep batches, it is enough to keep the two sides of the bindings in step and to make a
geometry stale when its bindings change or one of its meshes is drawn differently. -/
theorem transfer (h : Batched v w)
    (hg : ∀ id g', w' id = some g' → ∃ g, w id = some g ∧ g'.bindings.Nodup ∧
      (∀ m, m ∈ g'.bindings ↔ v'.draws m = some id) ∧
      (g'.instancesStale = false → g.instancesStale = false ∧ g'.batches = g.batches ∧
        g'.bindings = g.bindings ∧ ∀ m ∈ g.bindings, v'.drawn m = v.drawn m))
    (hb : ∀ m id, v'.draws m = some id → ∃ g, w' id = some g) : Batched v' w' where
  nodup hg' := by
    obtain ⟨g, -, hnd, -⟩ := hg _ _ hg'
    exact hnd
  mem hg' := by
    obtain ⟨g, -, -, hmem, -⟩ := hg _ _ hg'
    exact hmem
  bound hm := hb _ _ hm
  cached hg' hs := by
    obtain ⟨g, hw, -, -, hc⟩ := hg _ _ hg'
    obtain ⟨hs, hbs, hbind, hd⟩ := hc hs
    rw [hbs, hbind, batches_congr hd]
    exact h.cached hw hs

theorem congr (h : Batched v w) (hd : v'.drawn = v.drawn) : Batched v' w := by
  have hdraws : ∀ m, v'.draws m = v.draws m := fun m => draws_of_drawn (congrFun hd m)
  refine h.transfer (fun id g hg => ⟨g, hg, h.nodup hg, fun m => ?_, fun hs => ?_⟩)
    fun m id hm => ?_
  · rw [hdraws]
    exact h.mem hg m
  · exact ⟨hs, rfl, rfl, fun m _ => congrFun hd m⟩
  · rw [hdraws] at hm
    exact h.bound hm

/-- An edit of geometries that leaves their bindings alone. -/
theorem editGeometries {f : ComponentId → Geometry → Geometry} (h : Batched v w)
    (hb : ∀ x g, (f x g).bindings = g.bindings)
    (hs : ∀ x g, (f x g).instancesStale = false →
      g.instancesStale = false ∧ (f x g).batches = g.batches) : Batched v (w.edit f) := by
  refine h.transfer (fun id g' hg' => ?_) fun m id hm => ?_
  · obtain ⟨g, hg, rfl⟩ := edit_eq_some.mp hg'
    refine ⟨g, hg, ?_, ?_, fun hst => ?_⟩
    · rw [hb]
      exact h.nodup hg
    · rw [hb]
      exact h.mem hg
    · obtain ⟨hst, hbs⟩ := hs id g hst
      exact ⟨hst, hbs, hb id g, fun _ _ => rfl⟩
  · obtain ⟨g, hg⟩ := h.bound hm
    exact ⟨_, edit_of_some hg⟩

/-- A new node that is bound to nothing. -/
theorem insertNode (h : Batched v w) (hv : v id = none)
    (hn : (n.mesh.bind fun b => b.geometry.nonNull) = none) : Batched (v.insert id n) w := by
  have hid : (v.insert id n).draws id = none := by
    rw [draws_of_some (if_pos rfl), hn]
  have hdraws : ∀ m, (v.insert id n).draws m = v.draws m := by
    intro m
    by_cases hm : m = id
    · rw [hm, hid, draws_of_none hv]
    · exact draws_of_drawn (drawn_insert_of_ne hm)
  refine h.transfer (fun y g hg => ⟨g, hg, h.nodup hg, fun m => ?_, fun hs => ?_⟩) fun m y hm => ?_
  · rw [hdraws]
    exact h.mem hg m
  · refine ⟨hs, rfl, rfl, fun m hm => drawn_insert_of_ne ?_⟩
    intro he
    have hd := (h.mem hg m).mp hm
    rw [he, draws_of_none hv] at hd
    cases hd
  · rw [hdraws] at hm
    exact h.bound hm

theorem eraseNode (h : Batched v w) (hid : v.draws id = none) : Batched (v.erase id) w := by
  have hdraws : ∀ m, (v.erase id).draws m = v.draws m := by
    intro m
    by_cases hm : m = id
    · rw [hm, hid]
      exact draws_of_none (if_pos rfl)
    · exact draws_of_drawn (drawn_erase_of_ne hm)
  refine h.transfer (fun y g hg => ⟨g, hg, h.nodup hg, fun m => ?_, fun hs => ?_⟩) fun m y hm => ?_
  · rw [hdraws]
    exact h.mem hg m
  · refine ⟨hs, rfl, rfl, fun m hm => drawn_erase_of_ne ?_⟩
    intro he
    have hd := (h.mem hg m).mp hm
    rw [he, hid] at hd
    cases hd
  · rw [hdraws] at hm
    exact h.bound hm

/-- A new geometry without bindings. -/
theorem insertGeometry {g : Geometry} (h : Batched v w) (hw : w id = none) (hb : g.bindings = [])
    (hs : g.batches = []) : Batched v (w.insert id g) := by
  have hnone : ∀ m, v.draws m ≠ some id := by
    intro m hm
    obtain ⟨g, hg⟩ := h.bound hm
    simp [hw] at hg
  have hne : ∀ {y g'}, y ≠ id → w.insert id g y = some g' → w y = some g' := by
    intro y g' hy hg'
    simpa [View.insert, hy] using hg'
  constructor
  case nodup =>
    intro y g' hg'
    by_cases hy : y = id
    · obtain rfl : g = g' := by simpa [View.insert, hy] using hg'
      rw [hb]
      exact List.nodup_nil
    · exact h.nodup (hne hy hg')
  case mem =>
    intro y g' hg' m
    by_cases hy : y = id
    · obtain rfl : g = g' := by simpa [View.insert, hy] using hg'
      simp [hb, hy, hnone]
    · exact h.mem (hne hy hg') m
  case bound =>
    intro m y hm
    obtain ⟨g', hg'⟩ := h.bound hm
    have hy : y ≠ id := by
      intro he
      exact hnone m (he ▸ hm)
    exact ⟨g', by simpa [View.insert, hy] using hg'⟩
  case cached =>
    intro y g' hg' hst
    by_cases hy : y = id
    · obtain rfl : g = g' := by simpa [View.insert, hy] using hg'
      rw [hb, hs]
      rfl
    · exact h.cached (hne hy hg') hst

/-- Nodes are drawn otherwise than before, but their geometries become stale. -/
theorem remark (h : Batched v w) (marked : ComponentId → Bool)
    (hdraws : ∀ m, v'.draws m = v.draws m)
    (hm : ∀ m id, v.draws m = some id → v'.drawn m ≠ v.drawn m → marked id = true) :
    Batched v' (w.edit fun x g => if marked x then { g with instancesStale := true } else g) := by
  refine h.transfer (fun id g' hg' => ?_) fun m id hd => ?_
  · obtain ⟨g, hg, rfl⟩ := edit_eq_some.mp hg'
    have hb : (if marked id then { g with instancesStale := true } else g).bindings =
        g.bindings := by
      split <;> rfl
    refine ⟨g, hg, ?_, fun m => ?_, fun hs => ?_⟩
    · rw [hb]
      exact h.nodup hg
    · rw [hb, hdraws]
      exact h.mem hg m
    · by_cases hid : marked id = true
      · rw [if_pos hid] at hs
        cases hs
      · rw [if_neg hid] at hs ⊢
        refine ⟨hs, rfl, rfl, fun m hmem => ?_⟩
        by_contra hne
        exact hid (hm m id ((h.mem hg m).mp hmem) hne)
  · rw [hdraws] at hd
    obtain ⟨g, hg⟩ := h.bound hd
    exact ⟨_, edit_of_some hg⟩

theorem keep (h : Batched v w) (hdraws : ∀ m, v'.draws m = v.draws m)
    (hm : ∀ m id, v.draws m = some id → v'.drawn m = v.drawn m) : Batched v' w := by
  have hr := h.remark (fun _ => false) hdraws fun m id hd hne => absurd (hm m id hd) hne
  rwa [edit_id] at hr
  intro x g _
  rfl

/-- A node leaves the geometry `a`, which may be null, and is bound to nothing. -/
theorem unbind {a : ComponentId} (h : Batched v w) (hd : ∀ x, x ≠ m → v'.drawn x = v.drawn x)
    (ha : v.draws m = a.nonNull) (hb : v'.draws m = none) (hnull : w .null = none) :
    Batched v' (w.modify a fun g => g.unbind m) := by
  have hdraws : ∀ x, x ≠ m → v'.draws x = v.draws x := fun x hx => draws_of_drawn (hd x hx)
  refine h.transfer (fun id g' hg' => ?_) fun x id hx => ?_
  · obtain ⟨g, hg, rfl⟩ := edit_eq_some.mp hg'
    have hnd := h.nodup hg
    have hmem := h.mem hg
    have hm : m ∈ g.bindings ↔ id = a := by
      rw [hmem, ha, nonNull_eq_some (ne_null_of_some hnull hg)]
    refine ⟨g, hg, ?_⟩
    by_cases hia : id = a
    · simp only [if_pos hia, Geometry.unbind, if_pos (hm.mpr hia)]
      refine ⟨nodup_swapErase hnd, fun x => ?_, fun hs => by cases hs⟩
      rw [mem_swapErase hnd]
      by_cases hx : x = m
      · simp [hx, hb]
      · simp [hx, hdraws x hx, hmem]
    · have hmg : m ∉ g.bindings := fun hmg => hia (hm.mp hmg)
      rw [if_neg hia]
      refine ⟨hnd, fun x => ?_, fun hs => ⟨hs, rfl, rfl, fun x hx => hd x ?_⟩⟩
      · by_cases hx : x = m
        · simp [hx, hb, hmg]
        · rw [hdraws x hx, hmem]
      · intro he
        exact hmg (he ▸ hx)
  · have hxm : x ≠ m := by
      intro he
      rw [he, hb] at hx
      cases hx
    rw [hdraws x hxm] at hx
    obtain ⟨g, hg⟩ := h.bound hx
    exact ⟨_, edit_of_some hg⟩

/-- A node that is bound to nothing joins the geometry `b`, which may be null. -/
theorem bind {b : ComponentId} (h : Batched v w) (hd : ∀ x, x ≠ m → v'.drawn x = v.drawn x)
    (ha : v.draws m = none) (hb : v'.draws m = b.nonNull) (hnull : w .null = none)
    (hlive : b ≠ .null → ∃ g, w b = some g) : Batched v' (w.modify b fun g => g.bind m) := by
  have hdraws : ∀ x, x ≠ m → v'.draws x = v.draws x := fun x hx => draws_of_drawn (hd x hx)
  refine h.transfer (fun id g' hg' => ?_) fun x id hx => ?_
  · obtain ⟨g, hg, rfl⟩ := edit_eq_some.mp hg'
    have hnd := h.nodup hg
    have hmem := h.mem hg
    have hm : v'.draws m = some id ↔ id = b := by
      rw [hb, nonNull_eq_some (ne_null_of_some hnull hg)]
    have hmg : m ∉ g.bindings := by
      rw [hmem, ha]
      simp
    refine ⟨g, hg, ?_⟩
    by_cases hib : id = b
    · simp only [if_pos hib, Geometry.bind]
      refine ⟨?_, fun x => ?_, fun hs => by cases hs⟩
      · rw [List.nodup_append]
        refine ⟨hnd, List.nodup_singleton m, ?_⟩
        intro y hy z hz he
        rw [List.mem_singleton.mp hz] at he
        exact hmg (he ▸ hy)
      · rw [List.mem_append, List.mem_singleton]
        by_cases hx : x = m
        · rw [hx]
          exact ⟨fun _ => hm.mpr hib, fun _ => Or.inr rfl⟩
        · simp [hx, hdraws x hx, hmem]
    · rw [if_neg hib]
      refine ⟨hnd, fun x => ?_, fun hs => ⟨hs, rfl, rfl, fun x hx => hd x ?_⟩⟩
      · by_cases hx : x = m
        · simp [hx, hm, hib, hmg]
        · rw [hdraws x hx, hmem]
      · intro he
        exact hmg (he ▸ hx)
  · by_cases hxm : x = m
    · rw [hxm, hb, ComponentId.nonNull_eq_some_iff] at hx
      obtain ⟨hne, rfl⟩ := hx
      obtain ⟨g, hg⟩ := hlive hne
      exact ⟨_, edit_of_some hg⟩
    · rw [hdraws x hxm] at hx
      obtain ⟨g, hg⟩ := h.bound hx
      exact ⟨_, edit_of_some hg⟩

/-- A node goes from the geometry `a` to the geometry `b`, each of which may be null. -/
theorem rebind {a b : ComponentId} (h : Batched v w) (hd : ∀ x, x ≠ m → v'.drawn x = v.drawn x)
    (ha : v.draws m = a.nonNull) (hb : v'.draws m = b.nonNull) (hnull : w .null = none)
    (hlive : b ≠ .null → ∃ g, w b = some g) :
    Batched v' ((w.modify a fun g => g.unbind m).modify b fun g => g.bind m) := by
  let u : View Node := v.modify m fun n => { n with mesh := none }
  have hu : ∀ x, x ≠ m → u.drawn x = v.drawn x := fun x hx => drawn_modify_of_ne hx
  have hum : u.draws m = none := by
    cases hn : v m with
    | none => exact draws_of_none (edit_eq_none.mpr hn)
    | some n => exact draws_of_some (modify_of_some hn)
  refine (h.unbind hu ha hum hnull).bind (fun x hx => (hd x hx).trans (hu x hx).symm) hum hb
    (edit_eq_none.mpr hnull) fun hne => ?_
  obtain ⟨g, hg⟩ := hlive hne
  exact ⟨_, edit_of_some hg⟩

/-- A geometry goes, and the nodes bound to it are bound to nothing. -/
theorem eraseGeometry (h : Batched v w) (hd : ∀ m, v.draws m ≠ some id → v'.drawn m = v.drawn m)
    (hm : ∀ m, v.draws m = some id → v'.draws m = none) : Batched v' (w.erase id) := by
  have hdraws : ∀ m y, y ≠ id → (v'.draws m = some y ↔ v.draws m = some y) := by
    intro m y hy
    by_cases hmi : v.draws m = some id
    · simp [hm m hmi, hmi, Ne.symm hy]
    · rw [draws_of_drawn (hd m hmi)]
  refine h.transfer (fun y g' hg' => ?_) fun m y hmy => ?_
  · obtain ⟨hy, hg⟩ := erase_eq_some.mp hg'
    refine ⟨g', hg, h.nodup hg, fun m => ?_, fun hs => ⟨hs, rfl, rfl, fun m hmem => hd m ?_⟩⟩
    · rw [h.mem hg, hdraws m y hy]
    · rw [(h.mem hg m).mp hmem]
      exact fun he => hy (Option.some.inj he)
  · have hy : y ≠ id := by
      intro he
      subst he
      by_cases hmi : v.draws m = some y
      · rw [hm m hmi] at hmy
        cases hmy
      · exact hmi ((draws_of_drawn (hd m hmi)).symm.trans hmy)
    obtain ⟨g, hg⟩ := h.bound ((hdraws m y hy).mp hmy)
    exact ⟨g, erase_eq_some.mpr ⟨hy, hg⟩⟩

/-- Batches that are built anew are those of the meshes bound now. -/
theorem rebatch (h : Batched v w) (id : ComponentId) :
    Batched v (w.modify id fun g =>
      { g with
        batches := v.batches g.bindings
        instancesStale := false
        uploadPending := true }) := by
  constructor
  case nodup =>
    intro y g' hg'
    obtain ⟨g, hg, rfl⟩ := edit_eq_some.mp hg'
    have hnd := h.nodup hg
    split
    · exact hnd
    · exact hnd
  case mem =>
    intro y g' hg'
    obtain ⟨g, hg, rfl⟩ := edit_eq_some.mp hg'
    have hmem := h.mem hg
    split
    · exact hmem
    · exact hmem
  case bound =>
    intro m y hm
    obtain ⟨g, hg⟩ := h.bound hm
    exact ⟨_, edit_of_some hg⟩
  case cached =>
    intro y g' hg' hs
    obtain ⟨g, hg, rfl⟩ := edit_eq_some.mp hg'
    by_cases hy : y = id
    · simp only [if_pos hy]
    · rw [if_neg hy] at hs ⊢
      exact h.cached hg hs

end Batched

end View

end SceneGraph
