import SceneGraph.Proofs.Descent

/-!
# What a rebuild leaves behind

A rebuild from a node makes everything under it fresh, touches nothing else, and leaves fresh what
was fresh; the geometries of the meshes that it recomputed become stale.
-/

namespace SceneGraph

namespace View

variable {v v' : View Node} {w : View Geometry} {root x : ComponentId} {n : Node}

/-- A dirty node has only dirty nodes below. -/
theorem Dirty.below (h : v.Dirty root x) {c : ComponentId} (hc : v.up c = some x) :
    v.Dirty root c := by
  obtain ⟨y, n, hx, hy, hn, hr⟩ := h
  exact ⟨y, n, Under.of_parent hc hx, hy, hn, hr⟩

namespace Rebuilt

variable [Mat4.Arithmetic] (h : Rebuilt v v' (fun x => Under v.up x root) (v.Dirty root))
include h

theorem stale_under (hx : Under v.up x root) (hn : v' x = some n) : n.stale = .none := by
  obtain ⟨m, hm, -⟩ := h.origin hn
  by_cases hd : v.Dirty root x
  · have hd := h.dirty hd hm
    rw [hn] at hd
    cases hd
    rfl
  · have hc := h.clean hx hd hm
    rw [hn] at hc
    cases hc
    rfl

/-- The world matrix above a node that is not dirty stays. -/
theorem worldAt_parent (hr : Rooted v) (hn : v x = some n) (hd : ¬ v.Dirty root x) :
    v'.worldAt n.parent = v.worldAt n.parent := by
  cases hp : v n.parent with
  | none => rw [worldAt, worldAt, hp, h.free hp]
  | some p =>
    have hup : v.up x = some n.parent := up_eq_some.mpr ⟨n, hn, rfl, hr.ne_null hp⟩
    by_cases hu : Under v.up n.parent root
    · have hc := h.clean hu (fun hdp => hd (hdp.below hup)) hp
      rw [worldAt_of_some hc, worldAt_of_some hp]
    · exact h.worldAt_rest hu

theorem fresh (hr : Rooted v) (hf : Fresh v) : Fresh v' where
  marked := by
    intro x n p m hn hup hm hs
    have hx : ¬ Under v.up x root := fun hx => hs (h.stale_under hx hn)
    rw [h.up_eq] at hup
    have hp : ¬ Under v.up p root := fun hp => hx (Under.of_parent hup hp)
    rw [h.rest hx] at hn
    rw [h.rest hp] at hm
    exact hf.marked x n p m hn hup hm hs
  local_eq := by
    intro x n hn hs
    obtain ⟨m, hm, -⟩ := h.origin hn
    by_cases hd : v.Dirty root x
    · have he := h.dirty hd hm
      rw [hn] at he
      cases he
      by_cases hl : m.stale = .local
      · simp only [Node.refresh, if_pos hl]
        rfl
      · simp only [Node.refresh, if_neg hl]
        exact hf.local_eq x m hm hl
    · by_cases hx : Under v.up x root
      · have he := h.clean hx hd hm
        rw [hn] at he
        cases he
        refine hf.local_eq x m hm fun hl => hd ⟨x, m, Under.refl x, hx, hm, ?_⟩
        rw [hl]
        decide
      · rw [h.rest hx] at hn
        exact hf.local_eq x n hn hs
  world_eq := by
    intro x n hn hs
    obtain ⟨m, hm, -⟩ := h.origin hn
    by_cases hd : v.Dirty root x
    · have he := h.dirty hd hm
      rw [hn] at he
      cases he
      rfl
    · by_cases hx : Under v.up x root
      · have he := h.clean hx hd hm
        rw [hn] at he
        cases he
        refine (hf.world_eq x m hm ?_).trans ?_
        · by_contra hrank
          exact hd ⟨x, m, Under.refl x, hx, hm, by omega⟩
        · rw [h.worldAt_parent hr hm hd]
      · rw [h.rest hx] at hn
        rw [h.worldAt_parent hr hn hd]
        exact hf.world_eq x n hn hs

theorem batched {marked : ComponentId → Bool} (hb : Batched v w)
    (hm : ∀ x id, v.Dirty root x → v.draws x = some id → marked id = true) :
    Batched v' (w.edit fun x g => if marked x then { g with instancesStale := true } else g) := by
  refine hb.remark marked h.draws_eq fun x id hd hne => hm x id ?_ hd
  by_contra hx
  apply hne
  cases hn : v x with
  | none => simp [drawn, hn, h.free hn]
  | some n =>
    by_cases hu : Under v.up x root
    · simp [drawn, hn, h.clean hu hx hn]
    · simp [drawn, h.rest hu]

end Rebuilt

end View

namespace Rebuild

variable {s : Scene} {r : Rebuild} {stats : RebuildStats} {l : List ComponentId}

/-- One geometry of those that a rebuild has touched. -/
def mark (t : Scene × RebuildStats) (id : ComponentId) : Scene × RebuildStats :=
  match t.1.geometry id with
  | .ok g =>
    if g.instancesStale then t
    else (t.1.modifyGeometry id fun g => { g with instancesStale := true },
      { t.2 with geometriesMarked := t.2.geometriesMarked + 1 })
  | .error _ => t

theorem stale_spec (hs : Scene.Sound s) (id : ComponentId) :
    Scene.GeometryEdit s (s.modifyGeometry id fun g => { g with instancesStale := true }) ∧
      (s.modifyGeometry id fun g => { g with instancesStale := true }).geometryAt =
        s.geometryAt.modify id fun g => { g with instancesStale := true } := by
  exact ⟨.modifyGeometry s id fun _ => rfl, Scene.geometryAt_modifyGeometry hs _ id⟩

/-- A geometry that is stale is left as it is, which makes no difference. -/
theorem mark_spec (hs : Scene.Sound s) (stats : RebuildStats) (id : ComponentId) :
    Scene.GeometryEdit s (mark (s, stats) id).1 ∧
      (mark (s, stats) id).1.geometryAt =
        s.geometryAt.modify id fun g => { g with instancesStale := true } := by
  unfold mark
  cases hg : s.geometryAt id with
  | none =>
    obtain ⟨e, he⟩ := Scene.find_eq_error hg
    simp only [Scene.geometry, he]
    exact ⟨.refl s, (View.modify_of_none hg).symm⟩
  | some g =>
    simp only [Scene.geometry_eq_ok.mpr hg]
    split
    · next hstale =>
      refine ⟨.refl s, (View.edit_id fun x m hm => ?_).symm⟩
      split
      · next hx =>
        subst hx
        obtain rfl : g = m := Option.some.inj (hg.symm.trans hm)
        rw [← hstale]
      · rfl
    · exact stale_spec hs id

/-- Steps that each make one geometry stale, over a list. -/
theorem staleEach {β : Type} {f : β → ComponentId → β} {q : β → Scene}
    (h : ∀ b id, Scene.Sound (q b) → Scene.GeometryEdit (q b) (q (f b id)) ∧
      (q (f b id)).geometryAt =
        (q b).geometryAt.modify id fun g => { g with instancesStale := true })
    {b : β} (hs : Scene.Sound (q b)) (l : List ComponentId) :
    Scene.GeometryEdit (q b) (q (l.foldl f b)) ∧
      (q (l.foldl f b)).geometryAt = (q b).geometryAt.edit fun x g =>
        if decide (x ∈ l) then { g with instancesStale := true } else g := by
  induction l generalizing b with
  | nil => exact ⟨.refl _, (View.edit_id fun _ _ _ => by simp).symm⟩
  | cons id l ih =>
    obtain ⟨he, hw⟩ := h b id hs
    obtain ⟨he', hw'⟩ := ih (he.sound hs)
    refine ⟨he.trans he', ?_⟩
    rw [List.foldl_cons, hw', hw, View.modify, View.edit_edit]
    refine View.edit_congr fun x g _ => ?_
    by_cases hx : x = id <;> by_cases hl : x ∈ l <;> simp [hx, hl]

theorem marks_spec (hs : Scene.Sound s) (stats : RebuildStats) (l : List ComponentId) :
    Scene.GeometryEdit s (l.foldl mark (s, stats)).1 ∧
      (l.foldl mark (s, stats)).1.geometryAt = s.geometryAt.edit fun x g =>
        if decide (x ∈ l) then { g with instancesStale := true } else g :=
  staleEach (q := Prod.fst) (b := (s, stats)) (fun t id h => mark_spec h t.2 id) hs l

end Rebuild

namespace Scene

variable {s : Scene} {root x : ComponentId} {n : Node}

/-- What a rebuild from `root` does to a scene. -/
structure RebuiltFrom [Mat4.Arithmetic] (s s' : Scene) (root : ComponentId) : Prop where
  sound : Sound s'
  ids : s'.nodes.ids = s.nodes.ids
  slots : s'.slots = s.slots
  rebuilt : View.Rebuilt s.nodeAt s'.nodeAt (fun x => Under s.nodeAt.up x root)
    (s.nodeAt.Dirty root)
  marked : ∃ marked : ComponentId → Bool,
    (s'.geometryAt = s.geometryAt.edit fun x g =>
      if marked x then { g with instancesStale := true } else g) ∧
    ∀ id, marked id = true ↔ ∃ x, s.nodeAt.Dirty root x ∧ s.nodeAt.draws x = some id
  rest : s' = { s with nodes := s'.nodes, geometries := s'.geometries }

theorem RebuiltFrom.batched [Mat4.Arithmetic] {s' : Scene} (h : RebuiltFrom s s' root)
    (hb : View.Batched s.nodeAt s.geometryAt) : View.Batched s'.nodeAt s'.geometryAt := by
  obtain ⟨marked, hw, hmarked⟩ := h.marked
  rw [hw]
  exact h.rebuilt.batched hb fun x id hx hd => (hmarked id).mpr ⟨x, hx, hd⟩

theorem rest_of_edits {s₁ s' : Scene} (h : NodeEdit s s₁) (h' : GeometryEdit s₁ s') :
    s' = { s with nodes := s'.nodes, geometries := s'.geometries } := by
  have hn : s'.nodes = s₁.nodes := by rw [h'.rest]
  rw [hn]
  refine h'.rest.trans ?_
  rw [h.rest]

theorem descend_done [Mat4.Arithmetic] (hs : Sound s) (hf : View.Forest s.nodeAt)
    (hm : ∀ x, s.nodeAt.MarkedAbove x) (hn : s.nodeAt root = some n) :
    Rebuild.Done { scene := s } (Rebuild.descend s.walkLimit root { scene := s })
      (fun x => Under s.nodeAt.up x root) (s.nodeAt.Dirty root) :=
  Rebuild.pass_descend s.walkLimit hf hn (fun x _ => hm x)
    (fun _ _ h => Rebuild.climb_lt_walkLimit hs hf.toRooted h) _ hs
    ⟨hf.toRooted, rfl, fun _ _ => rfl, fun _ _ => rfl⟩

theorem rebuiltFrom_spec [Mat4.Arithmetic] (hs : Sound s) (hf : View.Forest s.nodeAt)
    (hm : ∀ x, s.nodeAt.MarkedAbove x) (hn : s.nodeAt root = some n) :
    RebuiltFrom s (s.rebuiltFrom root).1 root := by
  have hdone := descend_done hs hf hm hn
  let r' := Rebuild.descend s.walkLimit root { scene := s }
  have hmarks := Rebuild.marks_spec (hdone.edit.sound hs) r'.stats r'.touched
  have he : GeometryEdit r'.scene (s.rebuiltFrom root).1 := hmarks.1
  have hids : (s.rebuiltFrom root).1.nodes.ids = r'.scene.nodes.ids := by rw [he.rest]
  refine ⟨he.sound (hdone.edit.sound hs), hids.trans hdone.edit.ids,
    he.slots.trans hdone.edit.slots, ?_, ?_, rest_of_edits hdone.edit he⟩
  · rw [he.nodeAt]
    exact hdone.rebuilt
  · refine ⟨fun x => decide (x ∈ r'.touched), hmarks.2.trans ?_, fun id => ?_⟩
    · rw [hdone.edit.geometryAt]
    · rw [decide_eq_true_iff, hdone.touched]
      simp

end Scene

/-- The node without what it caches. -/
def Node.uncached (n : Node) : Node :=
  { n with localMatrix := .identity, worldMatrix := .identity, stale := .none }

def View.uncached (v : View Node) : View Node := v.edit fun _ => Node.uncached

namespace View

variable {v v' : View Node} {R D : ComponentId → Prop} {x : ComponentId} {n n' : Node}

theorem exists_of_uncached (h : v'.uncached = v.uncached) (hn : v x = some n) :
    ∃ n', v' x = some n' ∧ n'.uncached = n.uncached := by
  have hx : v'.uncached x = some n.uncached := by
    rw [h]
    exact edit_of_some hn
  obtain ⟨n', hn', he⟩ := edit_eq_some.mp hx
  exact ⟨n', hn', he⟩

theorem Rebuilt.uncached [Mat4.Arithmetic] (h : Rebuilt v v' R D) : v'.uncached = v.uncached := by
  funext x
  cases hn : v x with
  | none => rw [View.uncached, View.uncached, edit_eq_none.mpr hn, edit_eq_none.mpr (h.free hn)]
  | some n =>
    obtain ⟨n', hn', he⟩ := h.keeps hn
    rw [View.uncached, View.uncached, edit_of_some hn, edit_of_some hn', he]
    rfl

/-- Every node has a root above or is one. -/
theorem exists_root (hr : Rooted v) (hn : v x = some n) :
    ∃ root m, Under v.up x root ∧ v root = some m ∧ v.up root = none := by
  obtain ⟨rank, hrank⟩ := hr.ranked
  induction hk : rank x using Nat.strongRecOn generalizing x n with
  | _ k ih =>
    cases hup : v.up x with
    | none => exact ⟨x, n, Under.refl x, hn, hup⟩
    | some p =>
      obtain ⟨m, hm⟩ := hr.parent hup
      have hlt : rank p < k := hk ▸ hrank x p hup
      obtain ⟨root, l, hu, hl, hroot⟩ := ih (rank p) hlt hm rfl
      exact ⟨root, l, Under.of_parent hup hu, hl, hroot⟩

end View

namespace Scene

variable {s s' : Scene} {root x : ComponentId} {n : Node} {l : List ComponentId}
  {stats : RebuildStats}

/-- One root of those that a full rebuild goes through. -/
def rebuildRoot [Mat4.Arithmetic] (t : Scene × RebuildStats) (root : ComponentId) :
    Scene × RebuildStats :=
  match t.1.indexOf .node root with
  | .ok _ => ((t.1.rebuiltFrom root).1, t.2 + (t.1.rebuiltFrom root).2)
  | .error _ => t

def staleRoots (s : Scene) : List ComponentId :=
  (s.nodes.rows.filter fun n => n.parent.isNull && n.stale ≠ .none).map Node.id

theorem rebuildAllMatrices_eq [Mat4.Arithmetic] (s : Scene) :
    s.rebuildAllMatrices = s.staleRoots.foldl rebuildRoot (s, {}) :=
  rfl

theorem rebuildRoot_fst [Mat4.Arithmetic] (stats : RebuildStats) (hn : s.nodeAt root = some n) :
    (rebuildRoot (s, stats) root).1 = (s.rebuiltFrom root).1 := by
  obtain ⟨kind, i, hslot, hk, -⟩ := rowAt_eq_some.mp hn
  rw [rebuildRoot, indexOf_eq_ok.mpr ⟨kind, hslot, hk⟩]

/-- What the rebuilds from the roots `l` have done to a scene. -/
structure Swept (s s' : Scene) (l : List ComponentId) : Prop where
  sound : Sound s'
  ids : s'.nodes.ids = s.nodes.ids
  slots : s'.slots = s.slots
  uncached : s'.nodeAt.uncached = s.nodeAt.uncached
  swept : ∀ {x root n}, root ∈ l → Under s.nodeAt.up x root → s'.nodeAt x = some n → n.stale = .none
  rest : ∀ {x}, (∀ root ∈ l, ¬ Under s.nodeAt.up x root) → s'.nodeAt x = s.nodeAt x

theorem sweep [Mat4.Arithmetic] (stats : RebuildStats) (hs : Sound s) (hf : View.Forest s.nodeAt)
    (hm : View.Fresh s.nodeAt) (hl : ∀ root ∈ l, ∃ n, s.nodeAt root = some n) :
    Swept s (l.foldl rebuildRoot (s, stats)).1 l := by
  induction l generalizing s stats with
  | nil => exact ⟨hs, rfl, rfl, rfl, fun h => absurd h (by simp), fun _ => rfl⟩
  | cons root l ih =>
    obtain ⟨n, hn⟩ := hl root (List.mem_cons_self ..)
    have h₁ := rebuiltFrom_spec hs hf hm.marked hn
    rw [← rebuildRoot_fst stats hn] at h₁
    have hunc := h₁.rebuilt.uncached
    have hup := h₁.rebuilt.up_eq
    have h₂ := ih (rebuildRoot (s, stats) root).2 h₁.sound (h₁.rebuilt.forest hf)
      (h₁.rebuilt.fresh hf.toRooted hm) fun r hr => by
        obtain ⟨m, hm⟩ := hl r (List.mem_cons_of_mem _ hr)
        obtain ⟨m', hm', -⟩ := View.exists_of_uncached hunc hm
        exact ⟨m', hm'⟩
    refine ⟨h₂.sound, h₂.ids.trans h₁.ids, h₂.slots.trans h₁.slots, h₂.uncached.trans hunc, ?_, ?_⟩
    · intro x r m hr hx hm
      by_cases hxl : ∃ r' ∈ l, Under s.nodeAt.up x r'
      · obtain ⟨r', hr', hx'⟩ := hxl
        exact h₂.swept hr' (hup ▸ hx') hm
      · have hxroot : Under s.nodeAt.up x root := by
          rcases List.mem_cons.mp hr with rfl | hr
          · exact hx
          · exact absurd ⟨r, hr, hx⟩ hxl
        have hsame := h₂.rest fun r' hr' hx' => hxl ⟨r', hr', hup ▸ hx'⟩
        exact h₁.rebuilt.stale_under hxroot (hsame.symm.trans hm)
    · intro x hx
      have hsame := h₂.rest fun r hr hx' => hx r (List.mem_cons_of_mem _ hr) (hup ▸ hx')
      exact hsame.trans (h₁.rebuilt.rest (hx root (List.mem_cons_self ..)))

end Scene

end SceneGraph
