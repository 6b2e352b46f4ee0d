import SceneGraph.Proofs.Reachable

/-!
# Lazy rebuilds and eager recomputation

Wherever the staleness of a node allows it, its cached matrices are those that its own values and
its parent's world matrix give. A full rebuild leaves no node stale, so that all world matrices are
then the ones found by going down from the roots without any cache.
-/

namespace SceneGraph.Scene

variable {s s' : Scene} {id x : ComponentId} {n m : Node} {base : Mat4}

/-- The cached matrix under which a node stands. -/
inductive Base (s : Scene) (n : Node) : Mat4 → Prop
  | root (hp : n.parent = .null) : Base s n .identity
  | child {p : Node} (hp : s.node n.parent = .ok p) : Base s n p.worldMatrix

/-- The world matrix of a node as recomputed from the root above it, without the caches. -/
inductive Eager [Mat4.Arithmetic] (s : Scene) : ComponentId → Mat4 → Prop
  | root {id : ComponentId} {n : Node} (hn : s.node id = .ok n) (hp : n.parent = .null) :
      Eager s id (.identity * .ofScaleRotationPosition n.scale n.rotation n.position)
  | child {id : ComponentId} {n : Node} {base : Mat4} (hn : s.node id = .ok n)
      (hp : n.parent ≠ .null) (h : Eager s n.parent base) :
      Eager s id (base * .ofScaleRotationPosition n.scale n.rotation n.position)

section Caches

variable [Mat4.Arithmetic] (hv : Valid s)
include hv

theorem Valid.base_worldAt (hn : s.nodeAt id = some n) : s.Base n (s.nodeAt.worldAt n.parent) := by
  by_cases hp : n.parent = .null
  · have hw : s.nodeAt.worldAt n.parent = .identity := by
      rw [hp, View.worldAt, hv.rooted.null]
      rfl
    rw [hw]
    exact .root hp
  · obtain ⟨p, hparent⟩ := hv.rooted.parent (View.up_eq_some.mpr ⟨n, hn, rfl, hp⟩)
    rw [View.worldAt_of_some hparent]
    exact .child (node_eq_ok.mpr hparent)

theorem Valid.local_eq (hn : s.nodeAt id = some n) (hs : n.stale ≠ .local) :
    n.localMatrix = n.computeLocal :=
  hv.fresh.local_eq id n hn hs

theorem Valid.world_eq (hn : s.nodeAt id = some n) (hs : n.stale = .none ∨ n.stale = .descendents) :
    ∃ base, s.Base n base ∧ n.worldMatrix = base * n.localMatrix := by
  refine ⟨_, hv.base_worldAt hn, hv.fresh.world_eq id n hn ?_⟩
  rcases hs with hs | hs <;> simp [hs, Staleness.rank]

end Caches

section Sweeps

theorem mem_staleRoots (hs : Sound s) : x ∈ s.staleRoots ↔
    ∃ n, s.nodeAt x = some n ∧ s.nodeAt.up x = none ∧ n.stale ≠ .none := by
  have hroot : ∀ {n}, s.nodeAt x = some n → (n.parent.isNull = true ↔ s.nodeAt.up x = none) := by
    intro n hn
    rw [View.up_of_some hn, ComponentId.nonNull]
    by_cases hp : n.parent.isNull <;> simp [hp]
  rw [staleRoots, List.mem_map]
  constructor
  · rintro ⟨n, hmem, hid⟩
    obtain ⟨hmem, hn⟩ := List.mem_filter.mp hmem
    obtain ⟨hp, hstale⟩ := Bool.and_eq_true_iff.mp hn
    have hnode := (mem_nodes hs).mpr ⟨hmem, hid⟩
    exact ⟨n, hnode, (hroot hnode).mp hp, of_decide_eq_true hstale⟩
  · rintro ⟨n, hnode, hup, hstale⟩
    obtain ⟨hmem, hid⟩ := (mem_nodes hs).mp hnode
    refine ⟨n, List.mem_filter.mpr ⟨hmem, ?_⟩, hid⟩
    exact Bool.and_eq_true_iff.mpr ⟨(hroot hnode).mpr hup, decide_eq_true hstale⟩

variable [Mat4.Arithmetic]

theorem Valid.swept (hv : Valid s) : Swept s s.rebuildAllMatrices.1 s.staleRoots := by
  refine sweep {} hv.sound hv.forest hv.fresh fun root hroot => ?_
  obtain ⟨n, hn, -⟩ := (mem_staleRoots hv.sound).mp hroot
  exact ⟨n, hn⟩

theorem Valid.rebuildAllMatrices (hv : Valid s) : Valid s.rebuildAllMatrices.1 :=
  (steps_rebuildAllMatrices hv).valid hv

omit [Mat4.Arithmetic] in
/-- There is one root above a node only. -/
theorem root_unique {up : ComponentId → Option ComponentId} {r r' : ComponentId}
    (h : Under up x r) (h' : Under up x r') (hr : up r = none) (hr' : up r' = none) : r = r' := by
  have key : ∀ {a b : ComponentId}, up a = none → Under up a b → a = b := by
    intro a b ha hab
    rcases Under.eq_or_above.mp hab with he | habove
    · exact he
    · obtain ⟨p, hp, -⟩ := Above.iff_parent.mp habove
      rw [ha] at hp
      cases hp
  rcases h.total h' with hrr | hrr
  · exact key hr hrr
  · exact (key hr' hrr).symm

/-- After a full rebuild nothing is stale: below a stale root everything was passed through, and
below a root that is not stale nothing was. -/
theorem Valid.stale_rebuilt (hv : Valid s) (hn : s.rebuildAllMatrices.1.nodeAt x = some n) :
    n.stale = .none := by
  have hsw := hv.swept
  obtain ⟨n₀, hn₀, -⟩ := View.exists_of_uncached hsw.uncached.symm hn
  obtain ⟨root, m, hx, hm, hroot⟩ := View.exists_root hv.rooted hn₀
  by_cases hstale : m.stale = .none
  · have hsame : s.rebuildAllMatrices.1.nodeAt x = s.nodeAt x := by
      refine hsw.rest fun r hr hxr => ?_
      obtain ⟨l, hl, hlroot, hlstale⟩ := (mem_staleRoots hv.sound).mp hr
      obtain rfl := root_unique hx hxr hroot hlroot
      obtain rfl : m = l := Option.some.inj (hm.symm.trans hl)
      exact hlstale hstale
    exact View.fresh_below (fun y _ => hv.fresh.marked y) hm hstale hx (hsame.symm.trans hn)
  · exact hsw.swept ((mem_staleRoots hv.sound).mpr ⟨m, hm, hroot, hstale⟩) hx hn

/-- With nothing stale the cached world matrices are the recomputed ones, from the roots down. -/
theorem Valid.eager_rebuilt (hv : Valid s) (hn : s.rebuildAllMatrices.1.nodeAt x = some n) :
    s.Eager x n.worldMatrix := by
  have hv' := hv.rebuildAllMatrices
  obtain ⟨rank, hrank⟩ := hv'.rooted.ranked
  induction hk : rank x using Nat.strongRecOn generalizing x n with
  | _ k ih =>
    obtain ⟨n₀, hn₀, hsame⟩ := View.exists_of_uncached hv.swept.uncached.symm hn
    have hparent : n₀.parent = n.parent := (congrArg Node.parent hsame :)
    have hlocal : n₀.computeLocal = n.computeLocal := (congrArg Node.computeLocal hsame :)
    have hstale := hv.stale_rebuilt hn
    obtain ⟨base, hbase, hworld⟩ := hv'.world_eq hn (Or.inl hstale)
    have hw : n.worldMatrix = base * n₀.computeLocal := by
      rw [hworld, hlocal, hv'.local_eq hn (by rw [hstale]; decide)]
    rw [hw]
    cases hbase with
    | root hp => exact .root (node_eq_ok.mpr hn₀) (hparent.trans hp)
    | child hp =>
      have hp := node_eq_ok.mp hp
      have hnull := hv'.rooted.ne_null hp
      have hup := View.up_eq_some.mpr ⟨n, hn, rfl, hnull⟩
      have habove := ih (rank n.parent) (hk ▸ hrank x _ hup) hp rfl
      refine .child (node_eq_ok.mpr hn₀) (hparent ▸ hnull) ?_
      rw [hparent]
      exact habove

theorem rebuildAllMatrices_of_fresh (hs : Sound s)
    (h : ∀ {x n}, s.nodeAt x = some n → n.stale = .none) : s.rebuildAllMatrices = (s, {}) := by
  have hnone : s.staleRoots = [] := by
    refine List.eq_nil_iff_forall_not_mem.mpr fun x hx => ?_
    obtain ⟨n, hn, -, hstale⟩ := (mem_staleRoots hs).mp hx
    exact hstale (h hn)
  rw [rebuildAllMatrices_eq, hnone]
  rfl

theorem Valid.rebuildAllMatrices_again (hv : Valid s) :
    s.rebuildAllMatrices.1.rebuildAllMatrices = (s.rebuildAllMatrices.1, {}) :=
  rebuildAllMatrices_of_fresh hv.rebuildAllMatrices.sound hv.stale_rebuilt

theorem Valid.eager_of_fresh (hv : Valid s) (h : ∀ {x n}, s.nodeAt x = some n → n.stale = .none)
    (hn : s.nodeAt x = some n) : s.Eager x n.worldMatrix := by
  apply hv.eager_rebuilt
  rw [rebuildAllMatrices_of_fresh hv.sound h]
  exact hn

/-- A full rebuild keeps every row in its place, and changes nothing in it but the caches. -/
theorem Valid.rows_rebuilt (hv : Valid s) :
    s.rebuildAllMatrices.1.nodes.rows.map Node.uncached = s.nodes.rows.map Node.uncached := by
  have hsw := hv.swept
  have hids : s.rebuildAllMatrices.1.nodes.rows.map Node.id = s.nodes.rows.map Node.id := hsw.ids
  refine List.ext_getElem ?_ fun i hi hi' => ?_
  · simpa using congrArg List.length hids
  · rw [List.getElem_map, List.getElem_map]
    rw [List.length_map] at hi hi'
    have hid : s.rebuildAllMatrices.1.nodes.rows[i].id = s.nodes.rows[i].id := by
      have hget := List.getElem_of_eq hids (by simpa using hi)
      simpa using hget
    have hn := (mem_nodes hv.sound).mpr ⟨List.getElem_mem hi', rfl⟩
    have hn' := (mem_nodes hsw.sound).mpr ⟨List.getElem_mem hi, hid⟩
    obtain ⟨l, hl, hsame⟩ := View.exists_of_uncached hsw.uncached hn
    obtain rfl := Option.some.inj (hn'.symm.trans hl)
    exact hsame

end Sweeps

/-- On a reachable scene the caches keep what the staleness promises, and a full rebuild gives
every node the world matrix that eager recomputation gives it. -/
theorem rebuildAllMatrices_eager [Mat4.Arithmetic] (h : Reachable s) :
    (∀ n ∈ s.nodes.rows,
      (n.stale ≠ .local →
        n.localMatrix = .ofScaleRotationPosition n.scale n.rotation n.position) ∧
      (n.stale = .none ∨ n.stale = .descendents →
        ∃ base, s.Base n base ∧ n.worldMatrix = base * n.localMatrix)) ∧
    s.rebuildAllMatrices.1.nodes.rows.map Node.uncached = s.nodes.rows.map Node.uncached ∧
    (∀ n ∈ s.rebuildAllMatrices.1.nodes.rows, n.stale = .none ∧ s.Eager n.id n.worldMatrix) ∧
    s.rebuildAllMatrices.1.rebuildAllMatrices = (s.rebuildAllMatrices.1, {}) := by
  have hv := h.valid
  refine ⟨fun n hn => ?_, hv.rows_rebuilt, fun n hn => ?_, hv.rebuildAllMatrices_again⟩
  · have hnode := (mem_nodes hv.sound).mpr ⟨hn, rfl⟩
    exact ⟨hv.local_eq hnode, hv.world_eq hnode⟩
  · have hnode := (mem_nodes hv.rebuildAllMatrices.sound).mpr ⟨hn, rfl⟩
    exact ⟨hv.stale_rebuilt hnode, hv.eager_rebuilt hnode⟩

/-- A hand on an arm on a hub; the arm was rebuilt while the hub was stale. -/
def jointed : Scene :=
  List.foldl Operation.run {}
    [.insert .transform ⟨5⟩ "hub", .insert .transform ⟨6⟩ "arm", .insert .mesh ⟨7⟩ "hand",
      .addChild ⟨5⟩ ⟨6⟩, .apply (.addChild ⟨6⟩ ⟨7⟩) default, .setPosition ⟨5⟩ .one,
      .rebuildMatrices ⟨6⟩, .apply (.setScale ⟨7⟩ .zero) default]

theorem rebuildAllMatrices_eager_jointed :
    jointed.Reachable ∧ jointed.nodes.rows.map Node.stale = [.local, .descendents, .local] ∧
      (∀ n ∈ jointed.rebuildAllMatrices.1.nodes.rows,
        n.stale = .none ∧ jointed.Eager n.id n.worldMatrix) ∧
      jointed.rebuildAllMatrices.1.nodes.rows.map
        (fun n => (n.worldMatrix.xAxis.x, n.worldMatrix.wAxis)) =
          [(.one, ⟨.one, .one, .one, .one⟩), (.one, ⟨.one, .one, .one, .one⟩),
            (.zero, ⟨.one, .one, .one, .one⟩)] := by
  have h : jointed.Reachable := Reachable.empty.runs (by decide)
  obtain ⟨-, -, heager, -⟩ := rebuildAllMatrices_eager h
  exact ⟨h, by decide +kernel, heager, by decide +kernel⟩

end SceneGraph.Scene
