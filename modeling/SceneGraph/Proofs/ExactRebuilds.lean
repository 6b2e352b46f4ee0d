import SceneGraph.Proofs.EagerMatrices
import SceneGraph.Proofs.Marking
import SceneGraph.Proofs.RebuildCounts

/-!
# Rebuilds are exact

A rebuild from a node of a reachable scene ends before its limit does, recomputes what is behind
and nothing else, and reports how much that was. What is behind is told by the flags alone: a node
under the root is, if it or a node between the two has a stale matrix.
-/

namespace SceneGraph

/-! ## The limits are never met -/

namespace Rebuild

variable {r : Rebuild} {v u : View Node} {F G : ComponentId → Rebuild → Rebuild}
  {cs : List ComponentId} {c id : ComponentId} {n : Node} {base : Mat4} {depth limit : ℕ}

/-- The nodes of a rebuild under way are those of `u`, but for what they cache. -/
structure Keeps (u : View Node) (r : Rebuild) : Prop where
  sound : Scene.Sound r.scene
  uncached : r.scene.nodeAt.uncached = u

namespace Keeps

theorem modifyNode {f : Node → Node} {t : Rebuild} (h : Keeps u r)
    (ht : t.scene = r.scene.modifyNode id f) (hf : ∀ n, (f n).uncached = n.uncached) :
    Keeps u t := by
  have hid : ∀ n, (f n).id = n.id := fun n => (congrArg Node.id (hf n) :)
  refine ⟨?_, ?_⟩
  · rw [ht]
    exact (Scene.NodeEdit.modifyNode _ id hid).sound h.sound
  · rw [ht, Scene.nodeAt_modifyNode h.sound, View.modify, View.uncached, View.edit_edit,
      ← h.uncached]
    exact View.edit_congr fun x n _ => View.keeps_if hf x n

theorem foldr (hF : ∀ c r, Keeps u r → Keeps u (F c r)) (h : Keeps u r) (cs : List ComponentId) :
    Keeps u (cs.foldr F r) := by
  induction cs with
  | nil => exact h
  | cons c cs ih => exact hF c _ ih

theorem recompute [Mat4.Arithmetic] (h : Keeps u r) (depth : ℕ) (base : Mat4) (id : ComponentId) :
    Keeps u (recompute depth base id r) := by
  induction depth generalizing base id r with
  | zero => exact h
  | succ depth ih =>
    unfold Rebuild.recompute
    cases r.scene.node id with
    | error e => exact h
    | ok n =>
      have hfirst : Keeps u (noteRecomputed
          { r with scene := r.scene.modifyNode id (Node.refresh · base) } n) :=
        h.modifyNode (f := (Node.refresh · base)) rfl fun _ => rfl
      exact hfirst.foldr (fun c r hr => ih hr _ c) n.children

theorem descend [Mat4.Arithmetic] (h : Keeps u r) (depth : ℕ) (id : ComponentId) :
    Keeps u (descend depth id r) := by
  induction depth generalizing id r with
  | zero => exact h
  | succ depth ih =>
    unfold Rebuild.descend
    cases r.scene.node id with
    | error e => exact h
    | ok n =>
      dsimp only
      cases n.stale with
      | none => exact ⟨h.sound, h.uncached⟩
      | descendents =>
        refine .foldr (fun c r hr => ih hr c) ?_ n.children
        exact h.modifyNode (f := fun n => { n with stale := .none }) rfl fun _ => rfl
      | world | «local» => exact h.recompute _ _ id

/-- Passes over the children that do the same there do the same one after the other. -/
theorem foldr_congr (hG : ∀ c r, Keeps u r → Keeps u (G c r))
    (h : ∀ c ∈ cs, ∀ r, Keeps u r → F c r = G c r) (hr : Keeps u r) :
    cs.foldr F r = cs.foldr G r := by
  induction cs with
  | nil => rfl
  | cons c cs ih =>
    rw [List.foldr_cons, List.foldr_cons, ih fun b hb => h b (List.mem_cons_of_mem _ hb)]
    exact h c (List.mem_cons_self ..) _ (.foldr hG hr cs)

/-- Under a child, a walk has one step less to go. -/
theorem climb_child (hf : View.Forest v) (hr : Keeps v.uncached r)
    (hn : r.scene.nodeAt id = some n) (hd : ∀ k x, Climb v.up k x id → k < depth + 1)
    (hc : c ∈ n.children) {k : ℕ} {x : ComponentId} (h : Climb v.up k x c) : k < depth := by
  obtain ⟨m, hm, he⟩ := View.exists_of_uncached hr.uncached.symm hn
  have hchildren : m.children = n.children := (congrArg Node.children he :)
  have hup : v.up c = some id := ((hf.linked id m hm).2 c).mp (hchildren ▸ hc)
  have := hd (k + 1) x (h.snoc hup)
  omega

end Keeps

theorem recompute_limit [Mat4.Arithmetic] (hf : View.Forest v)
    (hd : ∀ k x, Climb v.up k x id → k < depth) (hle : depth ≤ limit) (hr : Keeps v.uncached r) :
    recompute limit base id r = recompute depth base id r := by
  induction depth generalizing limit base id r with
  | zero => exact absurd (hd 0 id (.refl id)) (Nat.lt_irrefl 0)
  | succ depth ih =>
    obtain ⟨limit, rfl⟩ := Nat.exists_eq_add_of_lt (Nat.lt_of_lt_of_le (Nat.succ_pos depth) hle)
    rw [Nat.zero_add] at hle ⊢
    rw [recompute, recompute]
    cases hn : r.scene.node id with
    | error e => rfl
    | ok n =>
      refine Keeps.foldr_congr (fun c r hr => hr.recompute depth _ c) (fun c hc t ht => ?_)
        (hr.modifyNode (f := (Node.refresh · base)) rfl fun _ => rfl)
      have hclimb : ∀ k x, Climb v.up k x c → k < depth :=
        fun k x h => hr.climb_child hf (Scene.node_eq_ok.mp hn) hd hc h
      exact ih hclimb (by omega) ht

theorem descend_limit [Mat4.Arithmetic] (hf : View.Forest v)
    (hd : ∀ k x, Climb v.up k x id → k < depth) (hle : depth ≤ limit) (hr : Keeps v.uncached r) :
    descend limit id r = descend depth id r := by
  induction depth generalizing limit id r with
  | zero => exact absurd (hd 0 id (.refl id)) (Nat.lt_irrefl 0)
  | succ depth ih =>
    obtain ⟨limit, rfl⟩ := Nat.exists_eq_add_of_lt (Nat.lt_of_lt_of_le (Nat.succ_pos depth) hle)
    rw [Nat.zero_add] at hle ⊢
    rw [descend, descend]
    cases hn : r.scene.node id with
    | error e => rfl
    | ok n =>
      dsimp only
      cases n.stale with
      | none | world | «local» => rfl
      | descendents =>
        refine Keeps.foldr_congr (fun c r hr => hr.descend depth c) (fun c hc t ht => ?_)
          (hr.modifyNode (f := fun n => { n with stale := .none }) rfl fun _ => rfl)
        have hclimb : ∀ k x, Climb v.up k x c → k < depth :=
          fun k x h => hr.climb_child hf (Scene.node_eq_ok.mp hn) hd hc h
        exact ih hclimb (by omega) ht

end Rebuild

namespace Scene

variable {s s' : Scene} {root x : ComponentId} {n m : Node} {g : Geometry}

/-! ## What is behind -/

/-- `x` is `root` or below it. -/
def Within (s : Scene) (root x : ComponentId) : Prop := Relation.ReflTransGen s.HasParent x root

/-- The matrices of `x` are behind: it is below `root`, and it or a node between the two is flagged
so. -/
def Behind (s : Scene) (root x : ComponentId) : Prop :=
  ∃ y m, s.Within y x ∧ s.Within root y ∧ s.node y = .ok m ∧ (m.stale = .world ∨ m.stale = .local)

/-- A fresh node that a rebuild from `root` comes to, and goes no further. -/
def PassedOver (s : Scene) (root x : ComponentId) : Prop :=
  (∃ n, s.node x = .ok n ∧ n.stale = .none) ∧ ¬ s.Behind root x ∧
    (x = root ∨ ∃ p m, s.HasParent x p ∧ s.Within root p ∧ s.node p = .ok m ∧
      m.stale = .descendents ∧ ¬ s.Behind root p)

/-- A node that a rebuild from `root` goes through without recomputing it. -/
def GoneThrough (s : Scene) (root x : ComponentId) : Prop :=
  s.Within root x ∧ ¬ s.Behind root x ∧ ∃ n, s.node x = .ok n ∧ n.stale = .descendents

/-- A mesh that is behind draws the geometry `id`. -/
def DrawnBehind (s : Scene) (root id : ComponentId) : Prop :=
  ∃ x n, s.Behind root x ∧ s.node x = .ok n ∧ n.mesh.map MeshBinding.geometry = some id

open Classical in
/-- `s'` is `s` with just what is behind below `root` recomputed, and `stats` says how much that
was. -/
structure ExactlyRebuilt [Mat4.Arithmetic] (s : Scene) (root : ComponentId) (s' : Scene)
    (stats : RebuildStats) : Prop where
  order : s'.nodes.rows.map Node.id = s.nodes.rows.map Node.id
  node : ∀ x n, s.node x = .ok n → ∃ n', s'.node x = .ok n' ∧
    n' = { n with
      localMatrix :=
        if s.Within root x ∧ n.stale = .local then n.computeLocal else n.localMatrix
      worldMatrix := n'.worldMatrix
      stale := if s.Within root x then .none else n.stale } ∧
    (s.Behind root x → ∃ base, s'.Base n' base ∧ n'.worldMatrix = base * n'.localMatrix) ∧
    (¬ s.Behind root x → n'.worldMatrix = n.worldMatrix)
  geometries : s'.geometries = s.geometries.map fun g =>
    if s.DrawnBehind root g.id then { g with instancesStale := true } else g
  rest : s' = { s with nodes := s'.nodes, geometries := s'.geometries }
  worldRecomputed : stats.worldRecomputed = {x | s.Behind root x}.ncard
  localRecomputed : stats.localRecomputed =
    {x | s.Within root x ∧ ∃ n, s.node x = .ok n ∧ n.stale = .local}.ncard
  pruned : stats.pruned = {x | s.PassedOver root x}.ncard
  visited : stats.visited = {x | s.Behind root x}.ncard + {x | s.PassedOver root x}.ncard +
    {x | s.GoneThrough root x}.ncard
  geometriesMarked : stats.geometriesMarked =
    {x | s.DrawnBehind root x ∧ ∃ g, s.geometry x = .ok g ∧ g.instancesStale = false}.ncard

theorem within_iff : s.Within root x ↔ Under s.nodeAt.up x root := by
  rw [Within, Relation.reflTransGen_iff_eq_or_transGen, Under.eq_or_above, above_iff_transGen,
    @eq_comm _ root x]

theorem behind_iff : s.Behind root x ↔ s.nodeAt.Dirty root x := by
  have hrank : ∀ g : Staleness, g = .world ∨ g = .local ↔ 2 ≤ g.rank := by
    intro g
    cases g <;> decide
  simp only [Behind, View.Dirty, within_iff, node_eq_ok, hrank]

section Flags

/-- Of a node that is not behind, the flag is one of the two lower ones. -/
theorem stale_of_not_behind (hn : s.nodeAt x = some n) (hx : s.Within root x)
    (hb : ¬ s.Behind root x) : n.stale = .none ∨ n.stale = .descendents := by
  have hflag : ∀ g, n.stale = g → g = .world ∨ g = .local → False := by
    intro g hg hstale
    exact hb ⟨x, n, .refl, hx, node_eq_ok.mpr hn, hg ▸ hstale⟩
  cases hs : n.stale with
  | none => exact Or.inl rfl
  | descendents => exact Or.inr rfl
  | world => exact absurd (Or.inl rfl) (hflag .world hs)
  | «local» => exact absurd (Or.inr rfl) (hflag .local hs)

theorem Behind.of_parent {p : ComponentId} (h : s.HasParent x p) (hp : s.Behind root p) :
    s.Behind root x := by
  obtain ⟨y, m, hy, hrest⟩ := hp
  exact ⟨y, m, .head h hy, hrest⟩

theorem reached_iff (hb : ¬ s.Behind root x) : Rebuild.Reached s.nodeAt root x ↔
    x = root ∨ ∃ p m, s.HasParent x p ∧ s.Within root p ∧ s.node p = .ok m ∧
      m.stale = .descendents ∧ ¬ s.Behind root p := by
  simp only [Rebuild.Reached, ← hasParent_iff, ← within_iff, node_eq_ok]
  refine or_congr_right ⟨?_, ?_⟩
  · rintro ⟨p, m, hp, hu, hm, hstale⟩
    exact ⟨p, m, hp, hu, hm, hstale, fun hbp => hb (.of_parent hp hbp)⟩
  · rintro ⟨p, m, hp, hu, hm, hstale, -⟩
    exact ⟨p, m, hp, hu, hm, hstale⟩

/-- Flags are closed upwards, so that a rebuild comes to every node flagged to be gone through. -/
theorem reached_of_goneThrough [Mat4.Arithmetic] (hv : Valid s) (hx : s.GoneThrough root x) :
    Rebuild.Reached s.nodeAt root x := by
  obtain ⟨hu, hb, n, hn, hstale⟩ := hx
  rcases Relation.ReflTransGen.cases_head hu with rfl | ⟨p, hp, hpu⟩
  · exact Or.inl rfl
  · have hup := hasParent_iff.mp hp
    obtain ⟨m, hm⟩ := hv.rooted.parent hup
    have hmark : m.stale ≠ .none :=
      hv.fresh.marked x n p m (node_eq_ok.mp hn) hup hm (by rw [hstale]; decide)
    have hbp : ¬ s.Behind root p := fun hbp => hb (.of_parent hp hbp)
    have hms : m.stale = .descendents := (stale_of_not_behind hm hpu hbp).resolve_left hmark
    exact Or.inr ⟨p, m, hup, within_iff.mp hpu, hm, hms⟩

theorem counted_passedOver : Rebuild.Counted .pruned s.nodeAt root x ↔ s.PassedOver root x := by
  constructor
  · rintro ⟨n, hn, ⟨-, hcount⟩ | ⟨hb, hr, hcount⟩⟩
    · cases hcount
    · have hb := mt behind_iff.mp hb
      exact ⟨⟨n, node_eq_ok.mpr hn, of_decide_eq_true hcount⟩, hb, (reached_iff hb).mp hr⟩
  · rintro ⟨⟨n, hn, hstale⟩, hb, hr⟩
    exact ⟨n, node_eq_ok.mp hn,
      Or.inr ⟨mt behind_iff.mpr hb, (reached_iff hb).mpr hr, decide_eq_true hstale⟩⟩

theorem exists_of_dirty (h : s.nodeAt.Dirty root x) : ∃ n, s.nodeAt x = some n := by
  obtain ⟨y, m, hxy, -, hm, -⟩ := h
  rcases Under.eq_or_above.mp hxy with rfl | habove
  · exact ⟨m, hm⟩
  · obtain ⟨p, hp, -⟩ := Above.iff_parent.mp habove
    obtain ⟨n, hn, -⟩ := View.up_eq_some.mp hp
    exact ⟨n, hn⟩

theorem counted_behind : Rebuild.Counted .worldRecomputed s.nodeAt root x ↔ s.Behind root x := by
  rw [behind_iff]
  constructor
  · rintro ⟨n, -, ⟨hb, -⟩ | ⟨-, -, hcount⟩⟩
    · exact hb
    · cases hcount
  · intro hb
    obtain ⟨n, hn⟩ := exists_of_dirty hb
    exact ⟨n, hn, Or.inl ⟨hb, rfl⟩⟩

theorem counted_local : Rebuild.Counted .localRecomputed s.nodeAt root x ↔
    s.Within root x ∧ ∃ n, s.node x = .ok n ∧ n.stale = .local := by
  constructor
  · rintro ⟨n, hn, ⟨hb, hcount⟩ | ⟨-, -, hcount⟩⟩
    · exact ⟨within_iff.mpr (Rebuild.under_of_dirty hb), n, node_eq_ok.mpr hn,
        of_decide_eq_true hcount⟩
    · cases hcount
  · rintro ⟨hu, n, hn, hstale⟩
    have hb : s.Behind root x := ⟨x, n, .refl, hu, hn, Or.inr hstale⟩
    exact ⟨n, node_eq_ok.mp hn, Or.inl ⟨behind_iff.mp hb, decide_eq_true hstale⟩⟩

/-- The nodes that a rebuild visits are of three kinds. -/
theorem counted_visited [Mat4.Arithmetic] (hv : Valid s) :
    Rebuild.Counted .visited s.nodeAt root x ↔
      (s.Behind root x ∨ s.PassedOver root x) ∨ s.GoneThrough root x := by
  constructor
  · intro hx
    have hu : s.Within root x := within_iff.mpr hx.under
    obtain ⟨n, hn, ⟨hb, -⟩ | ⟨hb, hr, -⟩⟩ := hx
    · exact Or.inl (Or.inl (behind_iff.mpr hb))
    · have hb := mt behind_iff.mp hb
      rcases stale_of_not_behind hn hu hb with hstale | hstale
      · exact Or.inl (Or.inr ⟨⟨n, node_eq_ok.mpr hn, hstale⟩, hb, (reached_iff hb).mp hr⟩)
      · exact Or.inr ⟨hu, hb, n, node_eq_ok.mpr hn, hstale⟩
  · rintro ((hb | ⟨⟨n, hn, -⟩, hb, hr⟩) | hthrough)
    · obtain ⟨n, hn, ⟨hb, -⟩ | ⟨-, -, hcount⟩⟩ := counted_behind.mpr hb
      · exact ⟨n, hn, Or.inl ⟨hb, rfl⟩⟩
      · cases hcount
    · exact ⟨n, node_eq_ok.mp hn, Or.inr ⟨mt behind_iff.mpr hb, (reached_iff hb).mpr hr, rfl⟩⟩
    · have hr := reached_of_goneThrough hv hthrough
      obtain ⟨-, hb, n, hn, -⟩ := hthrough
      exact ⟨n, node_eq_ok.mp hn, Or.inr ⟨mt behind_iff.mpr hb, hr, rfl⟩⟩

theorem ncard_visited [Mat4.Arithmetic] (hv : Valid s) :
    {x | Rebuild.Counted .visited s.nodeAt root x}.ncard =
      {x | s.Behind root x}.ncard + {x | s.PassedOver root x}.ncard +
        {x | s.GoneThrough root x}.ncard := by
  have hset : {x | Rebuild.Counted .visited s.nodeAt root x} =
      ({x | s.Behind root x} ∪ {x | s.PassedOver root x}) ∪ {x | s.GoneThrough root x} :=
    Set.ext fun x => counted_visited hv
  have hfirst : Disjoint {x | s.Behind root x} {x | s.PassedOver root x} := by
    rw [Set.disjoint_left]
    exact fun x hb hx => hx.2.1 hb
  have hboth : Disjoint ({x | s.Behind root x} ∪ {x | s.PassedOver root x})
      {x | s.GoneThrough root x} := by
    rw [Set.disjoint_left]
    rintro x (hb | ⟨⟨n, hn, hstale⟩, -⟩) ⟨-, hnb, m, hm, hms⟩
    · exact hnb hb
    · obtain rfl : n = m := Except.ok.inj (hn.symm.trans hm)
      rw [hstale] at hms
      cases hms
  rw [hset, Set.ncard_union_eq hboth, Set.ncard_union_eq hfirst]

end Flags

section Rebuilt

theorem drawnBehind_iff (hx : x ≠ .null) : s.DrawnBehind root x ↔
    ∃ y, s.nodeAt.Dirty root y ∧ s.nodeAt.draws y = some x := by
  have hdraws : ∀ {y n}, s.nodeAt y = some n →
      (s.nodeAt.draws y = some x ↔ n.mesh.map MeshBinding.geometry = some x) := by
    intro y n hn
    rw [View.draws_of_some hn]
    cases n.mesh with
    | none => simp
    | some b =>
      simp only [Option.bind_some, Option.map_some, Option.some.injEq,
        ComponentId.nonNull_eq_some_iff]
      exact and_iff_right_of_imp fun he => he ▸ hx
  constructor
  · rintro ⟨y, n, hb, hn, hmesh⟩
    exact ⟨y, behind_iff.mp hb, (hdraws (node_eq_ok.mp hn)).mpr hmesh⟩
  · rintro ⟨y, hb, hy⟩
    cases hn : s.nodeAt y with
    | none =>
      rw [View.draws_of_none hn] at hy
      cases hy
    | some n => exact ⟨y, n, behind_iff.mpr hb, node_eq_ok.mpr hn, (hdraws hn).mp hy⟩

variable [Mat4.Arithmetic]

open Classical in
/-- What becomes of a node. -/
theorem Valid.node_exactly (hv' : Valid s') (h : RebuiltFrom s s' root)
    (hn : s.nodeAt x = some n) : ∃ n', s'.nodeAt x = some n' ∧
      n' = { n with
        localMatrix :=
          if s.Within root x ∧ n.stale = .local then n.computeLocal else n.localMatrix
        worldMatrix := n'.worldMatrix
        stale := if s.Within root x then .none else n.stale } ∧
      (s.Behind root x → ∃ base, s'.Base n' base ∧ n'.worldMatrix = base * n'.localMatrix) ∧
      (¬ s.Behind root x → n'.worldMatrix = n.worldMatrix) := by
  by_cases hb : s.Behind root x
  · have hdirty := behind_iff.mp hb
    have hu : s.Within root x := within_iff.mpr (Rebuild.under_of_dirty hdirty)
    have hn' := h.rebuilt.dirty hdirty hn
    refine ⟨_, hn', ?_, fun _ => ⟨_, hv'.base_worldAt hn', rfl⟩, fun hnb => absurd hb hnb⟩
    simp only [hu, true_and, if_true]
    rfl
  · have hclean := mt behind_iff.mpr hb
    by_cases hu : s.Within root x
    · have hn' := h.rebuilt.clean (within_iff.mp hu) hclean hn
      have hlocal : n.stale ≠ .local :=
        fun hl => hb ⟨x, n, .refl, hu, node_eq_ok.mpr hn, Or.inr hl⟩
      refine ⟨_, hn', ?_, fun hnb => absurd hnb hb, fun _ => rfl⟩
      simp only [hu, hlocal, and_false, if_false, if_true]
    · have hn' := (h.rebuilt.rest (mt within_iff.mpr hu)).trans hn
      refine ⟨n, hn', ?_, fun hnb => absurd hnb hb, fun _ => rfl⟩
      simp only [hu, false_and, if_false]

open Classical in
/-- The geometries that get stale, in one change of all rows. -/
theorem Valid.geometries_exactly (hv : Valid s) (hn : s.nodeAt root = some n) :
    (s.rebuiltFrom root).1.geometries = s.geometries.map fun g =>
      if s.DrawnBehind root g.id then { g with instancesStale := true } else g := by
  have hspec := rebuiltFrom_spec hv.sound hv.forest hv.fresh.marked hn
  have hdone := descend_done hv.sound hv.forest hv.fresh.marked hn
  have hids : (s.rebuiltFrom root).1.geometries.ids = s.geometries.ids := by
    have hedit := (Rebuild.marks_spec (hdone.edit.sound hv.sound)
      (Rebuild.descend s.walkLimit root { scene := s }).stats
      (Rebuild.descend s.walkLimit root { scene := s }).touched).1
    refine hedit.ids.trans ?_
    rw [hdone.edit.rest]
  have hplaced := hspec.sound.geometries
  refine hplaced.table_eq ?_ (funext fun x => ?_)
  · rw [hids]
    refine Placed.ids_map (fun g => ?_) _
    split <;> rfl
  · obtain ⟨marked, hw, hmarked⟩ := hspec.marked
    rw [rowAt_map]
    refine (congrFun hw x).trans ?_
    rw [hspec.slots]
    change s.geometryAt.edit _ x = (s.geometryAt x).map _
    cases hg : s.geometryAt x with
    | none => rw [View.edit_eq_none.mpr hg, Option.map_none]
    | some g =>
      have hx : x ≠ .null := by
        rintro rfl
        rw [geometryAt_null hv.sound] at hg
        cases hg
      obtain rfl : g.id = x := hv.sound.geometries.row_id hg
      rw [View.edit_of_some hg, Option.map_some]
      have hiff : marked g.id = true ↔ s.DrawnBehind root g.id :=
        (hmarked g.id).trans (drawnBehind_iff hx).symm
      rw [if_congr hiff rfl rfl]

theorem Valid.unmarked_eq (hv : Valid s) (hn : s.nodeAt root = some n) :
    Rebuild.unmarked (Rebuild.descend s.walkLimit root { scene := s }).scene
      (Rebuild.descend s.walkLimit root { scene := s }).touched =
    {x | s.DrawnBehind root x ∧ ∃ g, s.geometry x = .ok g ∧ g.instancesStale = false} := by
  have hdone := descend_done hv.sound hv.forest hv.fresh.marked hn
  ext x
  simp only [Rebuild.unmarked, Set.mem_ofPred_eq, hdone.edit.geometryAt, hdone.touched,
    List.not_mem_nil, false_or, geometry_eq_ok]
  refine and_congr_left fun hg => ?_
  obtain ⟨g, hg, -⟩ := hg
  have hx : x ≠ .null := by
    rintro rfl
    rw [geometryAt_null hv.sound] at hg
    cases hg
  exact (drawnBehind_iff hx).symm

/-- Every number in the report. -/
theorem Valid.tally (hv : Valid s) (hn : s.nodeAt root = some n) (κ : Rebuild.Counter) :
    κ.read (Rebuild.descend s.walkLimit root { scene := s }).stats =
      κ.read {} + {x | Rebuild.Counted κ s.nodeAt root x}.ncard :=
  Rebuild.tally_descend κ s.walkLimit hv.forest hn (fun x _ => hv.fresh.marked x)
    (fun _ _ h => Rebuild.climb_lt_walkLimit hv.sound hv.rooted h) _ hv.sound
    ⟨hv.rooted, rfl, fun _ _ => rfl, fun _ _ => rfl⟩

theorem Valid.exactlyRebuilt (hv : Valid s) (hn : s.nodeAt root = some n) :
    s.ExactlyRebuilt root (s.rebuiltFrom root).1 (s.rebuiltFrom root).2 := by
  have hspec := rebuiltFrom_spec hv.sound hv.forest hv.fresh.marked hn
  have hdone := descend_done hv.sound hv.forest hv.fresh.marked hn
  have hstats : (s.rebuiltFrom root).2 = _ :=
    Rebuild.marks_stats (hdone.edit.sound hv.sound)
      (Rebuild.descend s.walkLimit root { scene := s }).stats
      (Rebuild.descend s.walkLimit root { scene := s }).touched
  have htally := hv.tally hn
  have hunmarked := hv.unmarked_eq hn
  generalize Rebuild.descend s.walkLimit root { scene := s } = r at *
  refine ⟨hspec.ids, fun x m hm => ?_, hv.geometries_exactly hn, hspec.rest, ?_, ?_, ?_, ?_, ?_⟩
  · obtain ⟨m', hm', hrest⟩ := (hv.rebuild hn).node_exactly hspec (node_eq_ok.mp hm)
    exact ⟨m', node_eq_ok.mpr hm', hrest⟩
  · rw [hstats]
    refine (htally .worldRecomputed).trans ?_
    simp only [counted_behind]
    exact Nat.zero_add _
  · rw [hstats]
    refine (htally .localRecomputed).trans ?_
    simp only [counted_local]
    exact Nat.zero_add _
  · rw [hstats]
    refine (htally .pruned).trans ?_
    simp only [counted_passedOver]
    exact Nat.zero_add _
  · rw [hstats]
    refine (htally .visited).trans ?_
    rw [ncard_visited hv]
    exact Nat.zero_add _
  · have hnone : {x | Rebuild.Counted .geometriesMarked s.nodeAt root x} = ∅ := by
      ext x
      simp [Rebuild.Counted, Rebuild.Counter.geometriesMarked]
    have hzero : r.stats.geometriesMarked = 0 := by
      refine (htally .geometriesMarked).trans ?_
      rw [hnone, Set.ncard_empty]
      rfl
    rw [hstats, ← hunmarked, hzero, Nat.zero_add]

end Rebuilt

/-- A rebuild is accepted, neither of its two recursions ends at its limit, and it recomputes what
is behind and counts what it does. -/
theorem Reachable.rebuildMatrices_exact [Mat4.Arithmetic] (h : Reachable s)
    (hn : s.node root = .ok n) :
    ∃ stats s', rebuildMatrices root s = .ok stats s' ∧
      (∀ limit, s.walkLimit ≤ limit →
        (Rebuild.descend limit root { scene := s }).markTouched = (s', stats) ∧
        ∀ base x, Rebuild.recompute limit base x { scene := s } =
          Rebuild.recompute s.walkLimit base x { scene := s }) ∧
      s.ExactlyRebuilt root s' stats := by
  have hv := h.valid
  have hroot := node_eq_ok.mp hn
  obtain ⟨kind, i, hslot, hk, -⟩ := rowAt_eq_some.mp hroot
  have hindex : s.indexOf .node root = .ok i := indexOf_eq_ok.mpr ⟨kind, hslot, hk⟩
  have hclimb : ∀ x k y, Climb s.nodeAt.up k y x → k < s.walkLimit :=
    fun _ _ _ h => Rebuild.climb_lt_walkLimit hv.sound hv.rooted h
  refine ⟨_, _, bind_ok (run_ask_ok hindex), fun limit hlimit => ⟨?_, fun base x => ?_⟩,
    hv.exactlyRebuilt hroot⟩
  · have hsame : Rebuild.descend limit root { scene := s } =
        Rebuild.descend s.walkLimit root { scene := s } :=
      Rebuild.descend_limit hv.forest (hclimb root) hlimit ⟨hv.sound, rfl⟩
    rw [hsame]
    rfl
  · exact Rebuild.recompute_limit hv.forest (hclimb x) hlimit ⟨hv.sound, rfl⟩

/-- A hub with a quiet arm and a busy one, which carries two meshes that draw one geometry; only
the first mesh was moved since all was rebuilt. -/
def busy : Scene :=
  List.foldl Operation.run {}
    [.insert .geometry ⟨3⟩ "pad", .insert .transform ⟨5⟩ "hub", .insert .transform ⟨6⟩ "quiet",
      .insert .transform ⟨7⟩ "leaf", .insert .transform ⟨8⟩ "busy",
      .apply (.createMesh ⟨9⟩ ⟨3⟩ .null "left") default,
      .apply (.createMesh ⟨10⟩ ⟨3⟩ .null "right") default, .addChild ⟨5⟩ ⟨6⟩, .addChild ⟨6⟩ ⟨7⟩,
      .addChild ⟨5⟩ ⟨8⟩, .addChild ⟨8⟩ ⟨9⟩, .addChild ⟨8⟩ ⟨10⟩, .rebuildAllMatrices,
      .rebuildStaleGeometries, .setPosition ⟨9⟩ .one]

/-- The leaf is not even visited. -/
theorem rebuildMatrices_exact_busy :
    busy.Reachable ∧ ∃ stats s', rebuildMatrices ⟨5⟩ busy = .ok stats s' ∧
      busy.ExactlyRebuilt ⟨5⟩ s' stats ∧ stats =
        { visited := 5, pruned := 2, localRecomputed := 1, worldRecomputed := 1,
          geometriesMarked := 1 } := by
  have h : busy.Reachable := Reachable.empty.runs (by decide)
  obtain ⟨stats, s', hrun, hlimit, hexact⟩ :=
    h.rebuildMatrices_exact (show busy.node ⟨5⟩ = .ok _ from rfl)
  refine ⟨h, stats, s', hrun, hexact, ?_⟩
  have hstats : (busy.rebuiltFrom ⟨5⟩).2 = stats :=
    congrArg Prod.snd (hlimit _ (Nat.le_refl _)).1
  rw [← hstats]
  decide +kernel

end Scene

end SceneGraph
