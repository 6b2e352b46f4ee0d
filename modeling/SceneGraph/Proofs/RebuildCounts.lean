import Mathlib.Data.Set.Card
import SceneGraph.Proofs.Rebuilds

/-!
# What a rebuild counts

Every number in the report of a rebuild is the size of a set of nodes. A number is given by how it
is read off and by the staleness of the nodes that add one to it, apart for the nodes that are
recomputed and for those that are only looked at. One induction over the descent, beside the one
that says what becomes of the nodes, then does for all numbers.
-/

namespace SceneGraph

instance : Finite ComponentId :=
  .of_injective (fun i => i.raw.toFin) fun i j h => by
    cases i
    cases j
    exact congrArg _ (UInt64.toFin_inj.mp h)

namespace Rebuild

open View (Rooted Forest Dirty)

variable {r : Rebuild} {v u : View Node} {P : ComponentId → Prop}
  {Ps Ds : ComponentId → ComponentId → Prop} {F : Rebuild → Rebuild}
  {Fs : ComponentId → Rebuild → Rebuild} {cs : List ComponentId}
  {c p x id : ComponentId} {n m : Node} {base : Mat4} {depth : ℕ}

/-- A number in the report: a node that is recomputed, or that is only looked at, adds one to it if
its staleness says so. -/
structure Counter where
  read : RebuildStats → ℕ
  recomputed : Staleness → Bool
  seen : Staleness → Bool
  read_recomputed : ∀ (r : Rebuild) (n : Node),
    read (r.noteRecomputed n).stats = read r.stats + (recomputed n.stale).toNat
  read_passed : ∀ stats : RebuildStats,
    read { stats with visited := stats.visited + 1 } = read stats + (seen .descendents).toNat
  read_pruned : ∀ stats : RebuildStats,
    read { stats with visited := stats.visited + 1, pruned := stats.pruned + 1 } =
      read stats + (seen .none).toNat

namespace Counter

def visited : Counter :=
  ⟨RebuildStats.visited, fun _ => true, fun _ => true, fun _ _ => rfl, fun _ => rfl, fun _ => rfl⟩

def pruned : Counter :=
  ⟨RebuildStats.pruned, fun _ => false, fun g => g = .none, fun _ _ => rfl, fun _ => rfl,
    fun _ => rfl⟩

def localRecomputed : Counter :=
  ⟨RebuildStats.localRecomputed, fun g => g = .local, fun _ => false,
    fun _ n => by cases h : n.stale <;> simp [noteRecomputed, h], fun _ => rfl, fun _ => rfl⟩

def worldRecomputed : Counter :=
  ⟨RebuildStats.worldRecomputed, fun _ => true, fun _ => false, fun _ _ => rfl, fun _ => rfl,
    fun _ => rfl⟩

def geometriesMarked : Counter :=
  ⟨RebuildStats.geometriesMarked, fun _ => false, fun _ => false, fun _ _ => rfl, fun _ => rfl,
    fun _ => rfl⟩

end Counter

/-- A pass over the nodes under `id` of any scene that looks like `v` there adds the number of
nodes with `P`. -/
def Tally (κ : Counter) (v : View Node) (id : ComponentId) (P : ComponentId → Prop)
    (F : Rebuild → Rebuild) : Prop :=
  ∀ r, Scene.Sound r.scene → Near v r.scene.nodeAt id →
    κ.read (F r).stats = κ.read r.stats + {x | P x}.ncard

variable {κ : Counter}

theorem Tally.of_near (h : Tally κ v id P F) (hu : Near v u id) : Tally κ u id P F :=
  fun r hs hr => h r hs (hu.trans hr)

/-- The tallies of different children of one node add up. -/
theorem tally_siblings [Mat4.Arithmetic] (hs : Scene.Sound r.scene) (hr : Rooted r.scene.nodeAt)
    (hp : ∀ c ∈ cs, r.scene.nodeAt.up c = some p) (hnd : cs.Nodup)
    (h : ∀ c ∈ cs, Pass r.scene.nodeAt c (Ds c) (Fs c))
    (ht : ∀ c ∈ cs, Tally κ r.scene.nodeAt c (Ps c) (Fs c))
    (hunder : ∀ c x, Ps c x → Under r.scene.nodeAt.up x c) :
    κ.read (cs.foldr Fs r).stats = κ.read r.stats + {x | ∃ c ∈ cs, Ps c x}.ncard := by
  induction cs with
  | nil => simp
  | cons c cs ih =>
    have hrest : ∀ b ∈ cs, r.scene.nodeAt.up b = some p :=
      fun b hb => hp b (List.mem_cons_of_mem _ hb)
    have hdone := siblings hs hr hrest (List.nodup_cons.mp hnd).2
      fun b hb => h b (List.mem_cons_of_mem _ hb)
    have hfirst := ht c (List.mem_cons_self ..) _ (hdone.edit.sound hs)
      (hdone.near_sibling hr hp hnd)
    have hothers := ih hrest (List.nodup_cons.mp hnd).2
      (fun b hb => h b (List.mem_cons_of_mem _ hb)) fun b hb => ht b (List.mem_cons_of_mem _ hb)
    have hunion : {x | ∃ b ∈ c :: cs, Ps b x} = {x | ∃ b ∈ cs, Ps b x} ∪ {x | Ps c x} := by
      ext x
      simp [or_comm]
    have hdisj : Disjoint {x | ∃ b ∈ cs, Ps b x} {x | Ps c x} := by
      rw [Set.disjoint_left]
      rintro x ⟨b, hb, hx⟩ hxc
      exact apart_of_siblings hr.ranked hp hnd ⟨b, hb, hunder b x hx⟩ (hunder c x hxc)
    rw [List.foldr_cons, hfirst, hothers, hunion, Set.ncard_union_eq hdisj]
    omega

/-- The node at the top counts by itself, before its children. -/
theorem Tally.node [Mat4.Arithmetic] {f : Node → Node} {t : Rebuild} {one : Bool} (hv : Forest v)
    (hn : v id = some n) (hp : ∀ m, (f m).parent = m.parent) (hid : ∀ m, (f m).id = m.id)
    (h : ∀ c ∈ n.children, Pass (v.modify id f) c (Ds c) (Fs c))
    (ht : ∀ c ∈ n.children, Tally κ (v.modify id f) c (Ps c) (Fs c))
    (hunder : ∀ c x, Ps c x → Under v.up x c)
    (hs : Scene.Sound r.scene) (hr : Near v r.scene.nodeAt id)
    (hscene : t.scene = r.scene.modifyNode id f)
    (hread : κ.read t.stats = κ.read r.stats + one.toNat) :
    κ.read (n.children.foldr Fs t).stats =
      κ.read r.stats + {x | x = id ∧ one = true ∨ ∃ c ∈ n.children, Ps c x}.ncard := by
  have hvt : t.scene.nodeAt = r.scene.nodeAt.modify id f := by
    rw [hscene]
    exact Scene.nodeAt_modifyNode hs f id
  have hst : Scene.Sound t.scene := by
    rw [hscene]
    exact (Scene.NodeEdit.modifyNode _ id hid).sound hs
  have hupt : t.scene.nodeAt.up = v.up := by
    rw [hvt, View.up_modify hp, hr.up]
  have hrt : Rooted t.scene.nodeAt := by
    rw [hvt]
    exact hr.rooted.modify hp
  have hchild : ∀ c ∈ n.children, v.up c = some id := fun c => ((hv.linked id n hn).2 c).mp
  have hnear : ∀ c ∈ n.children, Near (v.modify id f) t.scene.nodeAt c := by
    intro c hc
    rw [hvt]
    exact hr.child hp (hchild c hc)
  have hsum := tally_siblings (r := t) hst hrt (by rwa [hupt]) (hv.linked id n hn).1
    (fun c hc => (h c hc).of_near (hnear c hc)) (fun c hc => (ht c hc).of_near (hnear c hc))
    (by rwa [hupt])
  have hunion : {x | x = id ∧ one = true ∨ ∃ c ∈ n.children, Ps c x} =
      {x | x = id ∧ one = true} ∪ {x | ∃ c ∈ n.children, Ps c x} := rfl
  have hdisj : Disjoint {x | x = id ∧ one = true} {x | ∃ c ∈ n.children, Ps c x} := by
    rw [Set.disjoint_left]
    rintro x ⟨rfl, -⟩ ⟨c, hc, hx⟩
    exact hv.ne_of_above (Above.iff_last.mpr ⟨c, hunder c x hx, hchild c hc⟩) rfl
  have htop : {x | x = id ∧ one = true}.ncard = one.toNat := by
    cases one <;> simp
  rw [hsum, hread, hunion, Set.ncard_union_eq hdisj, htop]
  omega

section Recompute

/-- What a recomputation under `id` counts. -/
def Recounted (κ : Counter) (v : View Node) (id x : ComponentId) : Prop :=
  Under v.up x id ∧ ∃ n, v x = some n ∧ κ.recomputed n.stale = true

theorem recounted_iff {f : Node → Node} (hf : Forest v) (hn : v id = some n)
    (hp : ∀ m, (f m).parent = m.parent) :
    Recounted κ v id x ↔ x = id ∧ κ.recomputed n.stale = true ∨
      ∃ c ∈ n.children, Recounted κ (v.modify id f) c x := by
  have hup : (v.modify id f).up = v.up := View.up_modify hp
  have hchild : ∀ c, c ∈ n.children ↔ v.up c = some id := (hf.linked id n hn).2
  have hne : ∀ {c}, v.up c = some id → Under v.up x c → x ≠ id :=
    fun hc hx => hf.ne_of_above (Above.iff_last.mpr ⟨_, hx, hc⟩)
  simp only [Recounted, hup, hchild]
  constructor
  · rintro ⟨hx, m, hm, hcount⟩
    rcases Under.below_iff.mp hx with rfl | ⟨c, hc, hxc⟩
    · obtain rfl := Option.some.inj (hn.symm.trans hm)
      exact Or.inl ⟨rfl, hcount⟩
    · exact Or.inr ⟨c, hc, hxc, m, by rw [View.modify_of_ne (hne hc hxc), hm], hcount⟩
  · rintro (⟨rfl, hcount⟩ | ⟨c, hc, hxc, m, hm, hcount⟩)
    · exact ⟨Under.refl x, n, hn, hcount⟩
    · rw [View.modify_of_ne (hne hc hxc)] at hm
      exact ⟨hxc.trans (Above.of_parent hc).under, m, hm, hcount⟩

theorem tally_recompute [Mat4.Arithmetic] (κ : Counter) (depth : ℕ) (hf : Forest v)
    (hn : v id = some n) (hb : base = v.worldAt n.parent)
    (hd : ∀ k x, Climb v.up k x id → k < depth) :
    Tally κ v id (Recounted κ v id) (recompute depth base id) := by
  induction depth generalizing v id n base with
  | zero => exact absurd (hd 0 id (.refl id)) (Nat.lt_irrefl 0)
  | succ depth ih =>
    intro r hs hr
    have hu : r.scene.nodeAt id = some n := by rw [hr.same id (Under.refl id), hn]
    have hworld : (v.modify id (Node.refresh · base)).worldAt id =
        (n.refresh base).worldMatrix := View.worldAt_of_some (View.modify_of_some hn)
    have hstart : ∀ c ∈ n.children, Forest (v.modify id (Node.refresh · base)) ∧
        (∃ m, v.modify id (Node.refresh · base) c = some m ∧
          (n.refresh base).worldMatrix =
            (v.modify id (Node.refresh · base)).worldAt m.parent) ∧
        ∀ k x, Climb (v.modify id (Node.refresh · base)).up k x c → k < depth := by
      intro c hc
      obtain ⟨hf', -, ⟨m, hm, hmp⟩, hd'⟩ :=
        child_of_forest hf hn (f := (Node.refresh · base)) (fun _ => rfl) (fun _ => rfl) hd hc
      exact ⟨hf', ⟨m, hm, by rw [hmp, hworld]⟩, hd'⟩
    have hpass : ∀ c ∈ n.children, Pass (v.modify id (Node.refresh · base)) c
        (fun x => Under (v.modify id (Node.refresh · base)).up x c)
        (recompute depth (n.refresh base).worldMatrix c) := by
      intro c hc
      obtain ⟨hf', ⟨m, hm, hbase⟩, hd'⟩ := hstart c hc
      exact pass_recompute depth hf' hm hbase hd'
    have htally : ∀ c ∈ n.children, Tally κ (v.modify id (Node.refresh · base)) c
        (Recounted κ (v.modify id (Node.refresh · base)) c)
        (recompute depth (n.refresh base).worldMatrix c) := by
      intro c hc
      obtain ⟨hf', ⟨m, hm, hbase⟩, hd'⟩ := hstart c hc
      exact ih hf' hm hbase hd'
    have hup : (v.modify id (Node.refresh · base)).up = v.up := View.up_modify fun _ => rfl
    rw [recompute, Scene.node_eq_ok.mpr hu]
    simp only [recounted_iff hf hn (f := (Node.refresh · base)) fun _ => rfl]
    exact Tally.node (f := (Node.refresh · base)) hf hn (fun _ => rfl) (fun _ => rfl) hpass htally
      (fun c x hx => hup ▸ hx.1) hs hr rfl (κ.read_recomputed _ n)

end Recompute

section Descend

/-- The descent from `root` comes to `x`, if nothing on the way is recomputed. -/
def Reached (v : View Node) (root x : ComponentId) : Prop :=
  x = root ∨ ∃ p m, v.up x = some p ∧ Under v.up p root ∧ v p = some m ∧ m.stale = .descendents

/-- What a descent from `root` counts. -/
def Counted (κ : Counter) (v : View Node) (root x : ComponentId) : Prop :=
  ∃ n, v x = some n ∧ (Dirty v root x ∧ κ.recomputed n.stale = true ∨
    ¬ Dirty v root x ∧ Reached v root x ∧ κ.seen n.stale = true)

theorem under_of_dirty (h : Dirty v id x) : Under v.up x id := by
  obtain ⟨y, -, hx, hy, -⟩ := h
  exact hx.trans hy

theorem Counted.under (h : Counted κ v id x) : Under v.up x id := by
  obtain ⟨-, -, ⟨hx, -⟩ | ⟨-, rfl | ⟨p, -, hp, hu, -⟩, -⟩⟩ := h
  · exact under_of_dirty hx
  · exact Under.refl x
  · exact Under.of_parent hp hu

/-- Under a child a descent finds dirty what one from the node itself does. -/
theorem dirty_child (hf : Forest v) (hn : v id = some n) (hrank : n.stale.rank ≤ 1)
    (hv : ∀ y, y ≠ id → u y = v y) (hup : u.up = v.up) (hc : v.up c = some id)
    (hx : Under v.up x c) : Dirty v id x ↔ Dirty u c x := by
  rw [dirty_iff_child hf hn hrank hv hup]
  constructor
  · rintro ⟨b, hb, hdirty⟩
    have hbid := ((hf.linked id n hn).2 b).mp hb
    have hxb : Under v.up x b := hup ▸ under_of_dirty hdirty
    obtain rfl : b = c := by
      by_contra hne
      exact Under.disjoint hf.ranked hbid hc hne hxb hx
    exact hdirty
  · exact fun hdirty => ⟨c, ((hf.linked id n hn).2 c).mpr hc, hdirty⟩

theorem reached_child (hf : Forest v) (hn : v id = some n) (hstale : n.stale = .descendents)
    (hv : ∀ y, y ≠ id → u y = v y) (hup : u.up = v.up) (hc : v.up c = some id)
    (hx : Under v.up x c) : Reached v id x ↔ Reached u c x := by
  have hne : ∀ {y}, Under v.up y c → y ≠ id :=
    fun hy => hf.ne_of_above (Above.iff_last.mpr ⟨c, hy, hc⟩)
  constructor
  · rintro (rfl | ⟨p, m, hp, -, hm, hms⟩)
    · exact absurd rfl (hne hx)
    · rcases Under.eq_or_above.mp hx with rfl | habove
      · exact Or.inl rfl
      · obtain ⟨q, hq, hqc⟩ := Above.iff_parent.mp habove
        obtain rfl := Option.some.inj (hp.symm.trans hq)
        exact Or.inr ⟨p, m, hup ▸ hp, hup ▸ hqc, (hv p (hne hqc)).trans hm, hms⟩
  · rintro (rfl | ⟨p, m, hp, hpc, hm, hms⟩)
    · exact Or.inr ⟨id, n, hc, Under.refl id, hn, hstale⟩
    · rw [hup] at hp hpc
      rw [hv p (hne hpc)] at hm
      exact Or.inr ⟨p, m, hp, hpc.trans (Above.of_parent hc).under, hm, hms⟩

theorem not_dirty_self (hr : Rooted v) (hn : v id = some n) (hrank : n.stale.rank ≤ 1) :
    ¬ Dirty v id id := by
  rintro ⟨y, m, hy, hy', hm, hm'⟩
  rcases Under.eq_or_above.mp hy with rfl | habove
  · obtain rfl := Option.some.inj (hn.symm.trans hm)
    omega
  · exact Above.not_self hr.ranked (habove.trans_under hy')

/-- A descent through a node without stale matrices counts it by itself, and then what the descents
from its children count. -/
theorem counted_iff {f : Node → Node} (hf : Forest v) (hn : v id = some n)
    (hstale : n.stale = .descendents) (hp : ∀ m, (f m).parent = m.parent) :
    Counted κ v id x ↔ x = id ∧ κ.seen .descendents = true ∨
      ∃ c ∈ n.children, Counted κ (v.modify id f) c x := by
  have hup : (v.modify id f).up = v.up := View.up_modify hp
  have hother : ∀ y, y ≠ id → v.modify id f y = v y := fun y hy => View.modify_of_ne hy
  have hrank : n.stale.rank ≤ 1 := by
    rw [hstale]
    decide
  have hchild : ∀ c, c ∈ n.children ↔ v.up c = some id := (hf.linked id n hn).2
  have hself := not_dirty_self hf.toRooted hn hrank
  have hiff : ∀ c, v.up c = some id → Under v.up x c →
      (Counted κ v id x ↔ Counted κ (v.modify id f) c x) := by
    intro c hc hx
    have hne : x ≠ id := hf.ne_of_above (Above.iff_last.mpr ⟨c, hx, hc⟩)
    unfold Counted
    rw [hother x hne, dirty_child hf hn hrank hother hup hc hx,
      reached_child hf hn hstale hother hup hc hx]
  constructor
  · intro hx
    rcases Under.below_iff.mp hx.under with rfl | ⟨c, hc, hxc⟩
    · obtain ⟨m, hm, ⟨hdirty, -⟩ | ⟨-, -, hseen⟩⟩ := hx
      · exact absurd hdirty hself
      · obtain rfl := Option.some.inj (hn.symm.trans hm)
        exact Or.inl ⟨rfl, hstale ▸ hseen⟩
    · exact Or.inr ⟨c, (hchild c).mpr hc, (hiff c hc hxc).mp hx⟩
  · rintro (⟨rfl, hseen⟩ | ⟨c, hc, hx⟩)
    · exact ⟨n, hn, Or.inr ⟨hself, Or.inl rfl, hstale.symm ▸ hseen⟩⟩
    · have hc := (hchild c).mp hc
      exact (hiff c hc (hup ▸ hx.under)).mpr hx

/-- Below a stale node everything is recomputed. -/
theorem counted_of_stale (hn : v id = some n) (hrank : 2 ≤ n.stale.rank) :
    Counted κ v id x ↔ Recounted κ v id x := by
  have hdirty : Dirty v id x ↔ Under v.up x id :=
    ⟨under_of_dirty, fun hx => ⟨id, n, hx, Under.refl id, hn, hrank⟩⟩
  constructor
  · intro hx
    have hu := hx.under
    obtain ⟨m, hm, ⟨-, hcount⟩ | ⟨hx, -⟩⟩ := hx
    · exact ⟨hu, m, hm, hcount⟩
    · exact absurd (hdirty.mpr hu) hx
  · rintro ⟨hu, m, hm, hcount⟩
    exact ⟨m, hm, Or.inl ⟨hdirty.mpr hu, hcount⟩⟩

/-- Below a fresh node nothing is looked at. -/
theorem counted_of_fresh (hm : ∀ x, Above v.up id x → v.MarkedAbove x)
    (hn : v id = some n) (hstale : n.stale = .none) :
    Counted κ v id x ↔ x = id ∧ κ.seen .none = true := by
  have hfresh : ∀ {y m}, Under v.up y id → v y = some m → m.stale = .none :=
    fun hy hmy => View.fresh_below hm hn hstale hy hmy
  have hclean : ¬ Dirty v id x := by
    rintro ⟨y, m, -, hy, hmy, hrank⟩
    rw [hfresh hy hmy] at hrank
    exact absurd hrank (by decide)
  constructor
  · rintro ⟨m, hmx, ⟨hdirty, -⟩ | ⟨-, rfl | ⟨p, l, -, hp, hl, hls⟩, hseen⟩⟩
    · exact absurd hdirty hclean
    · exact ⟨rfl, hfresh (Under.refl x) hmx ▸ hseen⟩
    · rw [hfresh hp hl] at hls
      cases hls
  · rintro ⟨rfl, hseen⟩
    exact ⟨n, hn, Or.inr ⟨hclean, Or.inl rfl, hstale.symm ▸ hseen⟩⟩

theorem tally_descend [Mat4.Arithmetic] (κ : Counter) (depth : ℕ) (hf : Forest v)
    (hn : v id = some n) (hm : ∀ x, Above v.up id x → v.MarkedAbove x)
    (hd : ∀ k x, Climb v.up k x id → k < depth) :
    Tally κ v id (Counted κ v id) (descend depth id) := by
  induction depth generalizing v id n with
  | zero => exact absurd (hd 0 id (.refl id)) (Nat.lt_irrefl 0)
  | succ depth ih =>
    intro r hs hr
    have hu : r.scene.nodeAt id = some n := by rw [hr.same id (Under.refl id), hn]
    rw [descend, Scene.node_eq_ok.mpr hu]
    have hall : 2 ≤ n.stale.rank →
        κ.read (recompute r.scene.walkLimit (r.scene.worldAbove n) id r).stats =
          κ.read r.stats + {x | Counted κ v id x}.ncard := by
      intro hrank
      simp only [counted_of_stale hn hrank]
      refine tally_recompute κ _ hf hn ?_ (fun k x h => ?_) r hs hr
      · rw [worldAbove_eq hr.rooted, hr.above n hn]
      · exact climb_lt_walkLimit hs hr.rooted (hr.up ▸ h)
    cases hstale : n.stale with
    | none =>
      have htop : {x | x = id ∧ κ.seen .none = true}.ncard = (κ.seen .none).toNat := by
        cases κ.seen .none <;> simp
      simp only [hstale, counted_of_fresh hm hn hstale]
      rw [htop]
      exact κ.read_pruned r.stats
    | descendents =>
      have hstart : ∀ c ∈ n.children, Forest (v.modify id fun m => { m with stale := .none }) ∧
          (∃ m, v.modify id (fun m => { m with stale := .none }) c = some m) ∧
          (∀ x, Above (v.modify id fun m => { m with stale := .none }).up c x →
            (v.modify id fun m => { m with stale := .none }).MarkedAbove x) ∧
          ∀ k x, Climb (v.modify id fun m => { m with stale := .none }).up k x c → k < depth := by
        intro c hc
        obtain ⟨hf', hcid, ⟨m, hmc, -⟩, hd'⟩ := child_of_forest hf hn
          (f := fun m => { m with stale := .none }) (fun _ => rfl) (fun _ => rfl) hd hc
        exact ⟨hf', ⟨m, hmc⟩,
          fun x hx => marked_below_child hf.toRooted hm (fun _ => rfl) hcid hx, hd'⟩
      have hpass : ∀ c ∈ n.children, Pass (v.modify id fun m => { m with stale := .none }) c
          (Dirty (v.modify id fun m => { m with stale := .none }) c) (descend depth c) := by
        intro c hc
        obtain ⟨hf', ⟨m, hmc⟩, hm', hd'⟩ := hstart c hc
        exact pass_descend depth hf' hmc hm' hd'
      have htally : ∀ c ∈ n.children, Tally κ (v.modify id fun m => { m with stale := .none }) c
          (Counted κ (v.modify id fun m => { m with stale := .none }) c) (descend depth c) := by
        intro c hc
        obtain ⟨hf', ⟨m, hmc⟩, hm', hd'⟩ := hstart c hc
        exact ih hf' hmc hm' hd'
      have hup : (v.modify id fun m => { m with stale := .none }).up = v.up :=
        View.up_modify fun _ => rfl
      simp only [hstale,
        counted_iff hf hn hstale (f := fun m => { m with stale := .none }) fun _ => rfl]
      exact Tally.node (f := fun m => { m with stale := .none }) hf hn (fun _ => rfl)
        (fun _ => rfl) hpass htally (fun c x hx => hup ▸ hx.under) hs hr rfl
        (κ.read_passed r.stats)
    | world =>
      simp only [hstale]
      exact hall (by rw [hstale]; decide)
    | «local» =>
      simp only [hstale]
      exact hall (by rw [hstale]; decide)

end Descend

/-! ## Geometries -/

section Marks

variable {s : Scene} {g : Geometry} {l : List ComponentId}

/-- The geometries on a list that are not stale yet. -/
def unmarked (s : Scene) (l : List ComponentId) : Set ComponentId :=
  {x | x ∈ l ∧ ∃ g, s.geometryAt x = some g ∧ g.instancesStale = false}

/-- The same geometry on the rest of the list does not count again. -/
theorem unmarked_cons_of_fresh {t : Scene} (hg : s.geometryAt id = some g)
    (hstale : g.instancesStale = false)
    (ht : t.geometryAt = s.geometryAt.modify id fun g => { g with instancesStale := true }) :
    unmarked s (id :: l) = insert id (unmarked t l) ∧ id ∉ unmarked t l := by
  constructor
  · ext x
    by_cases hx : x = id
    · simp [unmarked, hx, hg, hstale]
    · simp [unmarked, hx, ht, View.modify_of_ne hx]
  · simp [unmarked, ht, View.modify_of_some hg]

theorem unmarked_cons_of_stale {t : Scene}
    (hid : ∀ g, s.geometryAt id = some g → g.instancesStale = true)
    (ht : t.geometryAt = s.geometryAt.modify id fun g => { g with instancesStale := true }) :
    unmarked s (id :: l) = unmarked t l := by
  have hnone : ∀ u : Scene, (∀ g, u.geometryAt id = some g → g.instancesStale = true) →
      ∀ l, id ∉ unmarked u l := by
    rintro u hu l ⟨-, g, hg, hfresh⟩
    rw [hu g hg] at hfresh
    cases hfresh
  have hmod : ∀ g, t.geometryAt id = some g → g.instancesStale = true := by
    intro g hg
    rw [ht] at hg
    obtain ⟨a, -, rfl⟩ := View.edit_eq_some.mp hg
    simp
  ext x
  by_cases hx : x = id
  · rw [hx]
    exact iff_of_false (hnone s hid _) (hnone t hmod l)
  · simp [unmarked, hx, ht, View.modify_of_ne hx]

/-- Each geometry on the list that was not stale is marked, and counted once. -/
theorem marks_stats (hs : Scene.Sound s) (stats : RebuildStats) (l : List ComponentId) :
    (l.foldl mark (s, stats)).2 =
      { stats with geometriesMarked := stats.geometriesMarked + (unmarked s l).ncard } := by
  induction l generalizing s stats with
  | nil => simp [unmarked]
  | cons id l ih =>
    obtain ⟨he, hw⟩ := mark_spec hs stats id
    have hrest := ih (he.sound hs) (mark (s, stats) id).2
    rw [List.foldl_cons, hrest]
    by_cases hid : ∀ g, s.geometryAt id = some g → g.instancesStale = true
    · have hmark : (mark (s, stats) id).2 = stats := by
        unfold mark
        split
        · next g hg => simp [hid g (Scene.geometry_eq_ok.mp hg)]
        · rfl
      rw [hmark, unmarked_cons_of_stale hid hw]
    · push Not at hid
      obtain ⟨g, hg, hfresh⟩ := hid
      have hstale : g.instancesStale = false := Bool.eq_false_iff.mpr hfresh
      have hmark : (mark (s, stats) id).2 =
          { stats with geometriesMarked := stats.geometriesMarked + 1 } := by
        simp [mark, Scene.geometry_eq_ok.mpr hg, hstale]
      obtain ⟨hset, hnot⟩ := unmarked_cons_of_fresh (l := l) hg hstale hw
      rw [hmark, hset, Set.ncard_insert_of_notMem hnot]
      simp only [Nat.add_assoc, Nat.add_comm]

end Marks

end Rebuild

end SceneGraph
