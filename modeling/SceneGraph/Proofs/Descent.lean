import SceneGraph.Proofs.Regions
import SceneGraph.Scene.Rebuild

/-!
# Going down a subtree

The two recursions of a rebuild are passes over a subtree: they leave behind a rebuilt region, and
note the geometries of its dirty nodes. A pass depends only on what it finds in its subtree and on
the world matrix above it, so that the passes of different children of one node do not see each
other.
-/

namespace SceneGraph

namespace Rebuild

open View (Rebuilt Rooted Forest Dirty worldAt)

variable {r : Rebuild} {v u : View Node} {D : ComponentId → Prop}
  {Ds : ComponentId → ComponentId → Prop} {F : Rebuild → Rebuild}
  {Fs : ComponentId → Rebuild → Rebuild} {cs : List ComponentId}
  {c p x id : ComponentId} {n m : Node} {base : Mat4} {depth : ℕ}

/-- `r'` has rebuilt the region `R` of `r`, and noted the geometries of the dirty nodes. -/
structure Done [Mat4.Arithmetic] (r r' : Rebuild) (R D : ComponentId → Prop) : Prop where
  edit : Scene.NodeEdit r.scene r'.scene
  rebuilt : Rebuilt r.scene.nodeAt r'.scene.nodeAt R D
  touched : ∀ g, g ∈ r'.touched ↔ g ∈ r.touched ∨ ∃ x, D x ∧ r.scene.nodeAt.draws x = some g

/-- `u` looks like `v` under `id`, and so does the world matrix of the parent. -/
structure Near (v u : View Node) (id : ComponentId) : Prop where
  rooted : Rooted u
  up : u.up = v.up
  same : ∀ x, Under v.up x id → u x = v x
  above : ∀ n, v id = some n → u.worldAt n.parent = v.worldAt n.parent

/-- A pass over the nodes under `id` of any scene that looks like `v` there. -/
def Pass [Mat4.Arithmetic] (v : View Node) (id : ComponentId) (D : ComponentId → Prop)
    (F : Rebuild → Rebuild) : Prop :=
  ∀ r, Scene.Sound r.scene → Near v r.scene.nodeAt id →
    Done r (F r) (fun x => Under v.up x id) D

theorem Done.congr [Mat4.Arithmetic] {r' : Rebuild} {R D' : ComponentId → Prop} (h : Done r r' R D)
    (hD : ∀ x, D x ↔ D' x) : Done r r' R D' := by
  obtain rfl : D = D' := funext fun x => propext (hD x)
  exact h

theorem Done.refl_empty [Mat4.Arithmetic] (r : Rebuild) :
    Done r r (fun _ => False) (fun _ => False) := by
  refine ⟨.refl _, ⟨fun h => h, ?_, ?_, fun _ => rfl, fun h => h⟩, fun g => ?_⟩
  · exact fun h => h.elim
  · exact fun h => h.elim
  · simp

/-- Nothing is under two children of one node. -/
theorem apart_of_siblings {up : ComponentId → Option ComponentId} (hr : Ranked up)
    (hp : ∀ b ∈ c :: cs, up b = some p) (hnd : (c :: cs).Nodup) (hx : ∃ b ∈ cs, Under up x b) :
    ¬ Under up x c := by
  obtain ⟨b, hb, hxb⟩ := hx
  have hne : b ≠ c := fun he => (List.nodup_cons.mp hnd).1 (he ▸ hb)
  exact Under.disjoint hr (hp b (List.mem_cons_of_mem _ hb)) (hp c (List.mem_cons_self ..)) hne hxb

/-- A child looks as before when the passes of its siblings are done. -/
theorem Done.near_sibling [Mat4.Arithmetic] {r' : Rebuild} (hr : Rooted r.scene.nodeAt)
    (hp : ∀ b ∈ c :: cs, r.scene.nodeAt.up b = some p) (hnd : (c :: cs).Nodup)
    (h : Done r r' (fun x => ∃ b ∈ cs, Under r.scene.nodeAt.up x b) D) :
    Near r.scene.nodeAt r'.scene.nodeAt c := by
  obtain ⟨n, hn, hnp, -⟩ := View.up_eq_some.mp (hp c (List.mem_cons_self ..))
  have hpout : ¬ ∃ b ∈ cs, Under r.scene.nodeAt.up p b := by
    intro hx
    obtain ⟨b, hb, hpb⟩ := hx
    have hup : r.scene.nodeAt.up b = some p := hp b (List.mem_cons_of_mem _ hb)
    exact Above.not_self hr.ranked (Above.iff_parent.mpr ⟨p, hup, hpb⟩)
  refine ⟨h.rebuilt.rooted hr, h.rebuilt.up_eq, fun x hx => ?_, fun m hm => ?_⟩
  · exact h.rebuilt.rest fun hx' => apart_of_siblings hr.ranked hp hnd hx' hx
  · obtain rfl : n = m := Option.some.inj (hn.symm.trans hm)
    rw [hnp]
    exact h.rebuilt.worldAt_rest hpout

/-- The passes of different children of one node, one after the other. -/
theorem siblings [Mat4.Arithmetic] (hs : Scene.Sound r.scene) (hr : Rooted r.scene.nodeAt)
    (hp : ∀ c ∈ cs, r.scene.nodeAt.up c = some p) (hnd : cs.Nodup)
    (h : ∀ c ∈ cs, Pass r.scene.nodeAt c (Ds c) (Fs c)) :
    Done r (cs.foldr Fs r) (fun x => ∃ c ∈ cs, Under r.scene.nodeAt.up x c)
      (fun x => ∃ c ∈ cs, Ds c x) := by
  induction cs with
  | nil => simpa using Done.refl_empty r
  | cons c cs ih =>
    have h₁ := ih (fun b hb => hp b (List.mem_cons_of_mem _ hb)) (List.nodup_cons.mp hnd).2
      fun b hb => h b (List.mem_cons_of_mem _ hb)
    have hdisj : ∀ x, (∃ b ∈ cs, Under r.scene.nodeAt.up x b) → ¬ Under r.scene.nodeAt.up x c :=
      fun x hx => apart_of_siblings hr.ranked hp hnd hx
    have h₂ := h c (List.mem_cons_self ..) _ (h₁.edit.sound hs) (h₁.near_sibling hr hp hnd)
    have hdown : ∀ x m, r.scene.nodeAt x = some m → Under r.scene.nodeAt.up m.parent c →
        Under r.scene.nodeAt.up x c := by
      obtain ⟨n, hn, -⟩ := View.up_eq_some.mp (hp c (List.mem_cons_self ..))
      exact fun x m hm hx => View.under_of_parent hr hn hm hx
    refine ⟨h₁.edit.trans h₂.edit, ?_, fun g => ?_⟩
    · refine (h₁.rebuilt.trans h₂.rebuilt hdisj hdown).congr (fun x => ?_) fun x => ?_
      · rw [List.exists_mem_cons_iff, or_comm]
      · rw [List.exists_mem_cons_iff, or_comm]
    · rw [List.foldr_cons, h₂.touched, h₁.touched]
      simp only [h₁.rebuilt.draws_eq, List.exists_mem_cons_iff, or_and_right, exists_or]
      rw [or_assoc, @or_comm (∃ x, (∃ b ∈ cs, Ds b x) ∧ _)]

theorem Near.trans {w : View Node} (h : Near v u id) (h' : Near u w id) : Near v w id where
  rooted := h'.rooted
  up := h'.up.trans h.up
  same x hx := by
    rw [h'.same x (h.up ▸ hx), h.same x hx]
  above m hm := by
    have hu : u id = some m := by rw [h.same id (Under.refl id), hm]
    rw [h'.above m hu, h.above m hm]

theorem Pass.of_near [Mat4.Arithmetic] (h : Pass v id D F) (hu : Near v u id) : Pass u id D F := by
  intro r hs hr
  rw [hu.up]
  exact h r hs (hu.trans hr)

/-- The same change at the top leaves views near to each other under each child. -/
theorem Near.child {f : Node → Node} (h : Near v u id) (hp : ∀ m, (f m).parent = m.parent)
    (hc : v.up c = some id) : Near (v.modify id f) (u.modify id f) c := by
  have hup : (v.modify id f).up = v.up := View.up_modify hp
  have hsame : ∀ x, Under v.up x id → (u.modify id f) x = (v.modify id f) x := by
    intro x hx
    rw [View.modify, View.modify, View.edit, View.edit, h.same x hx]
  refine ⟨h.rooted.modify hp, ?_, fun x hx => hsame x ?_, fun m hm => ?_⟩
  · rw [View.up_modify hp, hup, h.up]
  · rw [hup] at hx
    exact hx.trans (Above.of_parent hc).under
  · rw [← hup] at hc
    obtain ⟨l, hl, hlp, -⟩ := View.up_eq_some.mp hc
    obtain rfl : m = l := Option.some.inj (hm.symm.trans hl)
    rw [hlp, worldAt, worldAt, hsame id (Under.refl id)]

/-- A pass that changes the node at the top by `f` and goes on with its children. -/
theorem Pass.node [Mat4.Arithmetic] {f : Node → Node} {A : Prop} {t : Rebuild} (hv : Forest v)
    (hn : v id = some n) (hf : ∀ m, f m = { m with
      localMatrix := (f m).localMatrix, worldMatrix := (f m).worldMatrix, stale := (f m).stale })
    (hA : A ∧ f n = n.refresh (v.worldAt n.parent) ∨ ¬ A ∧ f n = { n with stale := .none })
    (h : ∀ c ∈ n.children, Pass (v.modify id f) c (Ds c) (Fs c))
    (hs : Scene.Sound r.scene) (hr : Near v r.scene.nodeAt id)
    (hscene : t.scene = r.scene.modifyNode id f)
    (htouched : ∀ g, g ∈ t.touched ↔ g ∈ r.touched ∨ A ∧ v.draws id = some g) :
    Done r (n.children.foldr Fs t) (fun x => Under v.up x id)
      (fun x => x = id ∧ A ∨ ∃ c ∈ n.children, Ds c x) := by
  have hu : r.scene.nodeAt id = some n := by rw [hr.same id (Under.refl id), hn]
  have hp : ∀ m, (f m).parent = m.parent := fun m => by rw [hf]
  have hvt : t.scene.nodeAt = r.scene.nodeAt.modify id f := by
    rw [hscene]
    exact Scene.nodeAt_modifyNode hs f id
  have he : Scene.NodeEdit r.scene t.scene := by
    rw [hscene]
    refine .modifyNode _ id fun m => ?_
    rw [hf]
  have hupt : t.scene.nodeAt.up = v.up := by
    rw [hvt, View.up_modify hp, hr.up]
  have ht : Rooted t.scene.nodeAt := by
    rw [hvt]
    exact hr.rooted.modify hp
  have hl : r.scene.nodeAt.LinkedAt id := by
    intro m hm
    rw [hr.up]
    exact hv.linked id m (by rw [← hr.same id (Under.refl id), hm])
  have hchild : ∀ c ∈ n.children, v.up c = some id := fun c => ((hv.linked id n hn).2 c).mp
  have hnear : ∀ c ∈ n.children, Near (v.modify id f) t.scene.nodeAt c := by
    intro c hc
    rw [hvt]
    exact hr.child hp (hchild c hc)
  have hdone := siblings (r := t) (he.sound hs) ht (by rwa [hupt]) (hv.linked id n hn).1
    fun c hc => (h c hc).of_near (hnear c hc)
  refine ⟨he.trans hdone.edit, ?_, fun g => ?_⟩
  · have hb := hdone.rebuilt
    rw [hupt, hvt, ← hr.up] at hb
    rw [← hr.up]
    refine hb.around hr.rooted hl hu ?_
    rwa [hr.above n hn]
  · have hdraws : t.scene.nodeAt.draws = r.scene.nodeAt.draws := by
      rw [hvt]
      exact View.draws_edit (View.keeps_if fun m => by rw [hf])
    have hid : v.draws id = r.scene.nodeAt.draws id := by
      rw [View.draws_of_some hn, View.draws_of_some hu]
    rw [hdone.touched, htouched, hdraws, hid]
    simp only [or_and_right, exists_or, and_assoc, exists_eq_left, or_assoc]

theorem mem_touched_noteRecomputed (r : Rebuild) (n : Node) (g : ComponentId) :
    g ∈ (r.noteRecomputed n).touched ↔
      g ∈ r.touched ∨ (n.mesh.bind fun b => b.geometry.nonNull) = some g := by
  unfold noteRecomputed
  cases n.mesh with
  | none => simp
  | some b =>
    rw [Option.bind_some, ComponentId.nonNull_eq_some_iff]
    by_cases hb : b.geometry = .null
    · simp [hb]
    · have hnull : b.geometry.isNull = false := ComponentId.isNull_eq_false hb
      simp [hb, hnull, @eq_comm _ g]

/-- What the passes of the children start from. -/
theorem child_of_forest {f : Node → Node} (hf : Forest v) (hn : v id = some n)
    (hp : ∀ m, (f m).parent = m.parent) (hl : ∀ m, (f m).children = m.children)
    (hd : ∀ k x, Climb v.up k x id → k < depth + 1) (hc : c ∈ n.children) :
    Forest (v.modify id f) ∧ v.up c = some id ∧ (∃ m, v.modify id f c = some m ∧ m.parent = id) ∧
      ∀ k x, Climb (v.modify id f).up k x c → k < depth := by
  have hcid : v.up c = some id := ((hf.linked id n hn).2 c).mp hc
  have hup : (v.modify id f).up = v.up := View.up_modify hp
  obtain ⟨m, hm, hmp, -⟩ := View.up_eq_some.mp (hup ▸ hcid)
  refine ⟨hf.modify hp hl, hcid, ⟨m, hm, hmp⟩, fun k x h => ?_⟩
  rw [hup] at h
  have := hd (k + 1) x (h.snoc hcid)
  omega

/-- Everything under a node is recomputed, from the world matrix of its parent. -/
theorem pass_recompute [Mat4.Arithmetic] (depth : ℕ) (hf : Forest v) (hn : v id = some n)
    (hb : base = v.worldAt n.parent) (hd : ∀ k x, Climb v.up k x id → k < depth) :
    Pass v id (fun x => Under v.up x id) (recompute depth base id) := by
  induction depth generalizing v id n base with
  | zero => exact absurd (hd 0 id (.refl id)) (Nat.lt_irrefl 0)
  | succ depth ih =>
    intro r hs hr
    have hu : r.scene.nodeAt id = some n := by rw [hr.same id (Under.refl id), hn]
    have hup : (v.modify id (Node.refresh · base)).up = v.up := View.up_modify fun _ => rfl
    have hchildren : ∀ c ∈ n.children, Pass (v.modify id (Node.refresh · base)) c
        (fun x => Under v.up x c) (recompute depth (n.refresh base).worldMatrix c) := by
      intro c hc
      obtain ⟨hf', -, ⟨m, hm, hmp⟩, hd'⟩ :=
        child_of_forest hf hn (f := (Node.refresh · base)) (fun _ => rfl) (fun _ => rfl) hd hc
      have hworld : (v.modify id (Node.refresh · base)).worldAt id =
          (n.refresh base).worldMatrix := View.worldAt_of_some (View.modify_of_some hn)
      rw [← hup]
      exact ih hf' hm (by rw [hmp, hworld]) hd'
    rw [recompute, Scene.node_eq_ok.mpr hu]
    refine (Pass.node (A := True) hf hn (fun _ => rfl) (Or.inl ⟨trivial, by rw [hb]⟩)
      hchildren hs hr (t := Rebuild.noteRecomputed
        { r with scene := r.scene.modifyNode id (Node.refresh · base) } n) rfl ?_).congr ?_
    · intro g
      rw [View.draws_of_some hn, mem_touched_noteRecomputed, true_and]
    · intro x
      rw [Under.below_iff, and_true]
      simp only [(hf.linked id n hn).2]

theorem worldAbove_eq {s : Scene} (hr : Rooted s.nodeAt) (n : Node) :
    s.worldAbove n = s.nodeAt.worldAt n.parent := by
  rw [Scene.worldAbove, worldAt]
  by_cases hp : n.parent = .null
  · rw [hp, hr.null]
    rfl
  · rw [ComponentId.nonNull_eq_some_iff.mpr ⟨hp, rfl⟩]
    cases hm : s.nodeAt n.parent with
    | none =>
      obtain ⟨e, he⟩ := Scene.find_eq_error hm
      simp [Scene.node, he]
    | some m => simp [Scene.node_eq_ok.mpr hm]

theorem climb_lt_walkLimit {s : Scene} {k : ℕ} (hs : Scene.Sound s) (hr : Rooted s.nodeAt)
    (h : Climb s.nodeAt.up k x id) : k < s.walkLimit := by
  rw [Scene.walkLimit]
  cases k with
  | zero => omega
  | succ k =>
    obtain ⟨p, hp, -⟩ := Climb.succ_iff.mp h
    obtain ⟨n, hn, -⟩ := View.up_eq_some.mp hp
    have := Scene.climb_lt hs hr hn h
    omega

theorem Done.pruned [Mat4.Arithmetic] {stats : RebuildStats}
    (hm : ∀ x, Above v.up id x → v.MarkedAbove x) (hn : v id = some n) (hstale : n.stale = .none)
    (hr : Near v r.scene.nodeAt id) :
    Done r { r with stats } (fun x => Under v.up x id) (Dirty v id) := by
  have hfresh : ∀ {x m}, Under v.up x id → v x = some m → m.stale = .none :=
    fun hx hmx => View.fresh_below hm hn hstale hx hmx
  have hclean : ∀ x, ¬ Dirty v id x := by
    intro x hx
    obtain ⟨y, m, -, hy, hmy, hrank⟩ := hx
    rw [hfresh hy hmy] at hrank
    exact absurd hrank (by decide)
  refine ⟨.refl _, ⟨fun hx => absurd hx (hclean _), fun hx => absurd hx (hclean _), ?_,
    fun _ => rfl, fun h => h⟩, fun g => ?_⟩
  · intro x m hx _ hmx
    have hs := hfresh hx ((hr.same x hx).symm.trans hmx)
    rw [hmx, ← hs]
  · constructor
    · exact fun hg => Or.inl hg
    · intro hg
      rcases hg with hg | ⟨x, hx, -⟩
      · exact hg
      · exact absurd hx (hclean x)

/-- What is dirty under a node without stale matrices is dirty under one of its children. -/
theorem dirty_iff_child (hf : Forest v) (hn : v id = some n) (hrank : n.stale.rank ≤ 1)
    (hv : ∀ y, y ≠ id → u y = v y) (hup : u.up = v.up) :
    Dirty v id x ↔ ∃ c ∈ n.children, Dirty u c x := by
  have hne : ∀ {y c}, v.up c = some id → Under v.up y c → y ≠ id := by
    intro y c hc hy
    exact hf.ne_of_above (Above.iff_last.mpr ⟨c, hy, hc⟩)
  constructor
  · intro hx
    obtain ⟨y, m, hxy, hy, hm, hr⟩ := hx
    rcases Under.below_iff.mp hy with rfl | ⟨c, hc, hyc⟩
    · obtain rfl := Option.some.inj (hn.symm.trans hm)
      omega
    · refine ⟨c, ((hf.linked id n hn).2 c).mpr hc, y, m, ?_, ?_, ?_, hr⟩
      · rwa [hup]
      · rwa [hup]
      · rw [hv y (hne hc hyc), hm]
  · intro hx
    obtain ⟨c, hc, y, m, hxy, hy, hm, hr⟩ := hx
    have hcid := ((hf.linked id n hn).2 c).mp hc
    rw [hup] at hxy hy
    refine ⟨y, m, hxy, hy.trans (Above.of_parent hcid).under, ?_, hr⟩
    rw [← hv y (hne hcid hy), hm]

/-- The marks below a child do not depend on the node itself. -/
theorem marked_below_child {f : Node → Node} (hr : Rooted v)
    (hm : ∀ x, Above v.up id x → v.MarkedAbove x) (hp : ∀ m, (f m).parent = m.parent)
    (hc : v.up c = some id) (hx : Above (v.modify id f).up c x) :
    (v.modify id f).MarkedAbove x := by
  have hup : (v.modify id f).up = v.up := View.up_modify hp
  intro a q b ha hq hb has
  rw [hup] at hx hq
  obtain ⟨q', hq', hqc⟩ := Above.iff_parent.mp hx
  obtain rfl : q = q' := Option.some.inj (hq.symm.trans hq')
  have hxid : Above v.up id x := hx.trans_under (Above.of_parent hc).under
  have hqid : Above v.up id q := Above.iff_last.mpr ⟨c, hqc, hc⟩
  rw [View.modify_of_ne (hr.ne_of_above hxid)] at ha
  rw [View.modify_of_ne (hr.ne_of_above hqid)] at hb
  exact hm x hxid a q b ha hq hb has

/-- What is stale under a node is recomputed, with all below it. -/
theorem pass_descend [Mat4.Arithmetic] (depth : ℕ) (hf : Forest v) (hn : v id = some n)
    (hm : ∀ x, Above v.up id x → v.MarkedAbove x) (hd : ∀ k x, Climb v.up k x id → k < depth) :
    Pass v id (Dirty v id) (descend depth id) := by
  induction depth generalizing v id n with
  | zero => exact absurd (hd 0 id (.refl id)) (Nat.lt_irrefl 0)
  | succ depth ih =>
    intro r hs hr
    have hu : r.scene.nodeAt id = some n := by rw [hr.same id (Under.refl id), hn]
    rw [descend, Scene.node_eq_ok.mpr hu]
    have hall : 2 ≤ n.stale.rank → Done r (recompute r.scene.walkLimit (r.scene.worldAbove n) id r)
        (fun x => Under v.up x id) (Dirty v id) := by
      intro hrank
      refine (pass_recompute r.scene.walkLimit hf hn ?_ ?_ r hs hr).congr fun x => ?_
      · rw [worldAbove_eq hr.rooted, hr.above n hn]
      · intro k x h
        rw [← hr.up] at h
        exact climb_lt_walkLimit hs hr.rooted h
      · constructor
        · exact fun hx => ⟨id, n, hx, Under.refl id, hn, hrank⟩
        · intro hx
          obtain ⟨y, m, hxy, hy, -⟩ := hx
          exact hxy.trans hy
    cases hstale : n.stale with
    | none =>
      simp only [hstale]
      exact Done.pruned hm hn hstale hr
    | descendents =>
      have hup : (v.modify id fun m => { m with stale := .none }).up = v.up :=
        View.up_modify fun _ => rfl
      have hother : ∀ y, y ≠ id → (v.modify id fun m => { m with stale := .none }) y = v y :=
        fun y hy => View.modify_of_ne hy
      have hchildren : ∀ c ∈ n.children, Pass (v.modify id fun m => { m with stale := .none }) c
          (Dirty (v.modify id fun m => { m with stale := .none }) c) (descend depth c) := by
        intro c hc
        obtain ⟨hf', hcid, ⟨m, hmc, -⟩, hd'⟩ := child_of_forest hf hn
          (f := fun m => { m with stale := .none }) (fun _ => rfl) (fun _ => rfl) hd hc
        exact ih hf' hmc
          (fun x hx => marked_below_child hf.toRooted hm (fun _ => rfl) hcid hx) hd'
      simp only [hstale]
      refine (Pass.node (A := False) (f := fun m => { m with stale := .none })
        hf hn (fun _ => rfl) (Or.inr ⟨fun h => h, rfl⟩) hchildren hs hr rfl ?_).congr ?_
      · simp
      · intro x
        rw [dirty_iff_child hf hn (by rw [hstale]; decide) hother hup]
        simp
    | world =>
      simp only [hstale]
      exact hall (by rw [hstale]; decide)
    | «local» =>
      simp only [hstale]
      exact hall (by rw [hstale]; decide)

end Rebuild

end SceneGraph
