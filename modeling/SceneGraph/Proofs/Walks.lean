import SceneGraph.Proofs.Freshness

/-!
# Walks up the parents

The test for ancestors and the marking of ancestors both follow parent links for a bounded number
of steps. In a sound scene whose links are rooted the bound never cuts a walk short: the test is
exact, and, though the marking ends at the first node that is stale already, it has the effect of
marking every node above.
-/

namespace SceneGraph.View

variable {v : View Node} {id x : ComponentId} {n m : Node} {g : Staleness}

open Classical in
/-- Marks `id` and every node above. -/
noncomputable def mark (v : View Node) (id : ComponentId) : View Node :=
  v.edit fun x n => if Under v.up id x then n.raise .descendents else n

theorem mark_of_none (hid : v id = none) : v.mark id = v := by
  apply edit_id
  intro x m hx
  rw [if_neg]
  intro hu
  rw [Under.eq_or_above, Above.iff_parent, up_of_none hid] at hu
  rcases hu with rfl | ⟨p, hp, -⟩
  · simp [hid] at hx
  · cases hp

theorem stale_above (hm : ∀ x, Under v.up id x → v.MarkedAbove x) (hn : v id = some n)
    (h : n.stale ≠ .none) (hx : Under v.up id x) (hmx : v x = some m) : m.stale ≠ .none := by
  obtain ⟨k, hx⟩ := hx
  induction k generalizing x m with
  | zero =>
    obtain rfl := Climb.zero_iff.mp hx
    obtain rfl : n = m := Option.some.inj (hn.symm.trans hmx)
    exact h
  | succ k ih =>
    obtain ⟨y, hy, hup⟩ := Climb.succ_iff_last.mp hx
    obtain ⟨l, hl, -⟩ := up_eq_some.mp hup
    exact hm y ⟨k, hy⟩ l x m hl hup hmx (ih hl hy)

/-- Above a stale node there is nothing to mark. -/
theorem mark_of_stale (hm : ∀ x, Under v.up id x → v.MarkedAbove x) (hn : v id = some n)
    (h : n.stale ≠ .none) : v.mark id = v := by
  apply edit_id
  intro x m hx
  split
  · next hu => exact Node.raise_of_le (Node.ne_none_iff.mp (stale_above hm hn h hu hx))
  · rfl

theorem under_parent_iff (hr : Rooted v) (hn : v id = some n) (hx : v x = some m) :
    Under v.up n.parent x ↔ Above v.up x id := by
  rw [Above.iff_parent, up_of_some hn]
  by_cases hp : n.parent = .null
  · rw [hp, Under.eq_or_above, Above.iff_parent, up_of_none hr.null]
    simp [Ne.symm (hr.ne_null hx)]
  · simp [ComponentId.nonNull_eq_some_iff, hp]

theorem mark_of_fresh (hr : Rooted v) (hn : v id = some n) (h : n.stale = .none) :
    v.mark id = (v.modify id fun n => { n with stale := .descendents }).mark n.parent := by
  have hup : (v.modify id fun n => { n with stale := .descendents }).up = v.up := by
    refine up_edit fun x n => ?_
    split <;> rfl
  rw [mark, mark, hup, modify, edit_edit]
  refine edit_congr fun x m hx => ?_
  rw [Under.eq_or_above, under_parent_iff hr hn hx, @eq_comm _ id x]
  by_cases hxid : x = id
  · subst hxid
    obtain rfl : n = m := Option.some.inj (hn.symm.trans hx)
    rw [if_pos rfl, if_neg (Above.not_self hr.ranked), if_pos (Or.inl rfl), Node.raise, h]
    rfl
  · by_cases ha : Above v.up x id <;> simp [hxid, ha]

theorem MarkedAbove.modify {f : Node → Node} (h : v.MarkedAbove x) (hx : x ≠ id)
    (hp : ∀ n, (f n).parent = n.parent) (hf : ∀ n, n.stale ≠ .none → (f n).stale ≠ .none) :
    (v.modify id f).MarkedAbove x := by
  refine h.edit ?_ ?_ ?_
  · intro y n
    split
    · exact hp n
    · rfl
  · intro n hs
    rwa [if_neg hx] at hs
  · intro y n hs
    split
    · exact hf n hs
    · exact hs

theorem mark_up_eq_flag (hr : Rooted v) (g : Staleness) (hn : v id = some n) :
    (v.modify id fun n => n.raise g).mark n.parent = v.flag id g := by
  have hup : (v.modify id fun n => n.raise g).up = v.up := up_modify fun _ => rfl
  rw [mark, flag, hup, modify, edit_edit]
  refine edit_congr fun x m hx => ?_
  rw [under_parent_iff hr hn hx]
  by_cases hxid : x = id
  · subst hxid
    simp only [if_pos, if_neg (Above.not_self hr.ranked)]
    rfl
  · simp only [if_neg hxid]
    split <;> rfl

theorem flag_of_none (h : v id = none) (g : Staleness) : v.flag id g = v := by
  apply edit_id
  intro x n hx
  have hxid : x ≠ id := by
    intro he
    simp [he, h] at hx
  have hxa : ¬ Above v.up x id := by
    intro ha
    obtain ⟨p, hp, -⟩ := Above.iff_parent.mp ha
    rw [up_of_none h] at hp
    cases hp
  rw [if_neg hxid, if_neg hxa]

end SceneGraph.View

namespace SceneGraph.Scene

variable {s : Scene} {id p x : ComponentId} {n m : Node} {g : Staleness} {k : ℕ}

theorem parentOf_of_up (h : s.nodeAt.up id = some p) : s.parentOf id = p := by
  obtain ⟨n, hn, hp, -⟩ := View.up_eq_some.mp h
  rw [parentOf_eq, hn]
  exact hp

theorem parentOf_of_root (h : s.nodeAt.up id = none) : s.parentOf id = .null := by
  rw [parentOf_eq]
  cases hn : s.nodeAt id with
  | none => rfl
  | some n =>
    rw [View.up_of_some hn, ComponentId.nonNull] at h
    split at h
    · next hp => exact (ComponentId.isNull_iff _).mp hp
    · cases h

/-- A walk up from a node is shorter than the number of nodes. -/
theorem climb_lt (hs : Sound s) (hr : View.Rooted s.nodeAt) (hn : s.nodeAt id = some n)
    (h : Climb s.nodeAt.up k id x) : k < s.nodes.size := by
  have hmem : ∀ {y m}, s.nodeAt y = some m → y ∈ s.nodes.ids := by
    intro y m hm
    obtain ⟨hrow, hid⟩ := (mem_nodes hs).mp hm
    exact List.mem_map.mpr ⟨m, hrow, hid⟩
  have hlt : k < s.nodes.ids.length := by
    refine h.lt_length hr.ranked (fun c p hp => ?_) (hmem hn)
    obtain ⟨m, hm⟩ := hr.parent hp
    exact hmem hm
  simpa [Table.ids, Table.size] using hlt

section Ancestors

theorem meets_null (fuel : ℕ) (target : ComponentId) : s.meets target fuel .null = false := by
  cases fuel <;> rfl

theorem meets_iff (hr : View.Rooted s.nodeAt) {target : ComponentId} (fuel : ℕ)
    (hn : s.nodeAt id = some n) (hf : ∀ k a, Climb s.nodeAt.up k id a → k < fuel) :
    s.meets target fuel id = true ↔ Under s.nodeAt.up id target := by
  induction fuel generalizing id n with
  | zero => exact absurd (hf 0 id (.refl id)) (Nat.lt_irrefl 0)
  | succ fuel ih =>
    have hid : id.isNull = false := ComponentId.isNull_eq_false (hr.ne_null hn)
    rw [meets, hid, Under.eq_or_above, Above.iff_parent]
    cases hu : s.nodeAt.up id with
    | none =>
      rw [parentOf_of_root hu, meets_null]
      simp
    | some p =>
      obtain ⟨m, hm⟩ := hr.parent hu
      have hp : s.meets target fuel p = true ↔ Under s.nodeAt.up p target := by
        refine ih hm fun k a h => ?_
        have := hf (k + 1) a (.step hu h)
        omega
      rw [parentOf_of_up hu]
      simp [hp]

/-- The test for ancestors is exact; its bound is never reached. -/
theorem isAncestor_iff (hs : Sound s) (hr : View.Rooted s.nodeAt) (a id : ComponentId) :
    s.isAncestor a id = true ↔ Above s.nodeAt.up a id := by
  rw [isAncestor, Above.iff_parent]
  cases hu : s.nodeAt.up id with
  | none =>
    rw [parentOf_of_root hu, meets_null]
    simp
  | some p =>
    obtain ⟨m, hm⟩ := hr.parent hu
    have hf : ∀ k b, Climb s.nodeAt.up k p b → k < s.walkLimit := by
      intro k b h
      have := climb_lt hs hr hm h
      rw [walkLimit]
      omega
    rw [parentOf_of_up hu, meets_iff hr _ hm hf]
    simp

end Ancestors

section Marking

theorem markUpward_null (fuel : ℕ) : markUpward fuel .null s = s := by
  cases fuel <;> rfl

/-- The other scene has the same nodes with other links between them, and none is less stale. -/
inductive Relinked (s : Scene) : Scene → Prop
  | refl : Relinked s s
  | modifyNode {t : Scene} {id : ComponentId} {f : Node → Node} (h : Relinked s t)
      (hf : ∀ n, f n =
        { n with parent := (f n).parent, children := (f n).children, stale := (f n).stale })
      (hstale : ∀ n, t.node id = .ok n → n.stale.rank ≤ (f n).stale.rank) :
      Relinked s (t.modifyNode id f)

namespace Relinked

variable {t : Scene}

theorem nodeEdit (h : Relinked s t) : NodeEdit s t := by
  induction h with
  | refl => exact .refl s
  | @modifyNode t id f _ hf _ ih =>
    exact ih.trans (.modifyNode t id fun n => by rw [hf])

theorem modifyLinks {f : Node → Node} (h : Relinked s t)
    (hf : ∀ n, f n = { n with parent := (f n).parent, children := (f n).children }) :
    Relinked s (t.modifyNode id f) := by
  have hstale : ∀ n, (f n).stale = n.stale := fun n => by rw [hf]
  refine h.modifyNode (fun n => ?_) fun n _ => Nat.le_of_eq (by rw [hstale])
  rw [hstale]
  exact hf n

theorem markUpward (h : Relinked s t) (fuel : ℕ) (id : ComponentId) :
    Relinked s (markUpward fuel id t) := by
  induction fuel generalizing id t with
  | zero => exact h
  | succ fuel ih =>
    unfold Scene.markUpward
    split
    · exact h
    · split
      · exact h
      · next n hn =>
        split
        · next hfresh =>
          refine ih (.modifyNode h (fun _ => rfl) fun m hm => ?_) _
          obtain rfl : n = m := Except.ok.inj (hn.symm.trans hm)
          rw [hfresh]
          exact Nat.zero_le _
        · exact h

theorem flag (h : Relinked s t) (id : ComponentId) (g : Staleness) : Relinked s (t.flag id g) :=
  (h.modifyNode (fun _ => rfl) fun n _ => n.rank_le_raise g).markUpward _ _

end Relinked

theorem nodeEdit_flag (s : Scene) (id : ComponentId) (g : Staleness) :
    NodeEdit s (s.flag id g) :=
  (Relinked.refl.flag id g).nodeEdit

/-- What has to hold for the marking to reach every node above. -/
structure Markable (s : Scene) (id : ComponentId) (fuel : ℕ) : Prop where
  sound : Sound s
  rooted : View.Rooted s.nodeAt
  marked : ∀ x, Under s.nodeAt.up id x → s.nodeAt.MarkedAbove x
  fuel : ∀ n k a, s.nodeAt id = some n → Climb s.nodeAt.up k id a → k < fuel

theorem Markable.parent {f : Node → Node} {fuel : ℕ} (hs : Sound s) (hr : View.Rooted s.nodeAt)
    (hn : s.nodeAt id = some n) (hm : ∀ x, Above s.nodeAt.up x id → s.nodeAt.MarkedAbove x)
    (hfuel : ∀ k a, Climb s.nodeAt.up (k + 1) id a → k < fuel) (hid : ∀ n, (f n).id = n.id)
    (hp : ∀ n, (f n).parent = n.parent) (hf : ∀ n, n.stale ≠ .none → (f n).stale ≠ .none) :
    Markable (s.modifyNode id f) n.parent fuel := by
  have hv : (s.modifyNode id f).nodeAt = s.nodeAt.modify id f := nodeAt_modifyNode hs f id
  have hup : (s.modifyNode id f).nodeAt.up = s.nodeAt.up := by
    rw [hv]
    exact View.up_modify hp
  refine ⟨(NodeEdit.modifyNode s id hid).sound hs, ?_, ?_, ?_⟩
  · rw [hv]
    exact hr.modify hp
  · intro x hx m q l hmx
    rw [hup] at hx
    rw [hv] at hmx ⊢
    obtain ⟨m', hm', -⟩ := View.edit_eq_some.mp hmx
    have ha : Above s.nodeAt.up x id := (View.under_parent_iff hr hn hm').mp hx
    exact (hm x ha).modify (hr.ne_of_above ha).symm hp hf m q l hmx
  · intro m k a hm h
    rw [hup] at h
    rw [hv] at hm
    obtain ⟨m', hm', -⟩ := View.edit_eq_some.mp hm
    exact hfuel k a (.step (View.up_eq_some.mpr ⟨n, hn, rfl, hr.ne_null hm'⟩) h)

/-- Marking ends at the first stale node, and yet marks all there are to mark. -/
theorem nodeAt_markUpward (fuel : ℕ) (h : Markable s id fuel) :
    (markUpward fuel id s).nodeAt = s.nodeAt.mark id := by
  induction fuel generalizing id s with
  | zero =>
    cases hn : s.nodeAt id with
    | none => exact (View.mark_of_none hn).symm
    | some n => exact absurd (h.fuel n 0 id hn (.refl id)) (Nat.lt_irrefl 0)
  | succ fuel ih =>
    cases hn : s.nodeAt id with
    | none =>
      obtain ⟨e, he⟩ := find_eq_error hn
      rw [View.mark_of_none hn, markUpward, node, he]
      split <;> rfl
    | some n =>
      have hid : id.isNull = false := ComponentId.isNull_eq_false (h.rooted.ne_null hn)
      rw [markUpward, hid, node_eq_ok.mpr hn]
      by_cases hstale : n.stale = .none
      · simp only [Bool.false_eq_true, if_false, if_pos hstale]
        rw [View.mark_of_fresh h.rooted hn hstale, ← nodeAt_modifyNode h.sound]
        apply ih
        refine Markable.parent h.sound h.rooted hn (fun x hx => h.marked x hx.under) ?_
          (fun _ => rfl) (fun _ => rfl) fun _ _ => by simp
        intro k a hk
        have := h.fuel n (k + 1) a hn hk
        omega
      · simp only [Bool.false_eq_true, if_false, if_neg hstale]
        rw [View.mark_of_stale h.marked hn hstale]

/-- No walk comes to a limit that is at least the number of nodes. -/
theorem nodeAt_markFrom (hs : Sound s) (hr : View.Rooted s.nodeAt)
    (hm : ∀ x, Above s.nodeAt.up x id → s.nodeAt.MarkedAbove x) (hn : s.nodeAt id = some n)
    (g : Staleness) {fuel : ℕ} (hfuel : s.nodes.size ≤ fuel) :
    (markUpward fuel n.parent (s.modifyNode id fun n => n.raise g)).nodeAt =
      s.nodeAt.flag id g := by
  rw [← View.mark_up_eq_flag hr g hn, ← nodeAt_modifyNode hs]
  apply nodeAt_markUpward
  refine Markable.parent hs hr hn hm ?_ (fun _ => rfl) (fun _ => rfl) fun n hn =>
    n.raise_ne_none hn g
  intro k a hk
  have := climb_lt hs hr hn hk
  omega

theorem nodeAt_flag (hs : Sound s) (hr : View.Rooted s.nodeAt)
    (hm : ∀ x, Above s.nodeAt.up x id → s.nodeAt.MarkedAbove x) (g : Staleness) :
    (s.flag id g).nodeAt = s.nodeAt.flag id g := by
  rw [flag, parentOf_eq]
  cases hn : s.nodeAt id with
  | none =>
    rw [View.flag_of_none hn, ← View.modify_of_none hn, ← nodeAt_modifyNode hs]
    exact congrArg nodeAt (markUpward_null _)
  | some n => exact nodeAt_markFrom hs hr hm hn g (Nat.le_succ _)

end Marking

end SceneGraph.Scene
