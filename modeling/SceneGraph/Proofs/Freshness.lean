import SceneGraph.Proofs.Hierarchy

/-!
# Fresh matrices

A cached matrix may be behind only where the staleness of its node says so: the local one if it is
`local`, the world one, which is taken relative to the cached world matrix of the parent, if it is
`world` or `local`. A node that is stale in any way has a parent that is. An edit breaks this at
the node that it concerns at most, and raising the staleness there mends it.
-/

namespace SceneGraph

namespace Node

variable {n : Node} {f : Staleness}

theorem rank_raise (n : Node) (f : Staleness) :
    (n.raise f).stale.rank = Nat.max n.stale.rank f.rank :=
  Staleness.rank_max n.stale f

theorem rank_le_raise (n : Node) (f : Staleness) : n.stale.rank ≤ (n.raise f).stale.rank := by
  rw [rank_raise]
  exact Nat.le_max_left _ _

theorem le_rank_raise (n : Node) (f : Staleness) : f.rank ≤ (n.raise f).stale.rank := by
  rw [rank_raise]
  exact Nat.le_max_right _ _

theorem ne_none_iff {f : Staleness} : f ≠ .none ↔ 1 ≤ f.rank := by
  cases f <;> decide

theorem ne_local_iff {f : Staleness} : f ≠ .local ↔ f.rank ≤ 2 := by
  cases f <;> decide

theorem raise_ne_none (h : n.stale ≠ .none) (f : Staleness) : (n.raise f).stale ≠ .none := by
  rw [ne_none_iff] at h ⊢
  exact Nat.le_trans h (n.rank_le_raise f)

theorem raise_descendents_ne_none (n : Node) : (n.raise .descendents).stale ≠ .none := by
  rw [ne_none_iff]
  exact n.le_rank_raise .descendents

theorem raise_of_le (h : f.rank ≤ n.stale.rank) : n.raise f = n := by
  have hs : max n.stale f = n.stale := if_neg (Nat.not_lt.mpr h)
  rw [raise, hs]

end Node

namespace View

variable {v : View Node} {f : ComponentId → Node → Node} {g : Staleness}
  {c p x id : ComponentId} {n : Node}

/-- If `x` is stale in any way, so is its parent. -/
def MarkedAbove (v : View Node) (x : ComponentId) : Prop :=
  ∀ n p m, v x = some n → v.up x = some p → v p = some m → n.stale ≠ .none → m.stale ≠ .none

def LocalFresh [Mat4.Arithmetic] (v : View Node) (x : ComponentId) : Prop :=
  ∀ n, v x = some n → n.stale ≠ .local → n.localMatrix = n.computeLocal

/-- The cached world matrix of `p`; the identity if `p` is no node. -/
def worldAt (v : View Node) (p : ComponentId) : Mat4 :=
  ((v p).map Node.worldMatrix).getD .identity

def WorldFresh [Mat4.Arithmetic] (v : View Node) (x : ComponentId) : Prop :=
  ∀ n, v x = some n → n.stale.rank ≤ 1 → n.worldMatrix = v.worldAt n.parent * n.localMatrix

structure Fresh [Mat4.Arithmetic] (v : View Node) : Prop where
  marked : ∀ x, v.MarkedAbove x
  local_eq : ∀ x, v.LocalFresh x
  world_eq : ∀ x, v.WorldFresh x

theorem worldAt_of_some (h : v p = some n) : v.worldAt p = n.worldMatrix := by
  simp [worldAt, h]

theorem worldAt_edit (hf : ∀ x n, (f x n).worldMatrix = n.worldMatrix) :
    (v.edit f).worldAt = v.worldAt := by
  funext p
  cases hp : v p with
  | none => simp [worldAt, edit, hp]
  | some n => simp [worldAt, edit, hp, hf]

theorem MarkedAbove.edit (h : v.MarkedAbove x) (hp : ∀ x n, (f x n).parent = n.parent)
    (hx : ∀ n, (f x n).stale ≠ .none → n.stale ≠ .none)
    (hu : ∀ p n, n.stale ≠ .none → (f p n).stale ≠ .none) : (v.edit f).MarkedAbove x := by
  intro n' p m' hn' hup hm' hs
  obtain ⟨n, hn, rfl⟩ := edit_eq_some.mp hn'
  obtain ⟨m, hm, rfl⟩ := edit_eq_some.mp hm'
  rw [up_edit hp] at hup
  exact hu p m (h n p m hn hup hm (hx n hs))

theorem LocalFresh.edit [Mat4.Arithmetic] (h : v.LocalFresh x)
    (hf : ∀ n, (f x n).stale ≠ .local → n.stale ≠ .local ∧
      (f x n).localMatrix = n.localMatrix ∧ (f x n).computeLocal = n.computeLocal) :
    (v.edit f).LocalFresh x := by
  intro n' hn' hs
  obtain ⟨n, hn, rfl⟩ := edit_eq_some.mp hn'
  obtain ⟨hs, hl, hc⟩ := hf n hs
  rw [hl, hc]
  exact h n hn hs

theorem WorldFresh.edit [Mat4.Arithmetic] (h : v.WorldFresh x)
    (hw : ∀ x n, (f x n).worldMatrix = n.worldMatrix)
    (hf : ∀ n, (f x n).stale.rank ≤ 1 → n.stale.rank ≤ 1 ∧
      (f x n).localMatrix = n.localMatrix ∧ (f x n).parent = n.parent) :
    (v.edit f).WorldFresh x := by
  intro n' hn' hs
  obtain ⟨n, hn, rfl⟩ := edit_eq_some.mp hn'
  obtain ⟨hs, hl, hp⟩ := hf n hs
  rw [hw, hl, hp, worldAt_edit hw]
  exact h n hn hs

/-- Raising the staleness of `id` mends what an edit of `id` may have broken. -/
theorem MarkedAbove.flag (hr : Rooted v) (h : x ≠ id → v.MarkedAbove x) (g : Staleness) :
    (v.flag id g).MarkedAbove x := by
  intro n' p m' hn' hup hm' hs
  obtain ⟨n, hn, rfl⟩ := edit_eq_some.mp hn'
  obtain ⟨m, hm, rfl⟩ := edit_eq_some.mp hm'
  rw [up_flag] at hup
  by_cases ha : Above v.up p id
  · have hpi : p ≠ id := (hr.ne_of_above ha).symm
    simp only [if_neg hpi, if_pos ha]
    exact m.raise_descendents_ne_none
  · have hx : x ≠ id := by
      intro he
      exact ha (Above.of_parent (he ▸ hup))
    have hxa : ¬ Above v.up x id := fun hxa => ha (hxa.trans_under ⟨1, .step hup (.refl p)⟩)
    simp only [if_neg hx, if_neg hxa] at hs
    have hms := h hx n p m hn hup hm hs
    simp only [if_neg ha]
    split
    · exact Node.raise_ne_none hms g
    · exact hms

/-- The flags of `v.flag id g` are those of `v` or higher. -/
theorem rank_le_flag {n' : Node} (h : v.flag id g x = some n') :
    ∃ n, v x = some n ∧ n' = { n with stale := n'.stale } ∧ n.stale.rank ≤ n'.stale.rank ∧
      (x = id → g.rank ≤ n'.stale.rank) := by
  obtain ⟨n, hn, rfl⟩ := edit_eq_some.mp h
  refine ⟨n, hn, rfl, ?_, ?_⟩
  · dsimp only
    split
    · exact n.rank_le_raise g
    · split
      · exact n.rank_le_raise .descendents
      · exact Nat.le_refl _
  · intro hx
    simp only [if_pos hx]
    exact n.le_rank_raise g

theorem LocalFresh.flag [Mat4.Arithmetic] (h : v.LocalFresh x ∨ x = id ∧ g = .local) :
    (v.flag id g).LocalFresh x := by
  intro n' hn' hs
  obtain ⟨n, hn, he, hle, hid⟩ := rank_le_flag hn'
  rw [Node.ne_local_iff] at hs
  rcases h with h | ⟨hx, hg⟩
  · rw [he]
    exact h n hn (Node.ne_local_iff.mpr (Nat.le_trans hle hs))
  · have hr := Nat.le_trans (hid hx) hs
    rw [hg] at hr
    exact absurd hr (by decide)

theorem WorldFresh.flag [Mat4.Arithmetic] (h : v.WorldFresh x ∨ x = id ∧ 2 ≤ g.rank) :
    (v.flag id g).WorldFresh x := by
  have hw : (v.flag id g).worldAt = v.worldAt := worldAt_edit fun _ _ => rfl
  intro n' hn' hs
  obtain ⟨n, hn, he, hle, hid⟩ := rank_le_flag hn'
  rcases h with h | ⟨hx, hg⟩
  · rw [he, hw]
    exact h n hn (Nat.le_trans hle hs)
  · have hr := hid hx
    omega

theorem MarkedAbove.unlink (h : v.MarkedAbove x) (c : ComponentId) :
    (v.unlink c).MarkedAbove x := by
  intro n' p m' hn' hup hm' hs
  obtain ⟨n, hn, rfl⟩ := edit_eq_some.mp hn'
  obtain ⟨m, hm, rfl⟩ := edit_eq_some.mp hm'
  simp only [up_unlink] at hup
  split at hup
  · cases hup
  · exact h n p m hn hup hm hs

theorem LocalFresh.unlink [Mat4.Arithmetic] (h : v.LocalFresh x) (c : ComponentId) :
    (v.unlink c).LocalFresh x :=
  h.edit fun _ hs => ⟨hs, rfl, rfl⟩

theorem WorldFresh.unlink [Mat4.Arithmetic] (h : v.WorldFresh x) (hx : x ≠ c) :
    (v.unlink c).WorldFresh x :=
  h.edit (fun _ _ => rfl) fun _ hs => ⟨hs, rfl, if_neg hx⟩

theorem MarkedAbove.link (h : v.MarkedAbove x) (hc : v c = some n) (p : ComponentId)
    (hx : x ≠ c) : (v.link p c).MarkedAbove x := by
  intro n' q m' hn' hup hm' hs
  obtain ⟨n, hn, rfl⟩ := edit_eq_some.mp hn'
  obtain ⟨m, hm, rfl⟩ := edit_eq_some.mp hm'
  simp only [up_link hc, if_neg hx] at hup
  exact h n q m hn hup hm hs

theorem LocalFresh.link [Mat4.Arithmetic] (h : v.LocalFresh x) (p c : ComponentId) :
    (v.link p c).LocalFresh x :=
  h.edit fun _ hs => ⟨hs, rfl, rfl⟩

theorem WorldFresh.link [Mat4.Arithmetic] (h : v.WorldFresh x) (hx : x ≠ c) :
    (v.link p c).WorldFresh x :=
  h.edit (fun _ _ => rfl) fun _ hs => ⟨hs, rfl, if_neg hx⟩

/-- An edit that neither moves a node nor touches its matrices. -/
theorem Fresh.edit [Mat4.Arithmetic] (h : Fresh v) (hf : ∀ x n, f x n =
    { n with name := (f x n).name, children := (f x n).children, mesh := (f x n).mesh }) :
    Fresh (v.edit f) where
  marked x := by
    refine (h.marked x).edit (fun x n => ?_) (fun n hn => ?_) fun p n hn => ?_
    · rw [hf]
    · rwa [hf] at hn
    · rwa [hf]
  local_eq x := by
    refine (h.local_eq x).edit fun n hn => ?_
    rw [hf] at hn ⊢
    exact ⟨hn, rfl, rfl⟩
  world_eq x := by
    refine (h.world_eq x).edit (fun x n => ?_) fun n hn => ?_
    · rw [hf]
    · rw [hf] at hn ⊢
      exact ⟨hn, rfl, rfl⟩

theorem Fresh.flag [Mat4.Arithmetic] (h : Fresh v) (hr : Rooted v) (id : ComponentId)
    (g : Staleness) : Fresh (v.flag id g) where
  marked x := MarkedAbove.flag hr (fun _ => h.marked x) g
  local_eq x := LocalFresh.flag (Or.inl (h.local_eq x))
  world_eq x := WorldFresh.flag (Or.inl (h.world_eq x))

/-- A node is moved, and everything that its own values enter is flagged. -/
theorem Fresh.place [Mat4.Arithmetic] {f : Node → Node} (h : Fresh v) (hr : Rooted v)
    (id : ComponentId) (hf : ∀ n, f n =
      { n with position := (f n).position, rotation := (f n).rotation, scale := (f n).scale }) :
    Fresh ((v.modify id f).flag id .local) := by
  have hstale : ∀ n, (f n).stale = n.stale := fun n => by rw [hf]
  have hlocal : ∀ n, (f n).localMatrix = n.localMatrix := fun n => by rw [hf]
  have hparent : ∀ x n, (if x = id then f n else n).parent = n.parent :=
    keeps_if fun n => by rw [hf]
  have hworld : ∀ x n, (if x = id then f n else n).worldMatrix = n.worldMatrix :=
    keeps_if fun n => by rw [hf]
  refine ⟨fun x => MarkedAbove.flag (hr.edit hparent) (fun hx => ?_) _, fun x => LocalFresh.flag ?_,
    fun x => WorldFresh.flag ?_⟩
  · refine (h.marked x).edit hparent ?_ ?_
    · intro n hs
      rwa [if_neg hx] at hs
    · intro p n hs
      split
      · rwa [hstale]
      · exact hs
  · by_cases hx : x = id
    · exact Or.inr ⟨hx, rfl⟩
    · refine Or.inl ((h.local_eq x).edit fun n hs => ?_)
      rw [if_neg hx] at hs ⊢
      exact ⟨hs, rfl, rfl⟩
  · by_cases hx : x = id
    · exact Or.inr ⟨hx, by decide⟩
    · refine Or.inl ((h.world_eq x).edit hworld fun n hs => ?_)
      rw [if_neg hx] at hs ⊢
      exact ⟨hs, rfl, rfl⟩

theorem Fresh.detach [Mat4.Arithmetic] (h : Fresh v) (hr : Rooted v) (c : ComponentId) :
    Fresh ((v.unlink c).flag c .world) where
  marked x := MarkedAbove.flag (hr.unlink c) (fun _ => (h.marked x).unlink c) _
  local_eq x := LocalFresh.flag (Or.inl ((h.local_eq x).unlink c))
  world_eq x := by
    apply WorldFresh.flag
    by_cases hx : x = c
    · exact Or.inr ⟨hx, by decide⟩
    · exact Or.inl ((h.world_eq x).unlink hx)

theorem Fresh.attach [Mat4.Arithmetic] (h : Fresh v) (hr : Rooted ((v.unlink c).link p c))
    (hc : v c = some n) : Fresh (((v.unlink c).link p c).flag c .world) where
  marked x := MarkedAbove.flag hr
    (fun hx => ((h.marked x).unlink c).link (edit_of_some hc) p hx) _
  local_eq x := LocalFresh.flag (Or.inl (((h.local_eq x).unlink c).link p c))
  world_eq x := by
    apply WorldFresh.flag
    by_cases hx : x = c
    · exact Or.inr ⟨hx, by decide⟩
    · exact Or.inl (((h.world_eq x).unlink hx).link hx)

theorem worldAt_erase (hp : p ≠ id) : (v.erase id).worldAt p = v.worldAt p := by
  simp [worldAt, erase, hp]

/-- Without a root that has no children left, what was fresh is. -/
theorem Fresh.erase [Mat4.Arithmetic] (hm : ∀ x, v.MarkedAbove x)
    (hl : ∀ x, x ≠ id → v.LocalFresh x) (hw : ∀ x, x ≠ id → v.WorldFresh x) (hid : id ≠ .null)
    (hc : ∀ x, v.up x ≠ some id) :
    Fresh (v.erase id) where
  marked := by
    intro x n p m hn hup hp
    obtain ⟨hx, hn⟩ := erase_eq_some.mp hn
    simp only [up_erase, if_neg hx] at hup
    exact hm x n p m hn hup (erase_eq_some.mp hp).2
  local_eq := by
    intro x n hn
    obtain ⟨hx, hn⟩ := erase_eq_some.mp hn
    exact hl x hx n hn
  world_eq := by
    intro x n hn
    obtain ⟨hx, hn⟩ := erase_eq_some.mp hn
    rw [worldAt_erase]
    · exact hw x hx n hn
    · intro hp
      exact hc x (up_eq_some.mpr ⟨n, hn, hp, hid⟩)

/-- A new node has all matrices the identity, which is what they are computed to be. -/
theorem Fresh.insert [Mat4.Arithmetic] (h : Fresh v) (hr : Rooted v) (hid : id ≠ .null)
    (hv : v id = none) (hn : n.parent = .null) (hl : n.localMatrix = n.computeLocal)
    (hw : n.worldMatrix = .identity * n.localMatrix) : Fresh (v.insert id n) where
  marked := by
    intro x m p q hm hup hq hms
    rw [up_insert hv hn] at hup
    have hx : x ≠ id := by
      intro he
      rw [he, up_of_none hv] at hup
      cases hup
    have hp : p ≠ id := by
      intro he
      obtain ⟨q, hq⟩ := hr.parent hup
      simp [he, hv] at hq
    exact h.marked x m p q (by simpa [View.insert, hx] using hm) hup
      (by simpa [View.insert, hp] using hq) hms
  local_eq := by
    intro x m hm hms
    by_cases hx : x = id
    · obtain rfl : n = m := by simpa [View.insert, hx] using hm
      exact hl
    · exact h.local_eq x m (by simpa [View.insert, hx] using hm) hms
  world_eq := by
    intro x m hm hms
    have hnull : (v.insert id n).worldAt .null = .identity := by
      simp [worldAt, View.insert, hid.symm, hr.null]
    by_cases hx : x = id
    · obtain rfl : n = m := by simpa [View.insert, hx] using hm
      rw [hn, hnull]
      exact hw
    · have hm : v x = some m := by simpa [View.insert, hx] using hm
      have hp : m.parent ≠ id := by
        intro hp
        obtain ⟨q, hq⟩ := hr.parent (up_eq_some.mpr ⟨m, hm, hp, hid⟩)
        simp [hv] at hq
      simpa [worldAt, View.insert, hp] using h.world_eq x m hm hms

end View

end SceneGraph
