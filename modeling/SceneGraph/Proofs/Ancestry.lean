import Mathlib.Data.List.Nodup
import Mathlib.Data.List.Perm.Subperm

/-!
# Chains of parents

A forest is given by the function that takes each node to its parent, if it has one.
`Climb up k c a` says that `k` parent links lead from `c` to `a`. A rank that falls along every link
rules out cycles, and then a chain has fewer links than there are nodes, so that a walk up or down
may be bounded by their number.
-/

namespace SceneGraph

variable {α : Type} {up : α → Option α} {k m : ℕ} {a b c p : α}

/-- `k` links lead from `c` up to `a`. -/
inductive Climb (up : α → Option α) : ℕ → α → α → Prop
  | refl (c : α) : Climb up 0 c c
  | step {k : ℕ} {c p a : α} (hp : up c = some p) (h : Climb up k p a) : Climb up (k + 1) c a

/-- `a` is reached from `c` by one link or more. -/
def Above (up : α → Option α) (a c : α) : Prop := ∃ k, Climb up (k + 1) c a

/-- `x` is `r` or has it above. -/
def Under (up : α → Option α) (x r : α) : Prop := ∃ k, Climb up k x r

/-- Some rank falls along every link. -/
def Ranked (up : α → Option α) : Prop := ∃ rank : α → ℕ, ∀ c p, up c = some p → rank p < rank c

namespace Climb

theorem trans (h : Climb up k c a) (h' : Climb up m a b) : Climb up (k + m) c b := by
  induction h with
  | refl c => simpa using h'
  | step hp _ ih => simpa [Nat.add_right_comm] using Climb.step hp (ih h')

theorem snoc (h : Climb up k c a) (ha : up a = some b) : Climb up (k + 1) c b :=
  h.trans (.step ha (.refl b))

theorem zero_iff : Climb up 0 c a ↔ c = a := by
  constructor
  · intro h
    cases h
    rfl
  · rintro rfl
    exact .refl c

theorem succ_iff : Climb up (k + 1) c a ↔ ∃ p, up c = some p ∧ Climb up k p a := by
  constructor
  · intro h
    cases h with
    | step hp h => exact ⟨_, hp, h⟩
  · rintro ⟨p, hp, h⟩
    exact .step hp h

/-- The last link of a chain. -/
theorem succ_iff_last : Climb up (k + 1) c a ↔ ∃ p, Climb up k c p ∧ up p = some a := by
  induction k generalizing c with
  | zero => simp [succ_iff, zero_iff]
  | succ k ih =>
    rw [succ_iff]
    constructor
    · rintro ⟨p, hp, h⟩
      obtain ⟨q, hq, ha⟩ := ih.mp h
      exact ⟨q, .step hp hq, ha⟩
    · rintro ⟨q, hq, ha⟩
      obtain ⟨p, hp, h⟩ := succ_iff.mp hq
      exact ⟨p, hp, ih.mpr ⟨q, h, ha⟩⟩

/-- Two chains from one node lie on each other. -/
theorem of_le (h : Climb up k c a) (h' : Climb up m c b) (hk : k ≤ m) : Climb up (m - k) a b := by
  induction h generalizing m with
  | refl c => simpa using h'
  | @step k c p a hp _ ih =>
    obtain ⟨m, rfl⟩ : ∃ n, m = n + 1 := ⟨m - 1, by omega⟩
    obtain ⟨q, hq, h'⟩ := succ_iff.mp h'
    obtain rfl : p = q := Option.some.inj (hp.symm.trans hq)
    simpa using ih h' (by omega)

theorem rank_add_le {rank : α → ℕ} (hr : ∀ c p, up c = some p → rank p < rank c)
    (h : Climb up k c a) : rank a + k ≤ rank c := by
  induction h with
  | refl c => simp
  | step hp _ ih =>
    have := hr _ _ hp
    omega

/-- A chain in a ranked forest visits as many nodes as it has links, and one more. -/
theorem exists_nodup {rank : α → ℕ} (hr : ∀ c p, up c = some p → rank p < rank c)
    {l : List α} (hl : ∀ c p, up c = some p → p ∈ l) (h : Climb up k c a) (hc : c ∈ l) :
    ∃ v : List α, v.length = k + 1 ∧ v.Nodup ∧ v ⊆ l ∧ ∀ x ∈ v, rank x ≤ rank c := by
  induction h with
  | refl c => exact ⟨[c], by simp, by simp, by simpa using hc, by simp⟩
  | @step k c p a hp _ ih =>
    obtain ⟨v, hlen, hnd, hsub, hle⟩ := ih (hl c p hp)
    have hlt := hr c p hp
    refine ⟨c :: v, by simp [hlen], List.nodup_cons.mpr ⟨?_, hnd⟩, ?_, ?_⟩
    · intro hm
      have := hle c hm
      omega
    · exact List.cons_subset.mpr ⟨hc, hsub⟩
    · intro x hx
      rcases List.mem_cons.mp hx with rfl | hx
      · exact Nat.le_refl _
      · exact Nat.le_trans (hle x hx) (Nat.le_of_lt hlt)

theorem congr {up' : α → Option α} (h : Climb up k c a)
    (he : ∀ x p, Under up c x → up x = some p → up' x = some p) : Climb up' k c a := by
  induction h with
  | refl c => exact .refl c
  | step hp _ ih =>
    refine .step (he _ _ ⟨0, .refl _⟩ hp) (ih fun x q hx => he x q ?_)
    obtain ⟨m, hx⟩ := hx
    exact ⟨m + 1, .step hp hx⟩

theorem lt_length (hr : Ranked up) {l : List α} (hl : ∀ c p, up c = some p → p ∈ l)
    (h : Climb up k c a) (hc : c ∈ l) : k < l.length := by
  obtain ⟨rank, hr⟩ := hr
  obtain ⟨v, hlen, hnd, hsub, -⟩ := h.exists_nodup hr hl hc
  have := (hnd.subperm hsub).length_le
  omega

end Climb

namespace Above

theorem of_parent (h : up c = some p) : Above up p c := ⟨0, .step h (.refl p)⟩

theorem under (h : Above up a c) : Under up c a := by
  obtain ⟨k, h⟩ := h
  exact ⟨k + 1, h⟩

theorem iff_parent : Above up a c ↔ ∃ p, up c = some p ∧ Under up p a := by
  constructor
  · rintro ⟨k, h⟩
    obtain ⟨p, hp, h⟩ := Climb.succ_iff.mp h
    exact ⟨p, hp, k, h⟩
  · rintro ⟨p, hp, k, h⟩
    exact ⟨k, .step hp h⟩

theorem iff_last : Above up a c ↔ ∃ p, Under up c p ∧ up p = some a := by
  constructor
  · rintro ⟨k, h⟩
    obtain ⟨p, hp, ha⟩ := Climb.succ_iff_last.mp h
    exact ⟨p, ⟨k, hp⟩, ha⟩
  · rintro ⟨p, ⟨k, hp⟩, ha⟩
    exact ⟨k, hp.snoc ha⟩

theorem trans_under (h : Above up a c) (h' : Under up a b) : Above up b c := by
  obtain ⟨p, hp, k, h⟩ := iff_parent.mp h
  obtain ⟨m, h'⟩ := h'
  exact iff_parent.mpr ⟨p, hp, k + m, h.trans h'⟩

theorem not_self (hr : Ranked up) : ¬ Above up c c := by
  rintro ⟨k, h⟩
  obtain ⟨rank, hr⟩ := hr
  have := h.rank_add_le hr
  omega

end Above

namespace Under

theorem refl (c : α) : Under up c c := ⟨0, .refl c⟩

theorem trans (h : Under up c a) (h' : Under up a b) : Under up c b := by
  obtain ⟨k, h⟩ := h
  obtain ⟨m, h'⟩ := h'
  exact ⟨k + m, h.trans h'⟩

theorem eq_or_above : Under up c a ↔ c = a ∨ Above up a c := by
  constructor
  · rintro ⟨k, h⟩
    cases k with
    | zero => exact Or.inl (Climb.zero_iff.mp h)
    | succ k => exact Or.inr ⟨k, h⟩
  · rintro (rfl | h)
    · exact refl c
    · exact h.under

theorem congr {up' : α → Option α} (h : Under up c a)
    (he : ∀ x p, Under up c x → up x = some p → up' x = some p) : Under up' c a := by
  obtain ⟨k, h⟩ := h
  exact ⟨k, h.congr he⟩

/-- Links that differ from others at `b` only lead to the same from a node that is not under
`b`. -/
theorem iff_of_eq_off {up' : α → Option α} (hc : ¬ Under up c b) (h : ∀ x, x ≠ b → up' x = up x) :
    Under up' c a ↔ Under up c a := by
  constructor
  · rintro ⟨k, hk⟩
    induction k generalizing a with
    | zero => exact ⟨0, Climb.zero_iff.mpr (Climb.zero_iff.mp hk)⟩
    | succ k ih =>
      obtain ⟨x, hx, hup⟩ := Climb.succ_iff_last.mp hk
      have hu : Under up c x := ih hx
      have hxb : x ≠ b := fun he => hc (he ▸ hu)
      rw [h x hxb] at hup
      exact hu.trans (Above.of_parent hup).under
  · intro hu
    refine hu.congr fun x q hx hq => ?_
    have hxb : x ≠ b := fun he => hc (he ▸ hx)
    rwa [h x hxb]

theorem of_parent (h : up c = some p) (h' : Under up p a) : Under up c a :=
  (Above.iff_parent.mpr ⟨p, h, h'⟩).under

/-- Of two nodes above one node, one is above the other. -/
theorem total (h : Under up c a) (h' : Under up c b) : Under up a b ∨ Under up b a := by
  obtain ⟨k, h⟩ := h
  obtain ⟨m, h'⟩ := h'
  rcases Nat.le_total k m with hk | hk
  · exact Or.inl ⟨_, h.of_le h' hk⟩
  · exact Or.inr ⟨_, h'.of_le h hk⟩

/-- What lies under a node lies under the node's parent. -/
theorem below_iff : Under up c a ↔ c = a ∨ ∃ b, up b = some a ∧ Under up c b := by
  rw [eq_or_above, Above.iff_last]
  constructor
  · rintro (rfl | ⟨p, hp, ha⟩)
    · exact Or.inl rfl
    · exact Or.inr ⟨p, ha, hp⟩
  · rintro (rfl | ⟨b, hb, h⟩)
    · exact Or.inl rfl
    · exact Or.inr ⟨b, h, hb⟩

/-- Different children of one node have nothing below them in common. -/
theorem disjoint (hr : Ranked up) (ha : up a = some p) (hb : up b = some p) (hne : a ≠ b)
    (h : Under up c a) : ¬ Under up c b := by
  intro h'
  have key : ∀ {x y : α}, up x = some p → up y = some p → x ≠ y → ¬ Under up x y := by
    intro x y hx hy hne hxy
    rcases eq_or_above.mp hxy with rfl | hxy
    · exact hne rfl
    · obtain ⟨q, hq, hqy⟩ := Above.iff_parent.mp hxy
      obtain rfl : p = q := Option.some.inj (hx.symm.trans hq)
      exact Above.not_self hr (Above.iff_parent.mpr ⟨p, hy, hqy⟩)
  rcases total h h' with h | h
  · exact key ha hb hne h
  · exact key hb ha hne.symm h

end Under

/-- Moving `c` under `p`, which is not under `c`, keeps a forest ranked. -/
theorem Ranked.attach {up' : α → Option α} (hr : Ranked up) (hp : ¬ Under up p c)
    (hc : ∀ q, up' c = some q → q = p) (hne : ∀ x, x ≠ c → up' x = up x) : Ranked up' := by
  classical
  obtain ⟨rank, hr⟩ := hr
  refine ⟨fun x => if Under up x c then rank x + rank p + 1 else rank x, ?_⟩
  intro x q hx
  by_cases hxc : x = c
  · subst hxc
    obtain rfl := hc q hx
    simp only [if_neg hp, if_pos (Under.refl x)]
    omega
  · rw [hne x hxc] at hx
    have hlt := hr x q hx
    have hiff : Under up x c ↔ Under up q c := by
      rw [Under.eq_or_above, Above.iff_parent]
      constructor
      · rintro (h | ⟨r, hr, h⟩)
        · exact absurd h hxc
        · exact Option.some.inj (hx.symm.trans hr) ▸ h
      · exact fun h => Or.inr ⟨q, hx, h⟩
    by_cases hq : Under up q c
    · simp only [if_pos hq, if_pos (hiff.mpr hq)]
      omega
    · simp only [if_neg hq, if_neg (mt hiff.mp hq)]
      exact hlt

/-- Taking links away keeps a forest ranked. -/
theorem Ranked.mono {up' : α → Option α} (hr : Ranked up)
    (h : ∀ c p, up' c = some p → up c = some p) : Ranked up' := by
  obtain ⟨rank, hr⟩ := hr
  exact ⟨rank, fun c p hc => hr c p (h c p hc)⟩

end SceneGraph
