import SceneGraph.Proofs.Bindings

/-!
# Rebuilt regions

What a rebuild does is told by two sets of nodes: a region, such as all nodes under one, and the
dirty ones, which have a stale node between themselves and its root. Dirty nodes of the region are
recomputed under the new world matrix of their parent, the others only lose their mark.
-/

namespace SceneGraph

namespace View

variable {v v' v'' : View Node} {R R' D D' : ComponentId → Prop} {c p x id root : ComponentId}
  {n m : Node}

/-- In the region `R` the dirty nodes are recomputed and the others lose their mark. -/
structure Rebuilt [Mat4.Arithmetic] (v v' : View Node) (R D : ComponentId → Prop) : Prop where
  sub : ∀ {x}, D x → R x
  dirty : ∀ {x n}, D x → v x = some n → v' x = some (n.refresh (v'.worldAt n.parent))
  clean : ∀ {x n}, R x → ¬ D x → v x = some n → v' x = some { n with stale := .none }
  rest : ∀ {x}, ¬ R x → v' x = v x
  free : ∀ {x}, v x = none → v' x = none

/-- Some node between `x` and `root` has a stale matrix. -/
def Dirty (v : View Node) (root x : ComponentId) : Prop :=
  ∃ y n, Under v.up x y ∧ Under v.up y root ∧ v y = some n ∧ 2 ≤ n.stale.rank

namespace Rebuilt

variable [Mat4.Arithmetic]

/-- Everything but the matrices and the staleness is kept. -/
theorem keeps (h : Rebuilt v v' R D) (hn : v x = some n) :
    ∃ n', v' x = some n' ∧ n' = { n with
      localMatrix := n'.localMatrix, worldMatrix := n'.worldMatrix, stale := n'.stale } := by
  by_cases hR : R x
  · by_cases hD : D x
    · exact ⟨_, h.dirty hD hn, rfl⟩
    · exact ⟨_, h.clean hR hD hn, rfl⟩
  · refine ⟨n, ?_, rfl⟩
    rw [h.rest hR, hn]

theorem origin (h : Rebuilt v v' R D) {n' : Node} (hn' : v' x = some n') :
    ∃ n, v x = some n ∧ n' = { n with
      localMatrix := n'.localMatrix, worldMatrix := n'.worldMatrix, stale := n'.stale } := by
  cases hn : v x with
  | none =>
    rw [h.free hn] at hn'
    cases hn'
  | some n =>
    obtain ⟨l, hl, he⟩ := h.keeps hn
    obtain rfl : n' = l := Option.some.inj (hn'.symm.trans hl)
    exact ⟨n, rfl, he⟩

theorem up_eq (h : Rebuilt v v' R D) : v'.up = v.up := by
  funext x
  cases hn : v x with
  | none => rw [up_of_none hn, up_of_none (h.free hn)]
  | some n =>
    obtain ⟨n', hn', he⟩ := h.keeps hn
    rw [up_of_some hn, up_of_some hn', he]

theorem rooted (h : Rebuilt v v' R D) (hr : Rooted v) : Rooted v' where
  null := h.free hr.null
  ranked := by
    rw [h.up_eq]
    exact hr.ranked
  parent := by
    intro c p hc
    rw [h.up_eq] at hc
    obtain ⟨n, hn⟩ := hr.parent hc
    obtain ⟨n', hn', -⟩ := h.keeps hn
    exact ⟨n', hn'⟩

theorem forest (h : Rebuilt v v' R D) (hf : Forest v) : Forest v' where
  toRooted := h.rooted hf.toRooted
  linked := by
    intro p n' hn'
    obtain ⟨n, hn, he⟩ := h.origin hn'
    rw [he, h.up_eq]
    exact hf.linked p n hn

theorem draws_eq (h : Rebuilt v v' R D) (x : ComponentId) : v'.draws x = v.draws x := by
  cases hn : v x with
  | none => rw [draws_of_none hn, draws_of_none (h.free hn)]
  | some n =>
    obtain ⟨n', hn', he⟩ := h.keeps hn
    rw [draws_of_some hn, draws_of_some hn', he]

theorem worldAt_rest (h : Rebuilt v v' R D) (hx : ¬ R x) : v'.worldAt x = v.worldAt x := by
  rw [worldAt, worldAt, h.rest hx]

/-- One rebuild after another, of a region that is closed downwards and apart from the first. -/
theorem trans (h : Rebuilt v v' R D) (h' : Rebuilt v' v'' R' D')
    (hdisj : ∀ x, R x → ¬ R' x) (hdown : ∀ x n, v x = some n → R' n.parent → R' x) :
    Rebuilt v v'' (fun x => R x ∨ R' x) (fun x => D x ∨ D' x) where
  sub := by
    intro x hD
    rcases hD with hD | hD
    · exact Or.inl (h.sub hD)
    · exact Or.inr (h'.sub hD)
  dirty := by
    intro x n hD hn
    rcases hD with hD | hD
    · have hx : ¬ R' x := hdisj x (h.sub hD)
      have hp : ¬ R' n.parent := fun hp => hx (hdown x n hn hp)
      rw [h'.rest hx, h'.worldAt_rest hp]
      exact h.dirty hD hn
    · have hx : ¬ R x := fun hx => hdisj x hx (h'.sub hD)
      exact h'.dirty hD (by rw [h.rest hx, hn])
  clean := by
    intro x n hR hD hn
    rw [not_or] at hD
    by_cases hx : R x
    · rw [h'.rest (hdisj x hx)]
      exact h.clean hx hD.1 hn
    · exact h'.clean (hR.resolve_left hx) hD.2 (by rw [h.rest hx, hn])
  rest := by
    intro x hR
    rw [not_or] at hR
    rw [h'.rest hR.2, h.rest hR.1]
  free := fun hn => h'.free (h.free hn)

theorem congr (h : Rebuilt v v' R D) (hR : ∀ x, R x ↔ R' x) (hD : ∀ x, D x ↔ D' x) :
    Rebuilt v v' R' D' := by
  obtain rfl : R = R' := funext fun x => propext (hR x)
  obtain rfl : D = D' := funext fun x => propext (hD x)
  exact h

end Rebuilt

theorem under_of_parent (hr : Rooted v) (hc : v c = some m) (hn : v x = some n)
    (h : Under v.up n.parent c) : Under v.up x c := by
  by_cases hp : n.parent = .null
  · exact absurd (hp ▸ h) (hr.not_under_null hc)
  · exact Under.of_parent (up_eq_some.mpr ⟨n, hn, rfl, hp⟩) h

/-- The node at the top of a region, and its children with all that is under them. -/
theorem Rebuilt.around [Mat4.Arithmetic] {f : Node → Node} {A : Prop} (hr : Rooted v)
    (hl : v.LinkedAt id) (hn : v id = some n)
    (h : Rebuilt (v.modify id f) v' (fun x => ∃ c ∈ n.children, Under v.up x c) D)
    (hf : A ∧ f n = n.refresh (v.worldAt n.parent) ∨ ¬ A ∧ f n = { n with stale := .none }) :
    Rebuilt v v' (fun x => Under v.up x id) (fun x => x = id ∧ A ∨ D x) := by
  have hchild : ∀ c, c ∈ n.children ↔ v.up c = some id := (hl n hn).2
  have hunder : ∀ {x}, (∃ c ∈ n.children, Under v.up x c) → Above v.up id x := by
    intro x hx
    obtain ⟨c, hc, hx⟩ := hx
    exact Above.iff_last.mpr ⟨c, hx, (hchild c).mp hc⟩
  have hne : ∀ {x}, (∃ c ∈ n.children, Under v.up x c) → x ≠ id :=
    fun hx => hr.ne_of_above (hunder hx)
  have hid : v' id = some (f n) := by
    rw [h.rest fun hx => hne hx rfl]
    exact modify_of_some hn
  have hparent : v'.worldAt n.parent = v.worldAt n.parent := by
    have hp : ¬ Under v.up n.parent id := hr.not_under_parent hn
    rw [h.worldAt_rest fun hx => hp (hunder hx).under, worldAt, worldAt, modify_of_ne]
    intro he
    rw [he] at hp
    exact hp (Under.refl id)
  refine ⟨fun hD => ?_, fun hD hm => ?_, fun hR hD hm => ?_, fun hR => ?_, fun hm => ?_⟩
  · rcases hD with ⟨rfl, -⟩ | hD
    · exact Under.refl _
    · exact (hunder (h.sub hD)).under
  · rcases hD with ⟨rfl, hA⟩ | hD
    · obtain rfl := Option.some.inj (hn.symm.trans hm)
      rcases hf with ⟨-, hf⟩ | ⟨hA', -⟩
      · rw [hid, hf, hparent]
      · exact absurd hA hA'
    · exact h.dirty hD ((modify_of_ne (hne (h.sub hD))).trans hm)
  · rw [not_or] at hD
    rcases Under.below_iff.mp hR with rfl | ⟨c, hc, hx⟩
    · obtain rfl := Option.some.inj (hn.symm.trans hm)
      rcases hf with ⟨hA, -⟩ | ⟨-, hf⟩
      · exact absurd ⟨rfl, hA⟩ hD.1
      · rw [hid, hf]
    · have hx : ∃ c ∈ n.children, Under v.up _ c := ⟨c, (hchild c).mpr hc, hx⟩
      exact h.clean hx hD.2 ((modify_of_ne (hne hx)).trans hm)
  · rw [h.rest fun hx => hR (hunder hx).under, modify_of_ne]
    intro he
    rw [he] at hR
    exact hR (Under.refl id)
  · exact h.free (edit_eq_none.mpr hm)

/-- Below a node that is not stale none is. -/
theorem fresh_below (hm : ∀ x, Above v.up id x → v.MarkedAbove x) (hn : v id = some n)
    (hs : n.stale = .none) (hx : Under v.up x id) (hmx : v x = some m) : m.stale = .none := by
  obtain ⟨k, hx⟩ := hx
  induction k generalizing x m with
  | zero =>
    obtain rfl := Climb.zero_iff.mp hx
    obtain rfl : m = n := Option.some.inj (hmx.symm.trans hn)
    exact hs
  | succ k ih =>
    have ha : Above v.up id x := ⟨k, hx⟩
    obtain ⟨q, hq, hx⟩ := Climb.succ_iff.mp hx
    by_contra hne
    cases hl : v q with
    | none =>
      cases k with
      | zero =>
        obtain rfl := Climb.zero_iff.mp hx
        rw [hn] at hl
        cases hl
      | succ k =>
        obtain ⟨q', hq', -⟩ := Climb.succ_iff.mp hx
        rw [up_of_none hl] at hq'
        cases hq'
    | some l => exact hm x ha m q l hmx hq hl hne (ih hl hx)

end View

end SceneGraph
