import SceneGraph.Proofs.Ancestry
import SceneGraph.Proofs.Lookup

/-!
# Forests of nodes

The parent links of a view of nodes form a forest if some rank falls along them and no link leads
to nothing. A list of children is linked if it holds just the nodes that name its owner as their
parent, each once. The edits of links are given here as edits of the view.
-/

namespace SceneGraph.View

variable {v : View Node} {c p q x id : ComponentId} {n : Node}

/-- The parent of a node that has one. -/
def up (v : View Node) (c : ComponentId) : Option ComponentId :=
  (v c).bind fun n => n.parent.nonNull

theorem up_eq_some : v.up c = some p ↔ ∃ n, v c = some n ∧ n.parent = p ∧ p ≠ .null := by
  simp only [up, Option.bind_eq_some_iff, ComponentId.nonNull_eq_some_iff]
  constructor
  · rintro ⟨n, hn, hp, rfl⟩
    exact ⟨n, hn, rfl, hp⟩
  · rintro ⟨n, hn, rfl, hp⟩
    exact ⟨n, hn, hp, rfl⟩

theorem up_of_some (h : v c = some n) : v.up c = n.parent.nonNull := by
  simp [up, h]

theorem up_of_none (h : v c = none) : v.up c = none := by
  simp [up, h]

theorem up_edit {f : ComponentId → Node → Node} (hf : ∀ x n, (f x n).parent = n.parent) :
    (v.edit f).up = v.up := by
  funext x
  cases hx : v x with
  | none => simp [up, edit, hx]
  | some n => simp [up, edit, hx, hf]

/-- Parent links lead to nodes and never back. -/
structure Rooted (v : View Node) : Prop where
  null : v .null = none
  ranked : Ranked v.up
  parent : ∀ {c p}, v.up c = some p → ∃ n, v p = some n

/-- The children of `p` are the nodes that name it as their parent, each listed once. -/
def LinkedAt (v : View Node) (p : ComponentId) : Prop :=
  ∀ n, v p = some n → n.children.Nodup ∧ ∀ c, c ∈ n.children ↔ v.up c = some p

structure Forest (v : View Node) : Prop extends Rooted v where
  linked : ∀ p, v.LinkedAt p

theorem up_modify {f : Node → Node} (hf : ∀ n, (f n).parent = n.parent) :
    (v.modify id f).up = v.up :=
  up_edit (keeps_if hf)

theorem Rooted.ne_of_above (h : Rooted v) (hx : Above v.up p x) : x ≠ p := by
  rintro rfl
  exact Above.not_self h.ranked hx

theorem Rooted.ne_parent (h : Rooted v) (hp : v.up c = some p) : c ≠ p := by
  rintro rfl
  exact Above.not_self h.ranked (Above.of_parent hp)

theorem Rooted.ne_null (h : Rooted v) (hp : v p = some n) : p ≠ .null := by
  intro he
  subst he
  simp [h.null] at hp

theorem Rooted.not_under_null (h : Rooted v) (hx : v x = some n) : ¬ Under v.up .null x := by
  rw [Under.eq_or_above, Above.iff_parent, up_of_none h.null]
  simp [Ne.symm (h.ne_null hx)]

theorem Rooted.edit {f : ComponentId → Node → Node} (h : Rooted v)
    (hf : ∀ x n, (f x n).parent = n.parent) : Rooted (v.edit f) where
  null := edit_eq_none.mpr h.null
  ranked := by
    rw [up_edit hf]
    exact h.ranked
  parent := by
    intro c p hc
    rw [up_edit hf] at hc
    obtain ⟨n, hn⟩ := h.parent hc
    exact ⟨_, edit_of_some hn⟩

/-- The parent of a node is not below the node. -/
theorem Rooted.not_under_parent (h : Rooted v) (hx : v x = some n) : ¬ Under v.up n.parent x := by
  intro hu
  by_cases hp : n.parent = .null
  · exact h.not_under_null hx (hp ▸ hu)
  · exact Above.not_self h.ranked
      (Above.iff_parent.mpr ⟨_, up_eq_some.mpr ⟨n, hx, rfl, hp⟩, hu⟩)

theorem Rooted.modify {f : Node → Node} (h : Rooted v) (hf : ∀ n, (f n).parent = n.parent) :
    Rooted (v.modify id f) :=
  h.edit (keeps_if hf)

theorem LinkedAt.edit {f : ComponentId → Node → Node} (h : v.LinkedAt p)
    (hf : ∀ x n, (f x n).parent = n.parent) (hc : ∀ n, (f p n).children = n.children) :
    (v.edit f).LinkedAt p := by
  intro n' hn'
  obtain ⟨n, hn, rfl⟩ := edit_eq_some.mp hn'
  rw [hc, up_edit hf]
  exact h n hn

theorem Forest.edit {f : ComponentId → Node → Node} (h : Forest v)
    (hf : ∀ x n, (f x n).parent = n.parent) (hc : ∀ x n, (f x n).children = n.children) :
    Forest (v.edit f) where
  toRooted := h.toRooted.edit hf
  linked p := (h.linked p).edit hf (hc p)

theorem Forest.modify {f : Node → Node} (h : Forest v) (hf : ∀ n, (f n).parent = n.parent)
    (hc : ∀ n, (f n).children = n.children) : Forest (v.modify id f) :=
  h.edit (keeps_if hf) (keeps_if hc)

open Classical in
/-- Raises the staleness of `id` to `f` and marks every node above. -/
noncomputable def flag (v : View Node) (id : ComponentId) (f : Staleness) : View Node :=
  v.edit fun x n => { n with
    stale :=
      if x = id then max n.stale f
      else if Above v.up x id then max n.stale .descendents
      else n.stale }

/-- Makes `c` a root. -/
def unlink (v : View Node) (c : ComponentId) : View Node :=
  v.edit fun x n => { n with
    parent := if x = c then .null else n.parent
    children := if v.up c = some x then swapErase n.children c else n.children }

/-- Appends `c`, which has no parent, to the children of `p`. -/
def link (v : View Node) (p c : ComponentId) : View Node :=
  v.edit fun x n => { n with
    parent := if x = c then p else n.parent
    children := if x = p then n.children ++ [c] else n.children }

theorem up_flag (f : Staleness) : (v.flag id f).up = v.up := up_edit fun _ _ => rfl

theorem Rooted.flag (h : Rooted v) (id : ComponentId) (f : Staleness) : Rooted (v.flag id f) :=
  h.edit fun _ _ => rfl

theorem LinkedAt.flag (h : v.LinkedAt p) (id : ComponentId) (f : Staleness) :
    (v.flag id f).LinkedAt p :=
  h.edit (fun _ _ => rfl) fun _ => rfl

theorem up_unlink (c : ComponentId) :
    (v.unlink c).up = fun x => if x = c then none else v.up x := by
  funext x
  unfold unlink
  cases hx : v x with
  | none =>
    rw [up_of_none (edit_eq_none.mpr hx), up_of_none hx]
    simp
  | some n =>
    rw [up_of_some (edit_of_some hx), up_of_some hx]
    by_cases hxc : x = c <;> simp [hxc]

theorem up_link (hc : v c = some n) (p : ComponentId) :
    (v.link p c).up = fun x => if x = c then p.nonNull else v.up x := by
  funext x
  unfold link
  by_cases hxc : x = c
  · subst hxc
    rw [up_of_some (edit_of_some hc)]
    simp
  · cases hx : v x with
    | none =>
      rw [up_of_none (edit_eq_none.mpr hx), up_of_none hx]
      simp [hxc]
    | some m =>
      rw [up_of_some (edit_of_some hx), up_of_some hx]
      simp [hxc]

theorem Rooted.unlink (h : Rooted v) (c : ComponentId) : Rooted (v.unlink c) where
  null := edit_eq_none.mpr h.null
  ranked := by
    apply h.ranked.mono
    intro x p hx
    simp only [up_unlink] at hx
    split at hx
    · cases hx
    · exact hx
  parent := by
    intro x p hx
    simp only [up_unlink] at hx
    split at hx
    · cases hx
    · obtain ⟨m, hm⟩ := h.parent hx
      exact ⟨_, edit_of_some hm⟩

theorem Rooted.link (h : Rooted v) (hc : v c = some n) (hp : p ≠ .null → ∃ m, v p = some m)
    (hpc : ¬ Under v.up p c) : Rooted (v.link p c) := by
  refine ⟨edit_eq_none.mpr h.null, h.ranked.attach hpc ?_ ?_, ?_⟩
  · intro q hq
    simp only [up_link hc, if_true] at hq
    exact (ComponentId.nonNull_eq_some_iff.mp hq).2.symm
  · intro x hx
    simp [up_link hc, hx]
  · intro x q hx
    simp only [up_link hc] at hx
    split at hx
    · obtain ⟨hne, rfl⟩ := ComponentId.nonNull_eq_some_iff.mp hx
      obtain ⟨m, hm⟩ := hp hne
      exact ⟨_, edit_of_some hm⟩
    · obtain ⟨m, hm⟩ := h.parent hx
      exact ⟨_, edit_of_some hm⟩

theorem LinkedAt.unlink (h : v.LinkedAt q) (c : ComponentId) : (v.unlink c).LinkedAt q := by
  intro n' hn'
  obtain ⟨n, hn, rfl⟩ := edit_eq_some.mp hn'
  obtain ⟨hnd, hmem⟩ := h n hn
  rw [up_unlink]
  by_cases hq : v.up c = some q
  · simp only [if_pos hq]
    refine ⟨nodup_swapErase hnd, fun x => ?_⟩
    rw [mem_swapErase hnd, hmem]
    by_cases hx : x = c <;> simp [hx]
  · simp only [if_neg hq]
    refine ⟨hnd, fun x => ?_⟩
    rw [hmem]
    by_cases hx : x = c <;> simp [hx, hq]

theorem LinkedAt.link (h : v.LinkedAt q) (hr : Rooted v) (hc : v c = some n)
    (hq : v.up c ≠ some q) : (v.link p c).LinkedAt q := by
  intro m' hm'
  obtain ⟨m, hm, rfl⟩ := edit_eq_some.mp hm'
  obtain ⟨hnd, hmem⟩ := h m hm
  have hcq : c ∉ m.children := fun hc => hq ((hmem c).mp hc)
  rw [up_link hc]
  by_cases hqp : q = p
  · subst hqp
    simp only [if_true]
    refine ⟨?_, fun x => ?_⟩
    · rw [List.nodup_append]
      refine ⟨hnd, List.nodup_singleton c, ?_⟩
      intro a ha b hb he
      rw [List.mem_singleton.mp hb] at he
      exact hcq (he ▸ ha)
    · rw [List.mem_append, hmem, List.mem_singleton]
      by_cases hx : x = c
      · simp [hx, ComponentId.nonNull_eq_some_iff, hr.ne_null hm]
      · simp [hx]
  · simp only [if_neg hqp]
    refine ⟨hnd, fun x => ?_⟩
    by_cases hx : x = c
    · simp [hx, hcq, ComponentId.nonNull_eq_some_iff, Ne.symm hqp]
    · simp [hx, hmem]

theorem up_erase (id : ComponentId) :
    (v.erase id).up = fun x => if x = id then none else v.up x := by
  funext x
  by_cases hx : x = id
  · simp [up, erase, hx]
  · simp [up, erase, hx]

/-- Without a root that has no children left, the rest is a forest. -/
theorem Forest.erase (h : Rooted v) (hl : ∀ q, q ≠ id → v.LinkedAt q) (hr : v.up id = none)
    (hc : ∀ x, v.up x ≠ some id) : Forest (v.erase id) := by
  have hup : (v.erase id).up = v.up := by
    rw [up_erase]
    funext x
    split
    · next hx => rw [hx, hr]
    · rfl
  refine ⟨⟨?_, ?_, ?_⟩, ?_⟩
  · simp [View.erase, h.null]
  · rw [hup]
    exact h.ranked
  · intro x p hx
    rw [hup] at hx
    obtain ⟨m, hm⟩ := h.parent hx
    refine ⟨m, erase_eq_some.mpr ⟨?_, hm⟩⟩
    rintro rfl
    exact hc x hx
  · intro q m hm
    obtain ⟨hq, hm⟩ := erase_eq_some.mp hm
    rw [hup]
    exact hl q hq m hm

theorem up_insert (hv : v id = none) (hn : n.parent = .null) : (v.insert id n).up = v.up := by
  funext x
  by_cases hx : x = id
  · subst hx
    rw [up_of_none hv, up_of_some (if_pos rfl), hn]
    rfl
  · simp [up, insert, hx]

/-- A new root without children. -/
theorem Forest.insert (h : Forest v) (hid : id ≠ .null) (hv : v id = none) (hn : n.parent = .null)
    (hc : n.children = []) : Forest (v.insert id n) := by
  have hup : (v.insert id n).up = v.up := up_insert hv hn
  refine ⟨⟨?_, ?_, ?_⟩, ?_⟩
  · simp [View.insert, hid.symm, h.null]
  · rw [hup]
    exact h.ranked
  · intro x p hx
    rw [hup] at hx
    obtain ⟨m, hm⟩ := h.parent hx
    by_cases hp : p = id
    · exact ⟨n, if_pos hp⟩
    · exact ⟨m, by simp [View.insert, hp, hm]⟩
  · intro q m hm
    rw [hup]
    by_cases hq : q = id
    · subst hq
      obtain rfl : n = m := Option.some.inj ((if_pos rfl).symm.trans hm)
      rw [hc]
      refine ⟨List.nodup_nil, fun x => ?_⟩
      simp only [List.not_mem_nil, false_iff]
      intro hx
      obtain ⟨m, hm⟩ := h.parent hx
      simp [hv] at hm
    · exact h.linked q m (by simpa [View.insert, hq] using hm)

end SceneGraph.View
