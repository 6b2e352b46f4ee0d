import SceneGraph.Proofs.Walks

/-!
# Edits of links

Detaching and attaching are seen as edits of the view of nodes. When a node loses all its children
at once, these are handed over one by one, to another node or to none, and while this goes on they
still name the node as their parent; `Handover` is what holds in between.
-/

namespace SceneGraph.View

variable {v : View Node} {c d p q x : ComponentId} {cs : List ComponentId} {n : Node}

/-- The children `cs` still name `d`, which lists none, as their parent and are to go to `p`. -/
structure Handover (v : View Node) (d p : ComponentId) (cs : List ComponentId) : Prop where
  rooted : Rooted v
  marked : ∀ x, v.MarkedAbove x
  linked : ∀ q, q ≠ d → v.LinkedAt q
  bare : ∀ n, v d = some n → n.children = []
  nodup : cs.Nodup
  left : ∀ x, v.up x = some d ↔ x ∈ cs
  target : p ≠ .null → ∃ m, v p = some m
  apart : ¬ Under v.up p d

/-- Hands the nodes `cs` over to `p`. -/
noncomputable def hand (v : View Node) (p : ComponentId) (cs : List ComponentId) : View Node :=
  cs.foldl (fun v c => (v.link p c).flag c .world) v

theorem up_link_of_ne (p : ComponentId) (hx : x ≠ c) : (v.link p c).up x = v.up x := by
  cases hv : v x with
  | none => rw [up_of_none hv, link, up_of_none (edit_eq_none.mpr hv)]
  | some n =>
    rw [up_of_some hv, link, up_of_some (edit_of_some hv)]
    simp only [if_neg hx]

namespace Handover

theorem start {f : Node → Node} (h : Forest v) (hm : ∀ x, v.MarkedAbove x) (hn : v d = some n)
    (hf : ∀ n, (f n).parent = n.parent ∧ (f n).stale = n.stale ∧ (f n).children = []) :
    Handover (v.modify d f) d .null n.children := by
  have hp : ∀ x n, (if x = d then f n else n).parent = n.parent := keeps_if fun n => (hf n).1
  have hup : (v.modify d f).up = v.up := up_edit hp
  obtain ⟨hnd, hmem⟩ := h.linked d n hn
  refine ⟨h.toRooted.edit hp, fun x => ?_, fun q hq => ?_, ?_, hnd, fun x => ?_, ?_, ?_⟩
  · refine (hm x).edit hp ?_ ?_
    · intro n hs
      split at hs
      · rwa [(hf n).2.1] at hs
      · exact hs
    · intro x n hs
      split
      · rwa [(hf n).2.1]
      · exact hs
  · refine (h.linked q).edit hp fun n => ?_
    rw [if_neg hq]
  · intro m hm
    obtain ⟨n, -, rfl⟩ := edit_eq_some.mp hm
    rw [if_pos rfl]
    exact (hf n).2.2
  · rw [hup, hmem]
  · exact fun he => absurd rfl he
  · rw [hup]
    exact h.toRooted.not_under_null hn

/-- The node itself leaves its parent, to which the children are to go. -/
theorem unlink (h : Handover v d .null cs) (hn : v d = some n) :
    Handover (v.unlink d) d n.parent cs := by
  have hd : v.up d ≠ some d := fun hd => h.rooted.ne_parent hd rfl
  refine ⟨h.rooted.unlink d, fun x => (h.marked x).unlink d, fun q hq => (h.linked q hq).unlink d,
    ?_, h.nodup, fun x => ?_, ?_, ?_⟩
  · intro m hm
    obtain ⟨n, hn, rfl⟩ := edit_eq_some.mp hm
    simp only [if_neg hd]
    exact h.bare n hn
  · rw [up_unlink, ← h.left x]
    by_cases hx : x = d
    · simp [hx, hd]
    · simp [hx]
  · intro hp
    obtain ⟨m, hm⟩ := h.rooted.parent (up_eq_some.mpr ⟨n, hn, rfl, hp⟩)
    exact ⟨_, edit_of_some hm⟩
  · intro hu
    rw [up_unlink] at hu
    have hu : Under v.up n.parent d := by
      refine hu.congr fun x p _ hx => ?_
      split at hx
      · cases hx
      · exact hx
    exact h.rooted.not_under_parent hn hu

theorem child (h : Handover v d p (c :: cs)) :
    v.up c = some d ∧ (∃ n, v c = some n) ∧ ¬ Under v.up p c := by
  have hc : v.up c = some d := (h.left c).mpr (List.mem_cons_self ..)
  obtain ⟨n, hn, -⟩ := up_eq_some.mp hc
  refine ⟨hc, ⟨n, hn⟩, fun hu => ?_⟩
  exact h.apart (hu.trans (Above.of_parent hc).under)

theorem rooted_link (h : Handover v d p (c :: cs)) : Rooted (v.link p c) := by
  obtain ⟨-, ⟨n, hn⟩, hpc⟩ := h.child
  exact h.rooted.link hn h.target hpc

theorem step (h : Handover v d p (c :: cs)) : Handover ((v.link p c).flag c .world) d p cs := by
  obtain ⟨hc, ⟨n, hn⟩, hpc⟩ := h.child
  have hr : Rooted (v.link p c) := h.rooted_link
  have hpd : p ≠ d := fun he => h.apart (he ▸ Under.refl p)
  have hnd := List.nodup_cons.mp h.nodup
  refine ⟨hr.flag c _, fun x => ?_, fun q hq => ?_, ?_, hnd.2, fun x => ?_, ?_, ?_⟩
  · exact MarkedAbove.flag hr (fun hx => (h.marked x).link hn p hx) _
  · refine ((h.linked q hq).link h.rooted hn ?_).flag c _
    rw [hc]
    exact fun he => hq (Option.some.inj he).symm
  · intro m hm
    obtain ⟨l, hl, rfl⟩ := edit_eq_some.mp hm
    obtain ⟨n, hn, rfl⟩ := edit_eq_some.mp hl
    simp only [if_neg hpd.symm]
    exact h.bare n hn
  · rw [up_flag, up_link hn]
    by_cases hx : x = c
    · simp [hx, hnd.1, ComponentId.nonNull_eq_some_iff, hpd]
    · simp [hx, h.left]
  · intro hp
    obtain ⟨m, hm⟩ := h.target hp
    exact ⟨_, edit_of_some (edit_of_some hm)⟩
  · -- the new link leaves from `c`, which no walk up from `p` meets
    rw [up_flag, Under.iff_of_eq_off hpc fun x hx => up_link_of_ne p hx]
    exact h.apart

theorem hand (h : Handover v d p cs) : Handover (v.hand p cs) d p [] := by
  induction cs generalizing v with
  | nil => exact h
  | cons c cs ih => exact ih h.step

end Handover

theorem up_hand_of_not_mem (hx : x ∉ cs) : (v.hand p cs).up x = v.up x := by
  induction cs generalizing v with
  | nil => rfl
  | cons c cs ih =>
    rw [List.mem_cons, not_or] at hx
    have hc : ((v.link p c).flag c .world).up x = v.up x := by
      rw [up_flag, up_link_of_ne p hx.1]
    exact (ih hx.2).trans hc

theorem LocalFresh.hand [Mat4.Arithmetic] (h : v.LocalFresh x) (p : ComponentId)
    (cs : List ComponentId) : (v.hand p cs).LocalFresh x := by
  induction cs generalizing v with
  | nil => exact h
  | cons c cs ih => exact ih (LocalFresh.flag (Or.inl (h.link p c)))

/-- A node that gets another parent becomes stale. -/
theorem WorldFresh.relink [Mat4.Arithmetic] (h : v.WorldFresh x) (p c : ComponentId) :
    ((v.link p c).flag c .world).WorldFresh x := by
  apply WorldFresh.flag
  by_cases hx : x = c
  · exact Or.inr ⟨hx, by decide⟩
  · exact Or.inl (h.link hx)

theorem WorldFresh.hand [Mat4.Arithmetic] (h : v.WorldFresh x) (p : ComponentId)
    (cs : List ComponentId) : (v.hand p cs).WorldFresh x := by
  induction cs generalizing v with
  | nil => exact h
  | cons c cs ih => exact ih (h.relink p c)

/-- When all children are handed over and the node lists none, the rest is a forest. -/
theorem Handover.forest (h : Handover v d p []) : Forest v where
  toRooted := h.rooted
  linked q := by
    by_cases hq : q = d
    · intro n hn
      rw [hq] at hn ⊢
      rw [h.bare n hn]
      refine ⟨List.nodup_nil, fun c => ?_⟩
      rw [h.left]
    · exact h.linked q hq

end SceneGraph.View

namespace SceneGraph.Scene

variable {s : Scene} {c d p : ComponentId} {cs : List ComponentId} {n : Node}

theorem modifyNode_null (hs : Sound s) (f : Node → Node) : s.modifyNode .null f = s := by
  simp [modifyNode, modifyRow, indexOf, slot?, hs.null]

namespace Relinked

variable {t : Scene}

theorem detach (h : Relinked s t) (c : ComponentId) : Relinked s (t.detach c) := by
  unfold Scene.detach
  split
  · exact h
  · exact .modifyLinks (.modifyLinks h fun _ => rfl) fun _ => rfl

theorem adopt (h : Relinked s t) (p c : ComponentId) : Relinked s (t.adopt p c) := by
  refine .flag ?_ c .world
  exact .modifyLinks (.modifyLinks h fun _ => rfl) fun _ => rfl

theorem adoptAll (h : Relinked s t) (p : ComponentId) (cs : List ComponentId) :
    Relinked s (cs.foldl (fun s c => s.adopt p c) t) := by
  induction cs generalizing t with
  | nil => exact h
  | cons c cs ih => exact ih (h.adopt p c)

end Relinked

theorem nodeEdit_detach (s : Scene) (c : ComponentId) : NodeEdit s (s.detach c) :=
  (Relinked.refl.detach c).nodeEdit

theorem nodeAt_detach (hs : Sound s) (hr : View.Rooted s.nodeAt) (c : ComponentId) :
    (s.detach c).nodeAt = s.nodeAt.unlink c := by
  unfold detach
  cases hn : s.nodeAt c with
  | none =>
    obtain ⟨e, he⟩ := find_eq_error hn
    rw [node, he, View.unlink, View.edit_id]
    intro x m hx
    have hxc : x ≠ c := by
      intro hxc
      simp [hxc, hn] at hx
    simp [hxc, View.up_of_none hn]
  | some n =>
    have he : NodeEdit s (s.modifyNode c fun n => { n with parent := .null }) :=
      .modifyNode s c fun _ => rfl
    rw [node_eq_ok.mpr hn]
    simp only
    rw [nodeAt_modifyNode (he.sound hs), nodeAt_modifyNode hs, View.modify, View.modify,
      View.edit_edit]
    refine View.edit_congr fun x m hx => ?_
    have hxnull : x ≠ .null := hr.ne_null hx
    have hup : s.nodeAt.up c = some x ↔ x = n.parent := by
      rw [View.up_of_some hn, ComponentId.nonNull_eq_some_iff]
      constructor
      · exact fun h => h.2.symm
      · exact fun h => ⟨h ▸ hxnull, h.symm⟩
    by_cases hxc : x = c
    · have hxp : x ≠ n.parent := by
        intro hxp
        exact hr.ne_parent (hup.mpr hxp) hxc.symm
      have hnup : s.nodeAt.up c ≠ some x := mt hup.mp hxp
      simp only [if_pos hxc, if_neg hxp, if_neg hnup]
    · by_cases hxp : x = n.parent
      · simp only [if_neg hxc, if_pos hxp, if_pos (hup.mpr hxp)]
      · have hnup : s.nodeAt.up c ≠ some x := mt hup.mp hxp
        simp only [if_neg hxc, if_neg hxp, if_neg hnup]

theorem nodeEdit_adopt (s : Scene) (p c : ComponentId) : NodeEdit s (s.adopt p c) :=
  (Relinked.refl.adopt p c).nodeEdit

theorem nodeAt_adopt (hs : Sound s) (hr : View.Rooted (s.nodeAt.link p c))
    (hm : ∀ x, x ≠ c → s.nodeAt.MarkedAbove x) (hn : s.nodeAt c = some n) :
    (s.adopt p c).nodeAt = (s.nodeAt.link p c).flag c .world := by
  let s₁ := s.modifyNode c fun n => { n with parent := p }
  let s₂ := s₁.modifyNode p fun n => { n with children := n.children ++ [c] }
  have h₁ : NodeEdit s s₁ := .modifyNode s c fun _ => rfl
  have h₂ : NodeEdit s₁ s₂ :=
    .modifyNode s₁ p fun _ => rfl
  have hs₁ : Sound s₁ := h₁.sound hs
  have hv : s₂.nodeAt = s.nodeAt.link p c := by
    rw [nodeAt_modifyNode hs₁, nodeAt_modifyNode hs, View.modify, View.modify, View.edit_edit]
    refine View.edit_congr fun x m hx => ?_
    by_cases hxc : x = c
    · by_cases hxp : x = p
      · simp only [if_pos hxc, if_pos hxp]
      · simp only [if_pos hxc, if_neg hxp]
    · by_cases hxp : x = p
      · simp only [if_neg hxc, if_pos hxp]
      · simp only [if_neg hxc, if_neg hxp]
  have hf : (s₂.flag c .world).nodeAt = s₂.nodeAt.flag c .world := by
    refine nodeAt_flag (h₂.sound hs₁) (hv ▸ hr) (fun x hx => ?_) _
    rw [hv] at hx ⊢
    have hxc : x ≠ c := (hr.ne_of_above hx).symm
    exact (hm x hxc).link hn p hxc
  exact hf.trans (by rw [hv])

theorem nodeEdit_adoptAll (s : Scene) (p : ComponentId) (cs : List ComponentId) :
    NodeEdit s (cs.foldl (fun s c => s.adopt p c) s) :=
  (Relinked.refl.adoptAll p cs).nodeEdit

theorem nodeAt_adoptAll (hs : Sound s) (h : View.Handover s.nodeAt d p cs) :
    (cs.foldl (fun s c => s.adopt p c) s).nodeAt = s.nodeAt.hand p cs := by
  induction cs generalizing s with
  | nil => rfl
  | cons c cs ih =>
    obtain ⟨-, ⟨n, hn⟩, -⟩ := h.child
    have hv : (s.adopt p c).nodeAt = (s.nodeAt.link p c).flag c .world :=
      nodeAt_adopt hs h.rooted_link (fun x _ => h.marked x) hn
    have hstep : View.Handover (s.adopt p c).nodeAt d p cs := by
      rw [hv]
      exact h.step
    have hrest := ih ((nodeEdit_adopt s p c).sound hs) hstep
    rw [hv] at hrest
    exact hrest

end SceneGraph.Scene
