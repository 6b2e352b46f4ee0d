import Mathlib.Logic.Relation
import SceneGraph.Proofs.Reachable

/-!
# The hierarchy of a reachable scene

Parent links and lists of children agree, no node is above itself, and the test for ancestors
follows the parent links to their end. Attaching is therefore refused just where it would close a
cycle.
-/

namespace SceneGraph.Scene

variable {s s' : Scene} {a c p x : ComponentId} {m n : Node}

/-- One link up: `p` is the parent of `c`. -/
def HasParent (s : Scene) (c p : ComponentId) : Prop := s.parentOf c = p ∧ p ≠ .null

section Links

theorem parentOf_eq_up (s : Scene) (c : ComponentId) :
    s.parentOf c = (s.nodeAt.up c).getD .null := by
  cases hu : s.nodeAt.up c with
  | none => exact parentOf_of_root hu
  | some p => exact parentOf_of_up hu

theorem hasParent_iff : s.HasParent c p ↔ s.nodeAt.up c = some p := by
  rw [HasParent, parentOf_eq_up]
  constructor
  · rintro ⟨hp, hnull⟩
    cases hu : s.nodeAt.up c with
    | none =>
      rw [hu] at hp
      exact absurd hp.symm hnull
    | some q =>
      rw [hu] at hp
      exact congrArg some hp
  · intro hu
    obtain ⟨n, -, -, hnull⟩ := View.up_eq_some.mp hu
    exact ⟨by rw [hu]; rfl, hnull⟩

/-- The nodes above are those that the parent links lead to. -/
theorem above_iff_transGen : Above s.nodeAt.up a c ↔ Relation.TransGen s.HasParent c a := by
  constructor
  · rintro ⟨k, h⟩
    induction k generalizing a with
    | zero =>
      obtain ⟨p, hp, h⟩ := Climb.succ_iff.mp h
      obtain rfl := Climb.zero_iff.mp h
      exact .single (hasParent_iff.mpr hp)
    | succ k ih =>
      obtain ⟨p, h, hp⟩ := Climb.succ_iff_last.mp h
      exact .tail (ih h) (hasParent_iff.mpr hp)
  · intro h
    induction h with
    | single h => exact Above.of_parent (hasParent_iff.mp h)
    | tail _ h ih => exact ih.trans_under (Above.of_parent (hasParent_iff.mp h)).under

end Links

section Valid

variable [Mat4.Arithmetic] (hv : Valid s)
include hv

theorem Valid.isAncestor_iff (a c : ComponentId) :
    s.isAncestor a c = true ↔ Relation.TransGen s.HasParent c a :=
  (Scene.isAncestor_iff hv.sound hv.rooted a c).trans above_iff_transGen

/-- The list of children of a node holds each node that names it as its parent just once. -/
theorem Valid.count_children (hn : s.nodeAt p = some n) (c : ComponentId) :
    n.children.count c = if s.parentOf c = p then 1 else 0 := by
  obtain ⟨hnodup, hmem⟩ := hv.forest.linked p n hn
  have hparent : c ∈ n.children ↔ s.parentOf c = p := by
    rw [hmem c, ← hasParent_iff, HasParent]
    exact and_iff_left (hv.rooted.ne_null hn)
  by_cases hc : c ∈ n.children
  · rw [if_pos (hparent.mp hc)]
    exact List.count_eq_one_of_mem hnodup hc
  · rw [if_neg fun h => hc (hparent.mpr h)]
    exact List.count_eq_zero.mpr hc

theorem Valid.exists_parent (hn : s.nodeAt c = some n) (hp : n.parent ≠ .null) :
    ∃ m, s.nodeAt n.parent = some m :=
  hv.rooted.parent (View.up_eq_some.mpr ⟨n, hn, rfl, hp⟩)

theorem Valid.not_above_self (c : ComponentId) : ¬ Relation.TransGen s.HasParent c c := by
  rw [← above_iff_transGen]
  exact Above.not_self hv.rooted.ranked

theorem Valid.cycle_iff : c = p ∨ s.isAncestor c p ↔ p = c ∨ Relation.TransGen s.HasParent p c := by
  rw [hv.isAncestor_iff]
  exact or_congr_left eq_comm

/-- Attaching a child moves its own parent link and no other. -/
theorem Valid.parentOf_attached (hc : s.nodeAt c = some n) (hp : s.nodeAt p = some m)
    (hpc : ¬ Under s.nodeAt.up p c) (x : ComponentId) :
    ((s.detach c).adopt p c).parentOf x = if x = c then p else s.parentOf x := by
  have hunlinked : s.nodeAt.unlink c c = some _ := View.edit_of_some hc
  have hup : ((s.detach c).adopt p c).nodeAt.up =
      fun x => if x = c then p.nonNull else if x = c then none else s.nodeAt.up x := by
    rw [hv.nodeAt_attached hc hp hpc, View.up_flag, View.up_link hunlinked, View.up_unlink]
  rw [parentOf_eq_up, parentOf_eq_up, hup]
  by_cases hx : x = c
  · have hnull : p.nonNull = some p :=
      ComponentId.nonNull_eq_some_iff.mpr ⟨hv.rooted.ne_null hp, rfl⟩
    simp only [if_pos hx, hnull]
    rfl
  · simp only [if_neg hx]

theorem Valid.addChild_ok (hc : s.nodeAt c = some n) (hp : s.nodeAt p = some m)
    (h : ¬ (c = p ∨ s.isAncestor c p)) :
    ∃ s', addChild p c s = .ok () s' ∧ s'.parentOf c = p ∧
      ∀ x, x ≠ c → s'.parentOf x = s.parentOf x := by
  by_cases hnp : n.parent = p
  · refine ⟨s, run_addChild_same hc hp h hnp, ?_, fun _ _ => rfl⟩
    rw [parentOf_eq, hc]
    exact hnp
  · have hparent := hv.parentOf_attached hc hp (mt (cycle_iff_under hv).mpr h)
    refine ⟨_, run_addChild hv hc hp h hnp, ?_, fun x hx => ?_⟩
    · rw [hparent, if_pos rfl]
    · rw [hparent, if_neg hx]

end Valid

/-- The hierarchy of a reachable scene is a forest, and what would close a cycle is refused. -/
theorem hierarchy_forest [Mat4.Arithmetic] (h : Reachable s) :
    (∀ p ∈ s.nodes.rows, ∀ c, p.children.count c = if s.parentOf c = p.id then 1 else 0) ∧
    (∀ n ∈ s.nodes.rows, n.parent ≠ .null → ∃ p, s.node n.parent = .ok p) ∧
    (∀ c, ¬ Relation.TransGen s.HasParent c c) ∧
    (∀ a c, s.isAncestor a c = true ↔ Relation.TransGen s.HasParent c a) ∧
    ∀ p c m n, s.node p = .ok m → s.node c = .ok n →
      reparent c (some p) s = addChild p c s ∧
      (p = c ∨ Relation.TransGen s.HasParent p c → addChild p c s = .error (.cycle p c) s) ∧
      (¬ (p = c ∨ Relation.TransGen s.HasParent p c) →
        ∃ s', addChild p c s = .ok () s' ∧ s'.parentOf c = p ∧
          ∀ x, x ≠ c → s'.parentOf x = s.parentOf x) := by
  have hv := h.valid
  refine ⟨?_, ?_, hv.not_above_self, hv.isAncestor_iff, ?_⟩
  · intro p hp c
    exact hv.count_children ((mem_nodes hv.sound).mpr ⟨hp, rfl⟩) c
  · intro n hn hp
    obtain ⟨m, hm⟩ := hv.exists_parent ((mem_nodes hv.sound).mpr ⟨hn, rfl⟩) hp
    exact ⟨m, node_eq_ok.mpr hm⟩
  · intro p c m n hm hn
    have hp := node_eq_ok.mp hm
    have hc := node_eq_ok.mp hn
    refine ⟨rfl, fun hcycle => ?_, fun hcycle => ?_⟩
    · exact run_addChild_cycle hc hp (hv.cycle_iff.mpr hcycle)
    · exact hv.addChild_ok hc hp fun hcp => hcycle (hv.cycle_iff.mp hcp)

/-- A mesh below an arm below a hub. -/
def chain : Scene :=
  List.foldl Operation.run {}
    [.insert .transform ⟨5⟩ "hub", .insert .transform ⟨6⟩ "arm",
      .apply (.createMesh ⟨7⟩ .null .null "wheel") default, .apply (.addChild ⟨6⟩ ⟨7⟩) default,
      .addChild ⟨5⟩ ⟨6⟩]

/-- The hub cannot go below the mesh. -/
theorem hierarchy_forest_chain :
    chain.Reachable ∧ Relation.TransGen chain.HasParent ⟨7⟩ ⟨5⟩ ∧
      addChild ⟨7⟩ ⟨5⟩ chain = .error (.cycle ⟨7⟩ ⟨5⟩) chain := by
  have h : chain.Reachable := Reachable.empty.runs (by decide)
  obtain ⟨-, -, -, hanc, hadd⟩ := hierarchy_forest h
  have habove : Relation.TransGen chain.HasParent ⟨7⟩ ⟨5⟩ := (hanc ⟨5⟩ ⟨7⟩).mp rfl
  obtain ⟨-, hcycle, -⟩ := hadd ⟨7⟩ ⟨5⟩ _ _ rfl rfl
  exact ⟨h, habove, hcycle (Or.inr habove)⟩

end SceneGraph.Scene
