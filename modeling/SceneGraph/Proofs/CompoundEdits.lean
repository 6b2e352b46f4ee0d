import SceneGraph.Proofs.ShallowDestruction

/-!
# Compound edits of links

Taking all children from a node is the same as taking them away one by one, in whatever order, and
moving a child is the same as taking it away and then attaching it. A child that was taken away is a
root, so that marking it stale goes no further than the child; what remains of the order is the
order of a list that ends up empty. As all of these edits leave the rows in their places, two of
them are equal as soon as they are equal on the view of nodes.
-/

namespace SceneGraph

/-- Removing by swaps all that there is leaves nothing. -/
theorem foldl_swapErase_eq_nil {α : Type} [DecidableEq α] {cs l : List α} (h : cs.Perm l) :
    cs.foldl swapErase l = [] := by
  induction cs generalizing l with
  | nil => exact List.nil_perm.mp h
  | cons c cs ih =>
    apply ih
    have herase : cs.Perm (l.erase c) := by simpa using h.erase c
    exact herase.trans (swapErase_perm l c).symm

namespace View

variable {v : View Node} {c p x : ComponentId} {cs : List ComponentId} {n : Node}

/-- Makes the children `cs` of `p` roots, one after the other. -/
def release (v : View Node) (p : ComponentId) (cs : List ComponentId) : View Node :=
  v.edit fun x n => { n with
    parent := if x ∈ cs then .null else n.parent
    children := if x = p then cs.foldl swapErase n.children else n.children
    stale := if x ∈ cs then max n.stale .world else n.stale }

theorem release_nil (v : View Node) (p : ComponentId) : v.release p [] = v := by
  refine edit_id fun x n _ => ?_
  simp

theorem release_cons (p : ComponentId) (hc : c ∉ cs) :
    (v.release p [c]).release p cs = v.release p (c :: cs) := by
  rw [release, release, release, edit_edit]
  refine edit_congr fun x n _ => ?_
  have hchildren : (if x = p then
      cs.foldl swapErase (if x = p then [c].foldl swapErase n.children else n.children)
      else if x = p then [c].foldl swapErase n.children else n.children) =
        if x = p then (c :: cs).foldl swapErase n.children else n.children := by
    split <;> rfl
  simp only [hchildren]
  by_cases hx : x = c
  · simp [hx, hc]
  · simp [hx]

/-- In the end the order does not matter. -/
theorem release_perm {cs' : List ComponentId} (hn : v p = some n) (h : cs.Perm n.children)
    (h' : cs'.Perm n.children) : v.release p cs = v.release p cs' := by
  refine edit_congr fun x m hx => ?_
  have hmem : x ∈ cs ↔ x ∈ cs' := h.mem_iff.trans h'.mem_iff.symm
  have hchildren : (if x = p then cs.foldl swapErase m.children else m.children) =
      if x = p then cs'.foldl swapErase m.children else m.children := by
    split
    · next hxp =>
      obtain rfl : n = m := Option.some.inj (hn.symm.trans (hxp ▸ hx))
      rw [foldl_swapErase_eq_nil h, foldl_swapErase_eq_nil h']
    · rfl
  simp only [hmem, hchildren]

/-- The marking of a root goes no further. -/
theorem flag_root (hc : v.up c = none) (g : Staleness) :
    v.flag c g =
      v.edit fun x n => { n with stale := if x = c then max n.stale g else n.stale } := by
  refine edit_congr fun x n _ => ?_
  have hx : ¬ Above v.up x c := by
    rw [Above.iff_parent, hc]
    simp
  simp only [if_neg hx]

theorem up_unlink_self (v : View Node) (c : ComponentId) : (v.unlink c).up c = none := by
  rw [up_unlink]
  exact if_pos rfl

theorem unlink_flag (hc : v.up c = some p) : (v.unlink c).flag c .world = v.release p [c] := by
  rw [flag_root (v.up_unlink_self c), unlink, edit_edit, release]
  refine edit_congr fun x n _ => ?_
  have hp : v.up c = some x ↔ x = p := by rw [hc, Option.some.injEq, eq_comm]
  simp only [List.mem_singleton, hp, List.foldl_cons, List.foldl_nil]

/-- A root has no link to lose. -/
theorem unlink_root (hc : ∀ n, v c = some n → n.parent = .null) : v.unlink c = v := by
  refine edit_id fun x n hx => ?_
  have hup : v.up c = none := by
    cases hn : v c with
    | none => exact up_of_none hn
    | some m =>
      rw [up_of_some hn, hc m hn]
      rfl
  have hparent : (if x = c then ComponentId.null else n.parent) = n.parent := by
    split
    · next hxc => exact (hc n (hxc ▸ hx)).symm
    · rfl
  simp [hup, hparent]

/-- It makes no difference to the node that is attached whether it was marked before. -/
theorem link_flag_root (hn : v c = some n) (hc : v.up c = none) (p : ComponentId) :
    ((v.flag c .world).link p c).flag c .world = (v.link p c).flag c .world := by
  have hw : v.flag c .world c = some _ := edit_of_some hn
  have hup : ((v.flag c .world).link p c).up = (v.link p c).up := by
    rw [up_link hw, up_link hn, up_flag]
  change ((v.flag c .world).link p c).edit _ = (v.link p c).edit _
  rw [hup, flag_root hc, link, link, edit_edit, edit_edit, edit_edit]
  refine edit_congr fun x m _ => ?_
  by_cases hx : x = c
  · simp [hx, Staleness.max_max]
  · simp [hx]

theorem received_null (h : Rooted v) (hx : v x = some n) (cs : List ComponentId) :
    v.received .null cs x n = { n with
      parent := if x ∈ cs then .null else n.parent
      stale := if x ∈ cs then max n.stale .world else n.stale } := by
  have hnull : x ≠ .null := h.ne_null hx
  have htop : ¬ (cs ≠ [] ∧ Under v.up .null x) := fun hu => h.not_under_null hx hu.2
  simp only [received, if_neg hnull, if_neg htop]

/-- A node that lists its children no longer loses them to none. -/
theorem hand_null (h : Handover (v.modify p fun n => { n with children := [] }) p .null n.children)
    (hn : v p = some n) : (v.modify p fun n => { n with children := [] }).hand .null n.children =
      v.release p n.children := by
  have hreceived : ∀ x m, (v.modify p fun n => { n with children := [] }) x = some m →
      (v.modify p fun n => { n with children := [] }).received .null n.children x m = _ :=
    fun x m hx => received_null h.rooted hx n.children
  rw [h.hand_eq, edit_congr hreceived, modify, edit_edit]
  refine edit_congr fun x m hx => ?_
  by_cases hxp : x = p
  · obtain rfl : n = m := Option.some.inj (hn.symm.trans (hxp ▸ hx))
    have hempty : n.children.foldl swapErase n.children = [] := foldl_swapErase_eq_nil (.refl _)
    simp only [if_pos hxp, hempty]
  · simp only [if_neg hxp]

end View

namespace Scene

variable {s s' : Scene} {c p : ComponentId} {cs : List ComponentId} {m n : Node}

theorem run_removeChild [Mat4.Arithmetic] (hv : Valid s) (hc : s.nodeAt c = some n)
    (hp : s.nodeAt n.parent = some m) :
    removeChild n.parent c s = .ok () ((s.detach c).flag c .world) := by
  obtain ⟨i, hi⟩ := indexOf_of_nodeAt hp
  rw [removeChild, bind_ok (run_ask_ok hi), bind_ok (run_ask_ok (node_eq_ok.mpr hc))]
  simp only [ne_eq, not_true, if_false]
  exact run_detachChild hv hc

/-- Children are taken away one after the other, and never in vain. -/
theorem run_removeChildren [Mat4.Arithmetic] (hv : Valid s) (hp : s.nodeAt p = some m)
    (hcs : cs.Nodup) (hup : ∀ c ∈ cs, s.nodeAt.up c = some p) :
    ∃ s', cs.forM (removeChild p) s = .ok () s' ∧ NodeEdit s s' ∧
      s'.nodeAt = s.nodeAt.release p cs := by
  induction cs generalizing s m with
  | nil => exact ⟨s, rfl, .refl s, (View.release_nil _ p).symm⟩
  | cons c cs ih =>
    obtain ⟨hc, hnodup⟩ := List.nodup_cons.mp hcs
    have hcp := hup c List.mem_cons_self
    obtain ⟨n, hn, rfl, -⟩ := View.up_eq_some.mp hcp
    have hview := hv.nodeAt_detached c
    have hrelease := hview.trans (View.unlink_flag hcp)
    obtain ⟨s', hrun, hedit, hs'⟩ := ih (hv.detach c) (by
        rw [hview]
        exact View.edit_of_some (View.edit_of_some hp)) hnodup (by
        intro x hx
        have hxc : x ≠ c := fun he => hc (he ▸ hx)
        rw [hview, View.up_flag, View.up_unlink]
        simp only [if_neg hxc]
        exact hup x (List.mem_cons_of_mem c hx))
    refine ⟨s', ?_, ((nodeEdit_detach s c).trans (nodeEdit_flag _ c .world)).trans hedit, ?_⟩
    · exact (bind_ok (run_removeChild hv hn hp)).trans hrun
    · rw [hs', hrelease, View.release_cons n.parent hc]

/-- All children at once. -/
theorem Valid.nodeAt_bare [Mat4.Arithmetic] (hv : Valid s) (hp : s.nodeAt p = some n) :
    (n.children.foldl (fun s c => s.adopt .null c)
      (s.modifyNode p fun n => { n with children := [] })).nodeAt =
        s.nodeAt.release p n.children := by
  have he : NodeEdit s (s.modifyNode p fun n => { n with children := [] }) :=
    .modifyNode s p fun _ => rfl
  have hstart := hv.handover_bare hp
  rw [nodeAt_adoptAll (he.sound hv.sound) hstart]
  rw [nodeAt_modifyNode hv.sound] at hstart ⊢
  exact View.hand_null hstart hp

theorem addChild_eq_ok [Mat4.Arithmetic] (hv : Valid s) (hc : s.nodeAt c = some n)
    (hnp : n.parent ≠ p) (h : addChild p c s = .ok () s') :
    (∃ m, s.nodeAt p = some m) ∧ ¬ Under s.nodeAt.up p c ∧ s' = (s.detach c).adopt p c := by
  cases hi : s.indexOf .node p with
  | error e =>
    rw [addChild, bind_error (run_ask_error hi)] at h
    cases h
  | ok i =>
    obtain ⟨m, hm⟩ := nodeAt_of_indexOf hv.sound hi
    by_cases hcycle : c = p ∨ s.isAncestor c p
    · rw [run_addChild_cycle hc hm hcycle] at h
      cases h
    · rw [run_addChild hv hc hm hcycle hnp] at h
      injection h with _ hs'
      exact ⟨⟨m, hm⟩, mt (cycle_iff_under hv).mpr hcycle, hs'.symm⟩

/-- A child that is attached elsewhere might as well have been taken away first. -/
theorem run_addChild_removed [Mat4.Arithmetic] (hv : Valid s) (hc : s.nodeAt c = some n)
    (hp : s.nodeAt p = some m) (hpc : ¬ Under s.nodeAt.up p c) :
    addChild p c ((s.detach c).flag c .world) = .ok () ((s.detach c).adopt p c) := by
  have ht := hv.detach c
  have hview := hv.nodeAt_detached c
  have hfirst := (nodeEdit_detach s c).trans (nodeEdit_flag (s.detach c) c .world)
  generalize (s.detach c).flag c .world = t at ht hview hfirst ⊢
  have hroot : s.nodeAt.unlink c c = some _ := View.edit_of_some hc
  obtain ⟨n', hct, hnull⟩ : ∃ n', t.nodeAt c = some n' ∧ n'.parent = .null := by
    rw [hview]
    exact ⟨_, View.edit_of_some hroot, if_pos rfl⟩
  obtain ⟨m', hpt⟩ : ∃ m', t.nodeAt p = some m' := by
    rw [hview]
    exact ⟨_, View.edit_of_some (View.edit_of_some hp)⟩
  have hpct : ¬ Under t.nodeAt.up p c := by
    intro hu
    rw [hview, View.up_flag, View.up_unlink] at hu
    refine hpc (hu.congr fun x q _ hx => ?_)
    split at hx
    · cases hx
    · exact hx
  have hnp : n'.parent ≠ p := by
    rw [hnull]
    exact (hv.rooted.ne_null hp).symm
  rw [run_addChild ht hct hpt (mt (cycle_iff_under ht).mp hpct) hnp]
  have hedit : NodeEdit s ((t.detach c).adopt p c) :=
    hfirst.trans ((nodeEdit_detach t c).trans (nodeEdit_adopt _ p c))
  have hedit' : NodeEdit s ((s.detach c).adopt p c) :=
    (nodeEdit_detach s c).trans (nodeEdit_adopt _ p c)
  rw [hedit.eq_of_nodeAt hv.sound hedit']
  have hunlink : t.nodeAt.unlink c = t.nodeAt := by
    refine View.unlink_root fun l hl => ?_
    rw [← Option.some.inj (hct.symm.trans hl), hnull]
  rw [ht.nodeAt_attached hct hpt hpct, hv.nodeAt_attached hc hp hpc, hunlink, hview,
    View.link_flag_root hroot (View.up_unlink_self _ c)]

/-- Taking all children away at once is taking them away one by one, in any order, and moving a
child is taking it away and then attaching it. -/
theorem Reachable.compound_edits [Mat4.Arithmetic] (h : Reachable s) :
    (∀ p n, s.node p = .ok n → ∃ s', removeAllChildren p s = .ok n.children.length s' ∧
      ∀ cs : List ComponentId, cs.Perm n.children → cs.forM (removeChild p) s = .ok () s') ∧
    ∀ c n, s.node c = .ok n → n.parent ≠ .null →
      ∃ t, removeChild n.parent c s = .ok () t ∧ reparent c none s = .ok () t ∧
        ∀ p s', n.parent ≠ p → addChild p c s = .ok () s' → addChild p c t = .ok () s' := by
  have hv := h.valid
  refine ⟨fun p n hn => ?_, fun c n hn hparent => ?_⟩
  · have hp := node_eq_ok.mp hn
    obtain ⟨hnodup, hmem⟩ := hv.forest.linked p n hp
    have he : NodeEdit s (s.modifyNode p fun n => { n with children := [] }) :=
      .modifyNode s p fun _ => rfl
    refine ⟨_, run_removeAllChildren hv hp, fun cs hcs => ?_⟩
    obtain ⟨s', hrun, hedit, hview⟩ := run_removeChildren hv hp (hcs.nodup_iff.mpr hnodup)
      fun c hc => (hmem c).mp (hcs.mem_iff.mp hc)
    rw [hrun, hedit.eq_of_nodeAt hv.sound (he.trans (nodeEdit_adoptAll _ .null n.children))]
    rw [hview, hv.nodeAt_bare hp, View.release_perm hp hcs (.refl _)]
  · have hc := node_eq_ok.mp hn
    obtain ⟨q, hq⟩ := hv.exists_parent hc hparent
    have hrun := run_removeChild hv hc hq
    refine ⟨_, hrun, ?_, fun p s' hnp hadd => ?_⟩
    · have hnonNull : n.parent.nonNull = some n.parent :=
        ComponentId.nonNull_eq_some_iff.mpr ⟨hparent, rfl⟩
      rw [reparent, bind_ok (run_ask_ok hn)]
      simp only [hnonNull]
      exact hrun
    · obtain ⟨⟨m, hm⟩, hpc, rfl⟩ := addChild_eq_ok hv hc hnp hadd
      exact run_addChild_removed hv hc hm hpc

/-- Three children of a root, and a root without any. -/
def branching : Scene :=
  List.foldl Operation.run {}
    [.insert .transform ⟨5⟩ "trunk", .insert .transform ⟨6⟩ "left", .insert .transform ⟨7⟩ "top",
      .insert .transform ⟨8⟩ "right", .insert .transform ⟨9⟩ "stump", .addChild ⟨5⟩ ⟨6⟩,
      .addChild ⟨5⟩ ⟨7⟩, .addChild ⟨5⟩ ⟨8⟩, .rebuildAllMatrices]

/-- The first child that is taken away changes the order of the others. -/
theorem compound_edits_branching :
    branching.Reachable ∧ (∃ s', removeAllChildren ⟨5⟩ branching = .ok 3 s' ∧
      [⟨6⟩, ⟨7⟩, ⟨8⟩].forM (removeChild ⟨5⟩) branching = .ok () s') ∧
    ∃ t, reparent ⟨7⟩ none branching = .ok () t ∧ removeChild ⟨5⟩ ⟨7⟩ branching = .ok () t ∧
      ∃ s', addChild ⟨9⟩ ⟨7⟩ branching = .ok () s' ∧ addChild ⟨9⟩ ⟨7⟩ t = .ok () s' := by
  have h : branching.Reachable := Reachable.empty.runs (by decide)
  obtain ⟨hall, hmove⟩ := h.compound_edits
  obtain ⟨s', hrun, horder⟩ := hall ⟨5⟩ _ rfl
  obtain ⟨t, hremove, hreparent, hadd⟩ := hmove ⟨7⟩ _ rfl (by decide +kernel)
  refine ⟨h, ⟨s', hrun, horder _ (by decide +kernel)⟩, t, hreparent, hremove, ?_⟩
  exact ⟨_, rfl, hadd ⟨9⟩ _ (by decide +kernel) rfl⟩

end Scene

end SceneGraph
