import SceneGraph.Proofs.Acyclicity
import SceneGraph.Proofs.References

/-!
# Marking what is stale

Raising the staleness of a node marks the nodes above it, and ends at the first that is stale
already. In a reachable scene the nodes above that one are stale too, since every step keeps the
staleness closed upwards: the links that it changes are followed by a marking from their lower end.
So ending early leaves nothing out, and the limit of the walk never matters. Apart from rebuilds no
step makes a node less stale.
-/

namespace SceneGraph

namespace Scene

variable {as : List Aside} {cs : List Change} {s s' t : Scene} {id x : ComponentId} {n : Node}
  {g : Staleness} {op : Operation}

theorem NodeEdit.eq_of_nodeAt (hs : Sound s) (h : NodeEdit s t) (h' : NodeEdit s s')
    (hv : t.nodeAt = s'.nodeAt) : t = s' := by
  have hplaced : Placed t.slots .node t.nodes.ids := (h.sound hs).nodes
  have hnodes : t.nodes = s'.nodes := by
    refine hplaced.table_eq (h'.ids.trans h.ids.symm) ?_
    have hslots : t.slots = s'.slots := h.slots.trans h'.slots.symm
    exact hv.trans (by rw [nodeAt, hslots])
  rw [h.rest, h'.rest, hnodes]

/-! ## Nothing becomes less stale -/

/-- Every node is still there, and no less stale. -/
def Raised (s s' : Scene) : Prop :=
  ∀ x n, s.nodeAt x = some n → ∃ m, s'.nodeAt x = some m ∧ n.stale.rank ≤ m.stale.rank

namespace Raised

theorem trans (h : Raised s t) (h' : Raised t s') : Raised s s' := by
  intro x n hn
  obtain ⟨m, hm, hle⟩ := h x n hn
  obtain ⟨l, hl, hle'⟩ := h' x m hm
  exact ⟨l, hl, Nat.le_trans hle hle'⟩

theorem of_nodeAt (h : s'.nodeAt = s.nodeAt) : Raised s s' :=
  fun _ n hn => ⟨n, h ▸ hn, Nat.le_refl _⟩

theorem of_edit {f : ComponentId → Node → Node} (h : s'.nodeAt = s.nodeAt.edit f)
    (hf : ∀ x n, s.nodeAt x = some n → n.stale.rank ≤ (f x n).stale.rank) : Raised s s' :=
  fun x n hn => ⟨f x n, h ▸ View.edit_of_some hn, hf x n hn⟩

theorem modifyNode {f : Node → Node} (hs : Sound s)
    (hf : ∀ n, s.nodeAt id = some n → n.stale.rank ≤ (f n).stale.rank) :
    Raised s (s.modifyNode id f) := by
  refine of_edit (nodeAt_modifyNode hs f id) fun x n hn => ?_
  split
  · next hx => exact hf n (hx ▸ hn)
  · exact Nat.le_refl _

theorem add (hs : Sound s) (hfree : s.slots.get? id = none) (kind : ComponentKind)
    (name : String) : Raised s (s.add kind id name) := by
  intro x n hn
  refine ⟨n, ?_, Nat.le_refl _⟩
  rw [nodeAt_add hs hfree]
  have hx : x ≠ id := by
    rintro rfl
    rw [nodeAt, rowAt_of_free hfree] at hn
    cases hn
  split
  · rw [View.insert, if_neg hx, hn]
  · exact hn

/-- The row of another component is taken away. -/
theorem removeSlot {slot : Slot} (h : Raised s t) (ht : Sound t)
    (hslot : t.slots.get? id = some slot) (hx : x ≠ id) (hn : s.nodeAt x = some n) :
    ∃ m, (t.removeSlot id slot).nodeAt x = some m ∧ n.stale.rank ≤ m.stale.rank := by
  obtain ⟨m, hm, hle⟩ := h x n hn
  refine ⟨m, ?_, hle⟩
  rw [(removeSlot_removal ht hslot).nodes.2]
  exact View.erase_eq_some.mpr ⟨hx, hm⟩

end Raised

theorem Relinked.raised (h : Relinked s s') (hs : Sound s) : Raised s s' := by
  induction h with
  | refl => exact .of_nodeAt rfl
  | @modifyNode t id f h _ hstale ih =>
    exact ih.trans (.modifyNode (h.nodeEdit.sound hs) fun n hn => hstale n (node_eq_ok.mpr hn))

/-- Only a rebuild makes a node less stale, and only its own destruction takes it away. -/
theorem Step.raised [Mat4.Arithmetic] (h : Step as s cs s') (hv : Valid s) (has : .rebuild ∉ as)
    (hx : .destroyed x ∉ cs) (hn : s.nodeAt x = some n) :
    ∃ m, s'.nodeAt x = some m ∧ n.stale.rank ≤ m.stale.rank := by
  have hs := hv.sound
  -- all steps but the removals keep all nodes
  have keep : Raised s s' → ∃ m, s'.nodeAt x = some m ∧ n.stale.rank ≤ m.stale.rank :=
    fun h => h x n hn
  cases h with
  | draw | reserve | geometry | geometries | material | reshade | shader | texture | rebatch =>
    exact keep (.of_nodeAt rfl)
  | add _ hfree => exact keep (.add hs hfree _ _)
  | rename => exact keep (.modifyNode hs fun _ _ => Nat.le_refl _)
  | @place id n f d _ hf =>
    have he : NodeEdit s (s.modifyNode id f) := .modifyNode s id fun n => by rw [hf]
    have hplaced : Raised s (s.modifyNode id f) := by
      have hstale : ∀ n, (f n).stale = n.stale := fun n => by rw [hf]
      exact .modifyNode hs fun n _ => Nat.le_of_eq (by rw [hstale])
    exact keep (hplaced.trans ((Relinked.refl.flag id .local).raised (he.sound hs)))
  | flag id g => exact keep ((Relinked.refl.flag id g).raised hs)
  | detach c => exact keep (((Relinked.refl.detach c).flag c .world).raised hs)
  | @attach c p => exact keep (((Relinked.refl.detach c).adopt p c).raised hs)
  | @bare p n =>
    have hbare : Relinked s (s.modifyNode p fun n => { n with children := [] }) :=
      .modifyLinks .refl fun _ => rfl
    exact keep ((hbare.adoptAll .null n.children).raised hs)
  | @rebind id geometry material n =>
    have hg := (geometryEdit_rebind s id geometry material n).nodeAt
    exact keep (.of_edit (hg.trans (hv.nodeAt_remesh id _)) fun _ _ _ => Nat.le_refl _)
  | rebuild hr => exact absurd hr has
  | @destroyNode id slot m hm hslot _ =>
    have hne : x ≠ id := by simpa using hx
    have he : NodeEdit s (s.modifyNode id fun n => { n with children := [], mesh := none }) :=
      .modifyNode s id fun _ => rfl
    have hbare : Raised s (s.modifyNode id fun n => { n with children := [], mesh := none }) :=
      .modifyNode hs fun _ _ => Nat.le_refl _
    have hg : GeometryEdit (s.handedOver id m) (s.orphaned id m) :=
      .modifyGeometry _ _ (Geometry.id_unbind id)
    have hhanded : Raised s (s.handedOver id m) := hbare.trans
      (((Relinked.refl.detach id).adoptAll m.parent m.children).raised (he.sound hs))
    have horphaned : Raised s (s.orphaned id m) := hhanded.trans (.of_nodeAt hg.nodeAt)
    have hedit := nodeEdit_handedOver s id m
    refine horphaned.removeSlot (hg.sound (hedit.sound hs)) ?_ hne hn
    rw [hg.slots, hedit.slots, hslot]
  | @destroyGeometry id slot hslot _ =>
    have hne : x ≠ id := by simpa using hx
    have he := nodeEdit_forgetGeometry hs id
    refine Raised.removeSlot ?_ (he.sound hs) (he.slots ▸ hslot) hne hn
    unfold forgetGeometry
    split
    · exact .of_nodeAt rfl
    · exact .of_edit (Valid.clearEach (f := fun b => { b with geometry := .null }) (fun _ => rfl)
        hs _).2 fun _ _ _ => Nat.le_refl _
  | @destroyMaterial id slot hslot _ =>
    have hne : x ≠ id := by simpa using hx
    obtain ⟨ht, hslots, hnodes, -⟩ := Valid.forgetMaterial_spec hs id
    have hforget : Raised s (s.forgetMaterial id) := .of_edit hnodes fun _ _ _ => Nat.le_refl _
    exact hforget.removeSlot ht (hslots ▸ hslot) hne hn
  | @destroyShader id slot hslot _ =>
    have hne : x ≠ id := by simpa using hx
    have hforget : Raised s (s.forgetShader id) := .of_nodeAt rfl
    exact hforget.removeSlot (hs.forgetShader id) hslot hne hn
  | @destroyTexture id slot hslot _ =>
    have hne : x ≠ id := by simpa using hx
    have hsame : Raised s s := .of_nodeAt rfl
    exact hsame.removeSlot hs hslot hne hn

theorem Steps.raised [Mat4.Arithmetic] (h : Steps as s cs s') (hv : Valid s) (has : .rebuild ∉ as)
    (hx : .destroyed x ∉ cs) (hn : s.nodeAt x = some n) :
    ∃ m, s'.nodeAt x = some m ∧ n.stale.rank ≤ m.stale.rank := by
  induction h with
  | refl => exact ⟨n, hn, Nat.le_refl _⟩
  | tail h h' ih =>
    rw [List.mem_append, not_or] at hx
    obtain ⟨m, hm, hle⟩ := ih hx.1
    obtain ⟨l, hl, hle'⟩ := h'.raised (h.valid hv) has hx.2 hm
    exact ⟨l, hl, Nat.le_trans hle hle'⟩

/-- An operation that destroys something does nothing else. -/
theorem changes_of_destroyed (h : .destroyed x ∈ op.changes s) :
    op.changes s = [.destroyed x] := by
  cases op with
  | destroy id =>
    obtain ⟨hx, hall⟩ := mem_accepting h
    exact hall.trans (by rw [← List.mem_singleton.mp hx])
  | apply c readbacks =>
    obtain ⟨hx, hall⟩ := mem_accepting h
    exact hall.trans (by rw [Command.eq_destroy hx, Command.changes])
  | updateMesh => exact absurd (mem_accepting h).1 not_destroyed_of_meshChanges
  | create => simp [Operation.changes] at h
  | insert | setName | setPosition | setRotation | setScale | setVertexAttribute | setIndices
  | setVertexCount | setIndicesCount | setShaderSource | setMaterialUniform | resizeTexture
  | writeTexture => simpa using (mem_accepting h).1
  | _ => cases h

/-- Only the two rebuilds recompute matrices. -/
theorem rebuild_not_mem_asides (hone : ∀ root, op ≠ .rebuildMatrices root)
    (hall : op ≠ .rebuildAllMatrices) : .rebuild ∉ op.asides := by
  cases op with
  | rebuildMatrices root => exact absurd rfl (hone root)
  | rebuildAllMatrices => exact absurd rfl hall
  | apply c readbacks => cases c <;> simp [Operation.asides, Command.asides]
  | _ => simp [Operation.asides]

theorem Reachable.raised [Mat4.Arithmetic] (h : Reachable s) (ha : op.Allowed s)
    (has : .rebuild ∉ op.asides) {n' : Node} (hn : s.nodeAt x = some n)
    (hn' : (op.run s).nodeAt x = some n') :
    n.stale.rank ≤ n'.stale.rank := by
  have hsteps := steps_run h.valid h.covered op ha
  by_cases hx : .destroyed x ∈ op.changes s
  · have hentry := hsteps.entryOf_eq h.valid h.closed x
    rw [changes_of_destroyed hx] at hentry
    obtain ⟨c, hc⟩ := component_of_nodeAt hn'
    simp [entryOf, hc, Change.tell] at hentry
  · obtain ⟨m, hm, hle⟩ := hsteps.raised h.valid has hx hn
    obtain rfl : m = n' := Option.some.inj (hm.symm.trans hn')
    exact hle

/-! ## Marking without stopping -/

open Classical in
/-- Raises the staleness of `id` to `g`, and that of every node above it, without stopping. -/
noncomputable def flagAll (s : Scene) (id : ComponentId) (g : Staleness) : Scene :=
  { s with nodes := s.nodes.map fun n => { n with
      stale :=
        if n.id = id then max n.stale g
        else if Relation.TransGen s.HasParent id n.id then max n.stale .descendents
        else n.stale } }

theorem nodeEdit_flagAll (s : Scene) (id : ComponentId) (g : Staleness) :
    NodeEdit s (s.flagAll id g) where
  ids := by
    refine Placed.ids_map ?_ s.nodes
    exact fun _ => rfl
  rest := rfl

theorem nodeAt_flagAll (hs : Sound s) (id : ComponentId) (g : Staleness) :
    (s.flagAll id g).nodeAt = s.nodeAt.flag id g := by
  funext x
  refine (rowAt_map _).trans ?_
  cases hn : s.nodeAt x with
  | none =>
    rw [View.flag, View.edit, hn]
    exact congrArg _ hn
  | some n =>
    obtain rfl : n.id = x := hs.nodes.row_id hn
    rw [View.flag, View.edit_of_some hn, above_iff_transGen]
    exact congrArg (Option.map _) hn

theorem Valid.markFrom_eq [Mat4.Arithmetic] (hv : Valid s) (hn : s.nodeAt id = some n)
    (g : Staleness) {limit : ℕ} (hlimit : s.nodes.size ≤ limit) :
    markUpward limit n.parent (s.modifyNode id fun n => n.raise g) = s.flagAll id g := by
  have hraise : Relinked s (s.modifyNode id fun n => n.raise g) :=
    .modifyNode .refl (fun _ => rfl) fun n _ => n.rank_le_raise g
  refine (hraise.markUpward limit n.parent).nodeEdit.eq_of_nodeAt hv.sound
    (nodeEdit_flagAll s id g) ?_
  rw [nodeAt_markFrom hv.sound hv.rooted (fun x _ => hv.fresh.marked x) hn g hlimit,
    nodeAt_flagAll hv.sound]

theorem Valid.flag_eq [Mat4.Arithmetic] (hv : Valid s) (hn : s.nodeAt id = some n) (g : Staleness) :
    s.flag id g = s.flagAll id g := by
  rw [Scene.flag, parentOf_eq, hn]
  exact hv.markFrom_eq hn g (Nat.le_succ _)

/-- The marking of a node that has been given another place marks all nodes above. -/
theorem Valid.flag_placed [Mat4.Arithmetic] {f : Node → Node} (hv : Valid s) (id : ComponentId)
    (hf : ∀ n, f n =
      { n with position := (f n).position, rotation := (f n).rotation, scale := (f n).scale }) :
    (s.modifyNode id f).flag id .local = (s.modifyNode id f).flagAll id .local := by
  have he : NodeEdit s (s.modifyNode id f) := .modifyNode s id fun n => by rw [hf]
  have hs := he.sound hv.sound
  refine (nodeEdit_flag _ id .local).eq_of_nodeAt hs (nodeEdit_flagAll _ id .local) ?_
  rw [hv.nodeAt_placed id hf, nodeAt_flagAll hs]

/-- Above a stale node all is stale, so marking up to the first stale node marks all, whatever the
limit of the walk; and no operation but a rebuild makes a node less stale. -/
theorem Reachable.marking [Mat4.Arithmetic] (h : Reachable s) :
    (∀ c n, s.node c = .ok n → n.stale ≠ .none → n.parent ≠ .null →
      ∃ m, s.node n.parent = .ok m ∧ m.stale ≠ .none) ∧
    (∀ id n g, s.node id = .ok n → setStale id g s = .ok () (s.flagAll id g) ∧
      ∀ limit, s.nodes.size ≤ limit →
        markUpward limit n.parent (s.modifyNode id fun n => n.raise g) = s.flagAll id g) ∧
    ∀ op : Operation, op.Allowed s → (∀ root, op ≠ .rebuildMatrices root) →
      op ≠ .rebuildAllMatrices → ∀ x n n', s.node x = .ok n → (op.run s).node x = .ok n' →
        n.stale.rank ≤ n'.stale.rank := by
  have hv := h.valid
  refine ⟨?_, ?_, ?_⟩
  · intro c n hn hstale hp
    have hc := node_eq_ok.mp hn
    obtain ⟨m, hm⟩ := hv.exists_parent hc hp
    have hup : s.nodeAt.up c = some n.parent := View.up_eq_some.mpr ⟨n, hc, rfl, hp⟩
    exact ⟨m, node_eq_ok.mpr hm, hv.fresh.marked c n n.parent m hc hup hm hstale⟩
  · intro id n g hn
    have hid := node_eq_ok.mp hn
    refine ⟨?_, fun limit hlimit => hv.markFrom_eq hid g hlimit⟩
    rw [run_setStale hid, hv.flag_eq hid]
  · intro op ha hone hall x n n' hn hn'
    exact h.raised ha (rebuild_not_mem_asides hone hall) (node_eq_ok.mp hn) (node_eq_ok.mp hn')

/-- A mesh below an arm below a hub, of which only the arm was moved since all was rebuilt. -/
def nudged : Scene :=
  List.foldl Operation.run chain [.rebuildAllMatrices, .setPosition ⟨6⟩ .one]

/-- The marking ends at the arm, and the hub above it is marked all the same. -/
theorem marking_nudged :
    nudged.Reachable ∧ setStale ⟨7⟩ .world nudged = .ok () (nudged.flagAll ⟨7⟩ .world) ∧
      (nudged.flagAll ⟨7⟩ .world).nodes.rows.map Node.stale = [.descendents, .local, .world] ∧
      nudged.nodes.rows.map Node.stale = [.descendents, .local, .none] := by
  have hchain : chain.Reachable := Reachable.empty.runs (by decide)
  have h : nudged.Reachable := hchain.runs (by decide)
  obtain ⟨-, hmark, -⟩ := h.marking
  have hwheel : (nudged.node ⟨7⟩).toOption.map Node.parent = some ⟨6⟩ := by decide +kernel
  cases hn : nudged.node ⟨7⟩ with
  | error e => simp [hn, Except.toOption] at hwheel
  | ok n =>
    obtain ⟨hset, hall⟩ := hmark ⟨7⟩ n .world hn
    have hparent : n.parent = ⟨6⟩ := by simpa [hn, Except.toOption] using hwheel
    refine ⟨h, hset, ?_, by decide +kernel⟩
    rw [← hall 3 (by decide +kernel), hparent]
    decide +kernel

end Scene

end SceneGraph
