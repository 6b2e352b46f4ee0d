import Mathlib.Data.List.Induction
import SceneGraph.Proofs.References

/-!
# Scenes as finite maps

The tables of a reachable scene and its map of slots are one finite map from identifiers to
components: each live identifier has one record, and its slot says where. What the map holds can be
told from the changes that a run made, without any table. A field has the value that it was given
last since its component was created, or the value that it was created with.
-/

namespace SceneGraph

namespace Change

/-- The component `id` comes into being or ceases to be. -/
def Restarts (id : ComponentId) : Change → Prop
  | created _ x _ | destroyed x => x = id
  | assigned .. => False

/-- The value that the field `φ` of the component `id` is given, if it is given one. -/
def given? (id : ComponentId) (φ : Field) : Change → Option Datum
  | assigned x d => if x = id ∧ d.field = φ then some d else none
  | _ => none

end Change

/-- The value that the field `φ` of the component `id` was given last. -/
def given (log : List Change) (id : ComponentId) (φ : Field) : Option Datum :=
  (log.filterMap (Change.given? id φ)).getLast?

/-- The component `id` since it was created under a name. -/
structure Account (later : List Change) (id : ComponentId) (name : String) (e : Entry) : Prop where
  since : ∀ c ∈ later, ¬ c.Restarts id
  value : ∀ φ, e.datum? φ = (given later id φ).or (φ.initial e.kind name)

section Logs

variable {log later : List Change} {c : Change} {id : ComponentId} {name : String} {e : Entry}

theorem given_concat (log : List Change) (c : Change) (id : ComponentId) (φ : Field) :
    given (log ++ [c]) id φ = (c.given? id φ).or (given log id φ) := by
  unfold given
  cases hc : c.given? id φ with
  | none => simp [hc]
  | some d => simp [hc]

theorem told_append (log cs : List Change) (id : ComponentId) :
    told (log ++ cs) id = cs.foldl (Change.tell id) (told log id) :=
  List.foldl_append

/-- What is not there stays away until it is created. -/
theorem Change.tell_none (hc : ¬ c.Restarts id) : c.tell id none = none := by
  cases c with
  | created kind x name => exact if_neg hc
  | assigned x d => simp [tell]
  | destroyed x => exact if_neg hc

theorem Account.created (id : ComponentId) (kind : ComponentKind) (name : String) :
    Account [] id name (.new kind name) where
  since c hc := by cases hc
  value _ := rfl

/-- One more change that neither creates nor destroys the component. -/
theorem Account.concat (h : Account later id name e) (hc : ¬ c.Restarts id) :
    ∃ e', c.tell id (some e) = some e' ∧ e'.kind = e.kind ∧ Account (later ++ [c]) id name e' := by
  have hsince : ∀ x ∈ later ++ [c], ¬ x.Restarts id := by
    intro x hx
    rcases List.mem_append.mp hx with hx | hx
    · exact h.since x hx
    · rwa [List.mem_singleton.mp hx]
  cases c with
  | created kind x name' => exact ⟨e, if_neg hc, rfl, hsince, fun φ => by
      rw [given_concat]
      exact h.value φ⟩
  | destroyed x => exact ⟨e, if_neg hc, rfl, hsince, fun φ => by
      rw [given_concat]
      exact h.value φ⟩
  | assigned x d =>
    by_cases hx : x = id
    · refine ⟨e.assign [d], if_pos hx, rfl, hsince, fun φ => ?_⟩
      change (if d.field = φ then some d else e.datum? φ) = _
      rw [given_concat, h.value]
      by_cases hd : d.field = φ
      · simp [Change.given?, hx, hd]
      · simp [Change.given?, hd]
        rfl
    · refine ⟨e, if_neg hx, rfl, hsince, fun φ => ?_⟩
      rw [given_concat, h.value]
      simp [Change.given?, hx]

/-- What is there was created and has been changed since. -/
theorem exists_account (h : told log id = some e) :
    ∃ before name later, log = before ++ .created e.kind id name :: later ∧
      Account later id name e := by
  -- from the end of the log: a restart begins the account, and any other change adds to it
  induction log using List.reverseRecOn generalizing e with
  | nil => cases h
  | append_singleton log c ih =>
    rw [told_append] at h
    change c.tell id (told log id) = some e at h
    by_cases hc : c.Restarts id
    · cases c with
      | created kind x name =>
        obtain rfl : x = id := hc
        obtain rfl : Entry.new kind name = e := by simpa [Change.tell] using h
        exact ⟨log, name, [], rfl, .created x kind name⟩
      | assigned x d => cases hc
      | destroyed x =>
        obtain rfl : x = id := hc
        simp [Change.tell] at h
    · cases hold : told log id with
      | none =>
        rw [hold, Change.tell_none hc] at h
        cases h
      | some e₀ =>
        obtain ⟨before, name, later, rfl, haccount⟩ := ih hold
        obtain ⟨e', he', hkind, haccount'⟩ := haccount.concat hc
        rw [hold, he'] at h
        obtain rfl := Option.some.inj h
        refine ⟨before, name, later ++ [c], ?_, haccount'⟩
        rw [hkind, List.append_assoc, List.cons_append]

end Logs

section Tables

variable {slots : IdMap Slot} {a b : Role} {ids ids' : List ComponentId} {id : ComponentId}

theorem Placed.mem_ids (h : Placed slots a ids) :
    id ∈ ids ↔ ∃ kind i, slots.get? id = some ⟨kind, i⟩ ∧ a.accepts kind := by
  rw [List.mem_iff_getElem?, exists_comm]
  exact exists_congr fun i => (h id i).symm

/-- No identifier is in two tables. -/
theorem Placed.disjoint (h : Placed slots a ids) (h' : Placed slots b ids')
    (hab : a ≠ b ∧ a ≠ .mesh ∧ b ≠ .mesh) : ids.Disjoint ids' := by
  intro id hid hid'
  obtain ⟨kind, i, hslot, hk⟩ := h.mem_ids.mp hid
  obtain ⟨kind', i', hslot', hk'⟩ := h'.mem_ids.mp hid'
  obtain ⟨rfl, -⟩ := Slot.mk.inj (Option.some.inj (hslot.symm.trans hslot'))
  exact Role.not_accepts hab _ hk hk'

end Tables

namespace Scene

variable {s : Scene} {log : List Change} {id : ComponentId}

/-- A run from the empty scene made the changes in the log. -/
inductive Recorded [Mat4.Arithmetic] : List Change → Scene → Prop
  | empty : Recorded [] {}
  | run {log : List Change} {s : Scene} (h : Recorded log s) (op : Operation) (ha : op.Allowed s) :
      Recorded (log ++ op.changes s) (op.run s)

theorem Recorded.reachable [Mat4.Arithmetic] (h : Recorded log s) : s.Reachable := by
  induction h with
  | empty => exact .empty
  | run _ op ha ih => exact ih.run op ha

theorem Reachable.recorded [Mat4.Arithmetic] (h : Reachable s) : ∃ log, Recorded log s := by
  induction h with
  | empty => exact ⟨[], .empty⟩
  | run _ op ha ih =>
    obtain ⟨log, hlog⟩ := ih
    exact ⟨_, hlog.run op ha⟩

/-- The log tells what the scene holds. -/
theorem Recorded.entryOf_eq [Mat4.Arithmetic] (h : Recorded log s) (id : ComponentId) :
    s.entryOf id = told log id := by
  induction h with
  | empty => rfl
  | run h op ha ih =>
    have hr := h.reachable
    rw [(steps_run hr.valid hr.covered op ha).entryOf_eq hr.valid hr.closed, ih, told_append]

/-- The identifiers of the records in the table of a kind, in storage order. -/
def idsOf (s : Scene) : ComponentKind → List ComponentId
  | .transform | .mesh => s.nodes.ids
  | .geometry => s.geometries.ids
  | .material => s.materials.ids
  | .shader => s.shaders.ids
  | .texture => s.textures.ids

/-- The identifiers of all records. -/
def storedIds (s : Scene) : List ComponentId :=
  [s.nodes.ids, s.geometries.ids, s.materials.ids, s.shaders.ids, s.textures.ids].flatten

/-- The map of slots is an index of the tables. -/
structure Indexed (s : Scene) : Prop where
  live : ∀ id, s.contains id ↔ id ∈ s.storedIds
  null : ComponentId.null ∉ s.storedIds
  nodup : s.storedIds.Nodup
  slot : ∀ id slot, s.slot? id = some slot → (s.idsOf slot.kind)[slot.index]? = some id
  found : ∀ id slot, s.slot? id = some slot →
    ∃ c, s.component id = .ok c ∧ c.id = id ∧ c.kind = slot.kind
  mesh : ∀ n ∈ s.nodes.rows, n.isMesh ↔ s.kindOf? n.id = some .mesh

theorem Sound.nodup_storedIds (hs : Sound s) : s.storedIds.Nodup := by
  refine List.nodup_flatten.mpr ⟨?_, ?_⟩
  · simp only [List.forall_mem_cons]
    exact ⟨hs.nodes.ids_nodup, hs.geometries.ids_nodup, hs.materials.ids_nodup,
      hs.shaders.ids_nodup, hs.textures.ids_nodup, fun _ h => by cases h⟩
  · simp only [List.pairwise_cons, List.forall_mem_cons, List.not_mem_nil, false_implies,
      implies_true, List.Pairwise.nil, and_true]
    exact ⟨⟨hs.nodes.disjoint hs.geometries (by decide), hs.nodes.disjoint hs.materials (by decide),
        hs.nodes.disjoint hs.shaders (by decide), hs.nodes.disjoint hs.textures (by decide)⟩,
      ⟨hs.geometries.disjoint hs.materials (by decide),
        hs.geometries.disjoint hs.shaders (by decide),
        hs.geometries.disjoint hs.textures (by decide)⟩,
      ⟨hs.materials.disjoint hs.shaders (by decide),
        hs.materials.disjoint hs.textures (by decide)⟩,
      hs.shaders.disjoint hs.textures (by decide)⟩

theorem Sound.mem_storedIds (hs : Sound s) : id ∈ s.storedIds ↔ s.contains id := by
  have hcontains : s.contains id ↔ ∃ k i, s.slots.get? id = some ⟨k, i⟩ := by
    rw [contains, IdMap.contains, Option.isSome_iff_exists]
    constructor
    · rintro ⟨⟨k, i⟩, h⟩
      exact ⟨k, i, h⟩
    · rintro ⟨k, i, h⟩
      exact ⟨_, h⟩
  rw [hcontains]
  simp only [storedIds, List.flatten_cons, List.flatten_nil, List.mem_append, List.not_mem_nil,
    or_false, hs.nodes.mem_ids, hs.geometries.mem_ids, hs.materials.mem_ids, hs.shaders.mem_ids,
    hs.textures.mem_ids]
  constructor
  · rintro (⟨k, i, h, -⟩ | ⟨k, i, h, -⟩ | ⟨k, i, h, -⟩ | ⟨k, i, h, -⟩ | ⟨k, i, h, -⟩) <;>
      exact ⟨k, i, h⟩
  · rintro ⟨k, i, h⟩
    cases k with
    | transform => exact .inl ⟨.transform, i, h, rfl⟩
    | mesh => exact .inl ⟨.mesh, i, h, rfl⟩
    | geometry => exact .inr (.inl ⟨.geometry, i, h, rfl⟩)
    | material => exact .inr (.inr (.inl ⟨.material, i, h, rfl⟩))
    | shader => exact .inr (.inr (.inr (.inl ⟨.shader, i, h, rfl⟩)))
    | texture => exact .inr (.inr (.inr (.inr ⟨.texture, i, h, rfl⟩)))

theorem Sound.get?_idsOf (hs : Sound s) {slot : Slot} (h : s.slot? id = some slot) :
    (s.idsOf slot.kind)[slot.index]? = some id := by
  obtain ⟨k, i⟩ := slot
  cases k with
  | transform => exact (hs.nodes id i).mp ⟨.transform, h, rfl⟩
  | mesh => exact (hs.nodes id i).mp ⟨.mesh, h, rfl⟩
  | geometry => exact (hs.geometries id i).mp ⟨.geometry, h, rfl⟩
  | material => exact (hs.materials id i).mp ⟨.material, h, rfl⟩
  | shader => exact (hs.shaders id i).mp ⟨.shader, h, rfl⟩
  | texture => exact (hs.textures id i).mp ⟨.texture, h, rfl⟩

theorem Reachable.indexed [Mat4.Arithmetic] (h : Reachable s) : Indexed s where
  live id := h.valid.sound.mem_storedIds.symm
  null hnull := by
    have hslot := h.valid.sound.null
    rw [h.valid.sound.mem_storedIds, contains, IdMap.contains, hslot] at hnull
    cases hnull
  nodup := h.valid.sound.nodup_storedIds
  slot id slot hslot := h.valid.sound.get?_idsOf hslot
  found id slot hslot := exists_component h.valid.sound (kindOf?_of_slot hslot)
  mesh n hn := by
    have hview := (mem_nodes h.valid.sound).mpr ⟨hn, rfl⟩
    obtain ⟨k, hx, -⟩ := contents_of_nodeAt hview
    rw [kindOf?_of_contents hx, Option.some.injEq]
    exact h.closed.mesh hx

/-- A reachable scene is a finite map from identifiers to components, and every field of a component
has the value that a run gave it last since the component was created, or else its first one. -/
theorem Reachable.finite_map [Mat4.Arithmetic] (h : Reachable s) :
    Indexed s ∧ (∃ log, Recorded log s) ∧
      ∀ log, Recorded log s → ∀ id, s.entryOf id = told log id ∧
        ∀ c, s.component id = .ok c → ∃ before name later,
          log = before ++ .created c.kind id name :: later ∧ (∀ x ∈ later, ¬ x.Restarts id) ∧
            ∀ φ, c.datum? φ = (given later id φ).or (φ.initial c.kind name) := by
  refine ⟨h.indexed, h.recorded, fun log hlog id => ?_⟩
  have htold := hlog.entryOf_eq id
  refine ⟨htold, fun c hc => ?_⟩
  rw [entryOf, hc] at htold
  obtain ⟨before, name, later, he, haccount⟩ := exists_account htold.symm
  exact ⟨before, name, later, he, haccount.since, haccount.value⟩

/-- The first of three transforms is gone: the last, which had been moved, is now in its row, and
its identifier names a geometry. -/
def shifted : Scene :=
  List.foldl Operation.run {}
    [.insert .transform ⟨5⟩ "first", .insert .transform ⟨6⟩ "second",
      .apply (.createTransform ⟨7⟩ "third") default, .apply (.setPosition ⟨7⟩ .one) default,
      .apply (.destroy ⟨5⟩) default, .insert .geometry ⟨5⟩ "cube"]

theorem finite_map_shifted :
    shifted.Reachable ∧ shifted.slot? ⟨7⟩ = some ⟨.transform, 0⟩ ∧ shifted.storedIds.Nodup ∧
      ∃ before name later, Recorded (before ++ .created .transform ⟨7⟩ name :: later) shifted ∧
        given later ⟨7⟩ .position = some (.position .one) := by
  have h : shifted.Reachable := Reachable.empty.runs (by decide)
  obtain ⟨hindexed, ⟨log, hlog⟩, hfields⟩ := h.finite_map
  obtain ⟨c, hc, hkind, hposition⟩ : ∃ c, shifted.component ⟨7⟩ = .ok c ∧ c.kind = .transform ∧
      c.datum? .position = some (.position .one) := ⟨_, rfl, rfl, rfl⟩
  obtain ⟨before, name, later, rfl, -, hvalue⟩ := (hfields log hlog ⟨7⟩).2 c hc
  rw [hkind] at hlog hvalue
  refine ⟨h, rfl, hindexed.nodup, before, name, later, hlog, ?_⟩
  have hgiven := (hvalue .position).symm.trans hposition
  cases hlast : given later ⟨7⟩ .position with
  | none =>
    rw [hlast] at hgiven
    change some (Datum.position .zero) = some (.position .one) at hgiven
    exact absurd hgiven (by decide)
  | some d =>
    rw [hlast] at hgiven
    exact hgiven

end Scene

end SceneGraph
