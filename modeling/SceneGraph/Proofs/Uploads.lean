import SceneGraph.Proofs.InstanceBatches
import SceneGraph.Proofs.Retention

/-!
# Renderers that poll for uploads

A renderer keeps a copy of the batches of a geometry and replaces it whenever batches are handed out
to it. What it has to know for that is noted in a log: that the batches were rebuilt, and what each
poll gave. The upload of the geometry itself goes through a small machine with these events,
whatever else a session does, and in step with it the copy falls behind only while batches wait.
-/

namespace SceneGraph

/-- What happens to the batches of a geometry that is watched. -/
inductive UploadEvent where
  | rebuilt
  /-- The batches were asked for, with this answer. -/
  | polled (answer : Option (List InstanceBatch))
deriving DecidableEq

namespace UploadEvent

variable {log mid : List UploadEvent} {u u' : List InstanceBatch × Bool} {b : Bool}

/-- Whether batches are handed out. -/
def handsOut : UploadEvent → Bool
  | polled (some _) => true
  | _ => false

/-- The copy of a renderer after another event. -/
def refresh (copy : List InstanceBatch) : UploadEvent → List InstanceBatch
  | polled (some batches) => batches
  | _ => copy

/-- The copy of a renderer that starts with nothing. -/
def copyOf (log : List UploadEvent) : List InstanceBatch := log.foldl refresh []

/-- Whether batches wait after another event. -/
def waits (b : Bool) : UploadEvent → Bool
  | rebuilt => true
  | polled (some _) => false
  | polled none => b

/-- Whether there was a rebuild since the last batches that were handed out. -/
def waiting (log : List UploadEvent) : Bool := log.foldl waits false

theorem copyOf_concat (log : List UploadEvent) (e : UploadEvent) :
    copyOf (log ++ [e]) = refresh (copyOf log) e := by
  rw [copyOf, List.foldl_append]
  rfl

theorem waiting_append (log mid : List UploadEvent) :
    waiting (log ++ mid) = mid.foldl waits (waiting log) := by
  rw [waiting, List.foldl_append]
  rfl

/-- What waited is handed out if it waits no longer. -/
theorem exists_handed_out (h : mid.foldl waits true = false) :
    ∃ batches, polled (some batches) ∈ mid := by
  induction mid with
  | nil => cases h
  | cons e mid ih =>
    cases e with
    | rebuilt =>
      obtain ⟨batches, hmem⟩ := ih h
      exact ⟨batches, List.mem_cons_of_mem _ hmem⟩
    | polled answer =>
      cases answer with
      | some batches => exact ⟨batches, List.mem_cons_self ..⟩
      | none =>
        obtain ⟨batches, hmem⟩ := ih h
        exact ⟨batches, List.mem_cons_of_mem _ hmem⟩

/-- What becomes of the batches and of their waiting, with the event in which that is noted. -/
inductive Turn : List InstanceBatch × Bool → Option UploadEvent → List InstanceBatch × Bool → Prop
  | keep (u : List InstanceBatch × Bool) : Turn u none u
  | rebuild (u : List InstanceBatch × Bool) (batches : List InstanceBatch) :
      Turn u (some rebuilt) (batches, true)
  | poll (batches : List InstanceBatch) (b : Bool) :
      Turn (batches, b) (some (polled (if b then some batches else none))) (batches, false)

/-- The log tells how the upload of a geometry stands: a poll was answered with batches exactly if
there was a rebuild since the last one that was. -/
structure Tells (log : List UploadEvent) (u : List InstanceBatch × Bool) : Prop where
  waiting : waiting log = u.2
  copy : u.2 = false → copyOf log = u.1
  answers : ∀ pre answer post, log = pre ++ polled answer :: post →
    answer.isSome = UploadEvent.waiting pre

namespace Tells

theorem nil : Tells [] ([], false) where
  waiting := rfl
  copy _ := rfl
  answers pre answer post h := by simp at h

theorem answers_concat (h : Tells log u) {e : UploadEvent}
    (he : ∀ answer, e = polled answer → answer.isSome = u.2) {pre post : List UploadEvent}
    {answer : Option (List InstanceBatch)} (hlog : log ++ [e] = pre ++ polled answer :: post) :
    answer.isSome = UploadEvent.waiting pre := by
  rcases post.eq_nil_or_concat with rfl | ⟨post, last, rfl⟩
  · obtain ⟨rfl, hlast⟩ := List.append_inj' hlog rfl
    rw [h.waiting]
    exact he answer (List.head_eq_of_cons_eq hlast)
  · have hsplit : log ++ [e] = (pre ++ polled answer :: post) ++ [last] := by simpa using hlog
    exact h.answers pre answer post (List.append_inj' hsplit rfl).1

/-- The log keeps telling how the upload stands. -/
theorem turn (h : Tells log u) {e : Option UploadEvent} (ht : Turn u e u') :
    Tells (log ++ e.toList) u' := by
  cases ht with
  | keep =>
    rw [Option.toList_none, List.append_nil]
    exact h
  | rebuild _ batches =>
    refine ⟨waiting_append log [rebuilt], fun hwaits => ?_, fun pre answer post hlog => ?_⟩
    · cases hwaits
    · refine h.answers_concat (fun answer he => ?_) hlog
      cases he
  | poll batches b =>
    cases b with
    | true =>
      refine ⟨waiting_append log _, fun _ => copyOf_concat log _, fun pre answer post hlog => ?_⟩
      refine h.answers_concat (fun answer he => ?_) hlog
      cases he
      rfl
    | false =>
      have hwaiting := waiting_append log [polled none]
      refine ⟨hwaiting.trans h.waiting, fun _ => ?_, fun pre answer post hlog => ?_⟩
      · exact (copyOf_concat log _).trans (h.copy rfl)
      · refine h.answers_concat (fun answer he => ?_) hlog
        cases he
        rfl

variable (h : Tells log u)
include h

/-- Right after a poll the copy is what the geometry has. -/
theorem copy_of_polled {pre : List UploadEvent} {answer : Option (List InstanceBatch)}
    (hlog : log = pre ++ [polled answer]) : copyOf log = u.1 := by
  apply h.copy
  rw [← h.waiting, hlog, waiting_append]
  have hanswer := h.answers pre answer [] hlog
  cases answer with
  | some batches => rfl
  | none => exact hanswer.symm

/-- Batches that were rebuilt are handed out before a poll comes away with nothing. -/
theorem handed_out_of_polled_none {pre post : List UploadEvent}
    (hlog : log = pre ++ rebuilt :: mid ++ polled none :: post) :
    ∃ batches, polled (some batches) ∈ mid := by
  have hanswer := h.answers _ none post hlog
  rw [waiting_append] at hanswer
  exact exists_handed_out hanswer.symm

/-- As long as nothing is rebuilt batches are handed out once at most, and only if they wait. -/
theorem countP_handsOut {pre post : List UploadEvent} (hlog : log = pre ++ mid ++ post)
    (hmid : rebuilt ∉ mid) : mid.countP handsOut ≤ (UploadEvent.waiting pre).toNat := by
  induction mid generalizing pre with
  | nil => exact Nat.zero_le _
  | cons e mid ih =>
    have hsplit : log = (pre ++ [e]) ++ mid ++ post := by simpa using hlog
    have hrest := ih hsplit fun hmem => hmid (List.mem_cons_of_mem _ hmem)
    rw [waiting_append] at hrest
    cases e with
    | rebuilt => exact absurd (List.mem_cons_self ..) hmid
    | polled answer =>
      have hanswer := h.answers pre answer (mid ++ post) (by simpa using hlog)
      rw [← hanswer] at hrest ⊢
      cases answer with
      | none => exact hrest
      | some batches =>
        have hnone : mid.countP handsOut = 0 := Nat.le_zero.mp hrest
        rw [List.countP_cons, hnone]
        exact Nat.le_refl 1

end Tells

end UploadEvent

open UploadEvent

namespace Geometry

/-- The batches of a geometry, and whether they wait to be uploaded. -/
def upload (g : Geometry) : List InstanceBatch × Bool := (g.batches, g.uploadPending)

instance : Apart upload := ⟨fun _ _ => rfl, fun _ _ _ => rfl, fun _ _ => rfl⟩

theorem upload_assign (d : Datum) (g : Geometry) : (g.assign d).upload = g.upload := by
  cases d <;> rfl

/-- Asking for the batches of a geometry is a poll of its upload. -/
theorem turn_takeUpload (g : Geometry) :
    Turn g.upload (some (.polled g.takeUpload.1)) g.takeUpload.2.upload := by
  cases hp : g.uploadPending with
  | true =>
    have htake : g.takeUpload = (some g.batches, { g with uploadPending := false }) := if_pos hp
    rw [htake, upload, hp]
    exact .poll g.batches true
  | false =>
    have htake : g.takeUpload = (none, g) := if_neg (by simp [hp])
    rw [htake, upload, hp]
    exact .poll g.batches false

theorem pending_takeUpload (g : Geometry) : g.takeUpload.2.uploadPending = false := by
  unfold takeUpload
  cases hp : g.uploadPending with
  | true => rfl
  | false => exact hp

theorem turn_of_pending {g : Geometry} (h : g.uploadPending = true)
    (u : List InstanceBatch × Bool) : Turn u (some .rebuilt) g.upload := by
  rw [upload, h]
  exact .rebuild u g.batches

end Geometry

/-- What a renderer that watches `x` notes of an operation. -/
def Operation.uploadEvent? (s : Scene) (x : ComponentId) : Operation → Option UploadEvent
  | rebuildGeometry id => if id = x then some .rebuilt else none
  | rebuildStaleGeometries =>
    (s.geometryAt x).bind fun g => if g.instancesStale then some .rebuilt else none
  | takeInstanceUpload id =>
    if id = x then
      match Scene.takeInstanceUpload id s with
      | .ok answer _ => some (.polled answer)
      | .error .. => none
    else none
  | takeAll => (s.takeAll.1.lookup x).map fun answer => .polled answer.1
  | _ => none

namespace Scene

variable {s : Scene} {x id : ComponentId} {k k' : Geometry} {op : Operation}

section Operations

theorem geometryAt_rebuildGeometry (hs : Sound s) (id : ComponentId) :
    (s.after (rebuildGeometry id)).geometryAt = (s.rebatch id).geometryAt := by
  unfold after rebuildGeometry
  cases hi : s.indexOf .geometry id with
  | ok i =>
    rw [bind_ok (run_ask_ok hi)]
    rfl
  | error e =>
    rw [bind_error (run_ask_error hi), rebatch, geometryAt_modifyGeometry hs]
    refine (View.modify_of_none ?_).symm
    cases hg : s.geometryAt id with
    | none => rfl
    | some g =>
      obtain ⟨kind, i, hslot, hk, -⟩ := rowAt_eq_some.mp hg
      rw [indexOf_eq_ok.mpr ⟨kind, hslot, hk⟩] at hi
      cases hi

theorem run_takeInstanceUpload (hg : s.geometryAt id = some k) : takeInstanceUpload id s =
    .ok k.takeUpload.1 (s.modifyGeometry id fun g => g.takeUpload.2) :=
  bind_ok (run_ask_ok (geometry_eq_ok.mpr hg))

theorem geometryAt_takeInstanceUpload (hs : Sound s) (id : ComponentId) :
    (s.after (takeInstanceUpload id)).geometryAt =
      s.geometryAt.modify id fun g => g.takeUpload.2 := by
  unfold after
  cases hg : s.geometryAt id with
  | some k =>
    rw [run_takeInstanceUpload hg]
    exact geometryAt_modifyGeometry hs _ id
  | none =>
    obtain ⟨e, he⟩ := find_eq_error hg
    have hrun : takeInstanceUpload id s = .error e s := bind_error (run_ask_error he)
    rw [hrun]
    exact (View.modify_of_none hg).symm

/-- A geometry is batched anew exactly if it is on the list. -/
theorem upload_rebatchAll {l : List ComponentId} (hs : Sound s)
    (hk' : (l.foldl rebatch s).geometryAt x = some k') : ∃ k, s.geometryAt x = some k ∧
      (x ∈ l → k'.uploadPending = true) ∧ (x ∉ l → k'.upload = k.upload) := by
  induction l generalizing s with
  | nil => exact ⟨k', hk', fun hx => absurd hx List.not_mem_nil, fun _ => rfl⟩
  | cons id l ih =>
    obtain ⟨k₁, hk₁, hmem, hnot⟩ := ih ((geometryEdit_rebatch s id).sound hs) hk'
    rw [rebatch, geometryAt_modifyGeometry hs] at hk₁
    obtain ⟨k, hk, rfl⟩ := View.edit_eq_some.mp hk₁
    by_cases hx : x = id
    · rw [if_pos hx] at hnot
      refine ⟨k, hk, fun _ => ?_, fun hout => absurd (hx ▸ List.mem_cons_self ..) hout⟩
      by_cases hl : x ∈ l
      · exact hmem hl
      · exact congrArg Prod.snd (hnot hl)
    · rw [if_neg hx] at hnot
      refine ⟨k, hk, fun hin => hmem ((List.mem_cons.mp hin).resolve_left hx), fun hout => ?_⟩
      exact hnot fun hl => hout (List.mem_cons_of_mem _ hl)

theorem lookup_takeAll (hs : Sound s) (hk : s.geometryAt x = some k) :
    s.takeAll.1.lookup x = some (k.takeUpload.1, k.takeVertexChanges.1) := by
  have key : ∀ l : List Geometry, k ∈ l → (∀ g ∈ l, g.id = x → g = k) →
      (l.map fun g => (g.id, g.takeUpload.1, g.takeVertexChanges.1)).lookup x =
        some (k.takeUpload.1, k.takeVertexChanges.1) := by
    intro l
    induction l with
    | nil => exact fun hmem => absurd hmem List.not_mem_nil
    | cons g l ih =>
      intro hmem hunique
      by_cases hx : g.id = x
      · obtain rfl := hunique g (List.mem_cons_self ..) hx
        rw [List.map_cons, hx, List.lookup_cons_self]
      · have hne : (x == g.id) = false := by simpa using Ne.symm hx
        rw [List.map_cons, List.lookup_cons, hne]
        refine ih ?_ fun g' hg' => hunique g' (List.mem_cons_of_mem _ hg')
        rcases List.mem_cons.mp hmem with rfl | hl
        · exact absurd ((mem_geometries hs).mp hk).2 hx
        · exact hl
  refine key s.geometries.rows ((mem_geometries hs).mp hk).1 fun g hg hid => ?_
  have hg' := (mem_geometries hs).mpr ⟨hg, hid⟩
  exact Option.some.inj (hg'.symm.trans hk)

section Turns

variable (hs : Sound s)
include hs

theorem turn_rebuildGeometry (hk' : (s.after (rebuildGeometry id)).geometryAt x = some k') :
    ∃ k, s.geometryAt x = some k ∧
      Turn k.upload ((Operation.rebuildGeometry id).uploadEvent? s x) k'.upload := by
  have hview : (s.after (rebuildGeometry id)).geometryAt = ([id].foldl rebatch s).geometryAt :=
    geometryAt_rebuildGeometry hs id
  obtain ⟨k, hk, hmem, hnot⟩ := upload_rebatchAll hs (hview ▸ hk')
  refine ⟨k, hk, ?_⟩
  rw [Operation.uploadEvent?]
  split
  · next hx => exact Geometry.turn_of_pending (hmem (List.mem_singleton.mpr hx.symm)) _
  · next hx =>
    rw [hnot fun hin => hx (List.mem_singleton.mp hin).symm]
    exact .keep _

theorem turn_rebuildStaleGeometries (hk' : s.rebuildStaleGeometries.2.geometryAt x = some k') :
    ∃ k, s.geometryAt x = some k ∧
      Turn k.upload (Operation.rebuildStaleGeometries.uploadEvent? s x) k'.upload := by
  obtain ⟨k, hk, hmem, hnot⟩ := upload_rebatchAll hs hk'
  have hlist : x ∈ (s.geometries.rows.filter fun g => g.instancesStale).map Geometry.id ↔
      k.instancesStale = true := by
    obtain ⟨hrow, hid⟩ := (mem_geometries hs).mp hk
    rw [List.mem_map]
    constructor
    · rintro ⟨g, hg, hgid⟩
      obtain ⟨hg, hstale⟩ := List.mem_filter.mp hg
      have hsame := hk.symm.trans ((mem_geometries hs).mpr ⟨hg, hgid⟩)
      exact Option.some.inj hsame ▸ hstale
    · exact fun hstale => ⟨k, List.mem_filter.mpr ⟨hrow, hstale⟩, hid⟩
  refine ⟨k, hk, ?_⟩
  rw [Operation.uploadEvent?, hk, Option.bind_some]
  split
  · next hstale => exact Geometry.turn_of_pending (hmem (hlist.mpr hstale)) _
  · next hstale =>
    rw [hnot fun hin => hstale (hlist.mp hin)]
    exact .keep _

theorem turn_takeInstanceUpload
    (hk' : (s.after (takeInstanceUpload id)).geometryAt x = some k') :
    ∃ k, s.geometryAt x = some k ∧
      Turn k.upload ((Operation.takeInstanceUpload id).uploadEvent? s x) k'.upload := by
  rw [geometryAt_takeInstanceUpload hs] at hk'
  obtain ⟨k, hk, rfl⟩ := View.edit_eq_some.mp hk'
  refine ⟨k, hk, ?_⟩
  rw [Operation.uploadEvent?]
  by_cases hx : x = id
  · subst hx
    rw [if_pos rfl, if_pos rfl, run_takeInstanceUpload hk]
    exact k.turn_takeUpload
  · rw [if_neg hx, if_neg (Ne.symm hx)]
    exact .keep _

theorem turn_takeAll (hk' : s.takeAll.2.geometryAt x = some k') : ∃ k, s.geometryAt x = some k ∧
    Turn k.upload (Operation.takeAll.uploadEvent? s x) k'.upload := by
  rw [geometryAt_takeAll] at hk'
  obtain ⟨k, hk, rfl⟩ := View.edit_eq_some.mp hk'
  refine ⟨k, hk, ?_⟩
  rw [Operation.uploadEvent?, lookup_takeAll hs hk]
  exact k.turn_takeUpload

end Turns

/-- A geometry that is there after any other operation is new, with nothing to upload, or has the
upload that it had. -/
theorem upload_of_quiet [Mat4.Arithmetic] (hv : Valid s) (hc : Covered s) (ha : op.Allowed s)
    (hop : op.uploads = false) (hk' : (op.run s).geometryAt x = some k') :
    (∃ k, s.geometryAt x = some k ∧ k'.upload = k.upload) ∨
      s.geometryAt x = none ∧ k'.upload = ([], false) := by
  have hquiet : op.uploads = true → Geometry.Unbatched Geometry.upload := by
    rw [hop]
    exact nofun
  rcases kept_or_new hv hc ha (fun _ d _ _ => Geometry.upload_assign d) hquiet hk' with
    hkept | ⟨hnone, name, hnew⟩
  · exact .inl hkept
  · exact .inr ⟨hnone, hnew⟩

end Operations

/-- A geometry that is there after an operation is new, with nothing to upload, or its upload has
gone through what the renderer notes. -/
theorem turn_or_new [Mat4.Arithmetic] (hv : Valid s) (hc : Covered s) (ha : op.Allowed s)
    (hk' : (op.run s).geometryAt x = some k') :
    (∃ k, s.geometryAt x = some k ∧ Turn k.upload (op.uploadEvent? s x) k'.upload) ∨
      s.geometryAt x = none ∧ k'.upload = ([], false) := by
  have hquiet : op.uploads = false → op.uploadEvent? s x = none →
      (∃ k, s.geometryAt x = some k ∧ Turn k.upload (op.uploadEvent? s x) k'.upload) ∨
        s.geometryAt x = none ∧ k'.upload = ([], false) := by
    intro hop hevent
    rcases upload_of_quiet hv hc ha hop hk' with ⟨k, hk, hsame⟩ | hnew
    · refine .inl ⟨k, hk, ?_⟩
      rw [hevent, hsame]
      exact .keep _
    · exact .inr hnew
  cases op with
  | rebuildGeometry id => exact .inl (turn_rebuildGeometry hv.sound hk')
  | rebuildStaleGeometries => exact .inl (turn_rebuildStaleGeometries hv.sound hk')
  | takeInstanceUpload id => exact .inl (turn_takeInstanceUpload hv.sound hk')
  | takeAll => exact .inl (turn_takeAll hv.sound hk')
  | _ => exact hquiet rfl rfl

/-- Another operation, with the log of a renderer that watches `x`. -/
def observe [Mat4.Arithmetic] (x : ComponentId) (t : Scene × List UploadEvent) (op : Operation) :
    Scene × List UploadEvent :=
  (op.run t.1, t.1.noted Operation.uploadEvent? x t.2 op)

/-- The log of the renderer tells how the upload of `x` stands. -/
structure Watching [Mat4.Arithmetic] (x : ComponentId) (t : Scene × List UploadEvent) : Prop where
  reachable : Reachable t.1
  tells : ∀ {k}, t.1.geometryAt x = some k → Tells t.2 k.upload

namespace Watching

variable {t : Scene × List UploadEvent} {ops : List Operation}

theorem observe [Mat4.Arithmetic] (h : Watching x t) (ha : op.Allowed t.1) :
    Watching x (Scene.observe x t op) := by
  refine ⟨h.reachable.run op ha, fun {k'} hk' => ?_⟩
  unfold Scene.observe
  rcases turn_or_new h.reachable.valid h.reachable.covered ha hk' with
    ⟨k, hk, hturn⟩ | ⟨hnone, hnew⟩
  · rw [noted_of_live hk]
    exact (h.tells hk).turn hturn
  · rw [noted_of_gone hnone, hnew]
    exact .nil

/-- A whole run, from one operation to the next. -/
theorem foldl [Mat4.Arithmetic] (h : Watching x t) (hops : ∀ op ∈ ops, op.draws = false) :
    Watching x (ops.foldl (Scene.observe x) t) := by
  induction ops generalizing t with
  | nil => exact h
  | cons op ops ih =>
    have hop : Watching x (Scene.observe x t op) :=
      h.observe (Operation.allowed_of_not_draws (hops op (List.mem_cons_self ..)) t.1)
    exact ih hop fun o ho => hops o (List.mem_cons_of_mem _ ho)

end Watching

theorem foldl_observe_fst [Mat4.Arithmetic] (x : ComponentId) (ops : List Operation)
    (t : Scene × List UploadEvent) : (ops.foldl (observe x) t).1 = ops.foldl Operation.run t.1 := by
  induction ops generalizing t with
  | nil => rfl
  | cons op ops ih => exact ih (observe x t op)

end Scene

end SceneGraph
