import SceneGraph.Proofs.FramePlacement
import SceneGraph.Proofs.Uploads

/-!
# Renderers are never left behind

Whatever is asked of a session, in whatever order, comes down to operations on its scene, so that
the log of a renderer is kept through frames as through everything else. A frame leaves nothing
stale. What is handed out after it is therefore the grouping of the meshes that are bound, with the
world matrices that they have.
-/

namespace SceneGraph

open UploadEvent

theorem Scene.foldl_apply [Mat4.Arithmetic] (cs : List Command) (s : Scene) :
    (cs.map (Operation.apply · default)).foldl Operation.run s =
      cs.foldl (fun s c => s.after c.edit) s := by
  rw [List.foldl_map]
  exact List.foldl_ext _ _ _ fun s c _ => s.afterCommand_eq c default

/-- In a scene in which nothing was stale a poll leaves a geometry with its meshes as they are. -/
theorem Scene.Valid.polled_rebuilt [Mat4.Arithmetic] {s : Scene} {x : ComponentId} {k : Geometry}
    (hv : s.Valid) (hk : (s.rebuilt.after (takeInstanceUpload x)).geometryAt x = some k) :
    k.uploadPending = false ∧
      k.batches = (s.rebuilt.after (takeInstanceUpload x)).batchesOf k.bindings ∧
      (s.rebuilt.after (takeInstanceUpload x)).Grouped k ∧
      ∀ id ∈ k.bindings, (s.rebuilt.after (takeInstanceUpload x)).Eager id
        ((s.rebuilt.after (takeInstanceUpload x)).worldOf id) := by
  have hview := geometryAt_takeInstanceUpload hv.rebuilt.sound x
  obtain ⟨g, hg, hpolled⟩ := View.edit_eq_some.mp (hview ▸ hk)
  rw [if_pos rfl] at hpolled
  have hsteps : Steps [] s.rebuilt [] (s.rebuilt.after (takeInstanceUpload x)) :=
    (takeInstanceUpload_outcome x).silent
  have hv' := hsteps.valid hv.rebuilt
  have hnodes : (s.rebuilt.after (takeInstanceUpload x)).nodeAt =
      s.rebuildAllMatrices.1.nodeAt := by
    rw [Retaining.after_eq (run_takeInstanceUpload hg)]
    exact (geometryEdit_rebatchAll _ _).nodeAt
  generalize s.rebuilt.after (takeInstanceUpload x) = t at hk hv' hnodes ⊢
  have hstale : k.instancesStale = false := by
    rw [← hpolled, (inert_takeUpload g).2.2.2]
    exact fresh_rebuildStaleGeometries hv.rebuildAllMatrices.sound hg
  have hid : k.id = x := ((mem_geometries hv'.sound).mp hk).2
  have hk' : t.geometryAt k.id = some k := hid ▸ hk
  refine ⟨?_, ?_, hv'.grouped hk' hstale, fun id hmem => ?_⟩
  · rw [← hpolled]
    exact g.pending_takeUpload
  · rw [Valid.batchesOf_eq]
    exact hv'.batched.cached hk hstale
  · obtain ⟨n, -, hn, -⟩ := (hv'.mem_bindings hk').mp hmem
    rw [worldOf_eq hn]
    exact hv'.eager_of_fresh (fun hm => hv.stale_rebuilt (hnodes ▸ hm)) hn

namespace Session

/-- What may be asked of a session, by either side. -/
inductive Call where
  | push (c : Command)
  | pushRaw (tag : UInt32) (payload : Bytes)
  | create (command : ComponentId → Command)
  | poll
  /-- A command that the graphics side carries out at once. -/
  | apply (c : Command)
  /-- An operation of the graphics side on its scene. -/
  | operate (op : Operation)
  | frame

variable {config : SessionConfig} {s : Session} {c : Call} {x : ComponentId}
  {log : List UploadEvent}

def call [Mat4.Arithmetic] (s : Session) : Call → Session
  | .push c => s.push c
  | .pushRaw tag payload => (s.pushRaw tag payload).2
  | .create command => (s.create command).2
  | .poll => s.poll.2
  | .apply c =>
    { s with scene := (s.stage.after c).scene, readbacks := (s.stage.after c).readbacks }
  | .operate op => { s with scene := op.run s.scene }
  | .frame => s.frame.2

/-- The commands that a frame finds among the records that it takes. -/
def taken (s : Session) : List Command :=
  (s.takeCommands.2.commands.records.map Record.pushed).filterMap Pushed.command?

namespace Call

/-- The operations on the scene that a call comes down to. -/
def operations (s : Session) : Call → List Operation
  | push _ | pushRaw .. | poll => []
  | create _ => [.allocate]
  | apply c => [.apply c s.readbacks]
  | operate op => [op]
  | frame => s.taken.map (Operation.apply · default) ++
      [.rebuildAllMatrices, .rebuildStaleGeometries]

/-- An identifier is only drawn while the counter has not come to its last. -/
def Allowed (s : Session) : Call → Prop
  | create _ => s.scene.ids.next.toNat < UInt64.size - 1
  | operate op => op.Allowed s.scene
  | _ => True

end Call

theorem scene_frame [Mat4.Arithmetic] (s : Session) : s.frame.2.scene =
    (s.taken.foldl (fun s c => s.after c.edit) s.scene).rebuilt := by
  change (Stage.drain s.takeCommands.2.stage s.takeCommands.2.commands).1.scene.rebuilt = _
  rw [drain_taken, Stage.foldl_tally_fst, Stage.foldl_next, scene_foldl_after]
  rfl

theorem scene_operate [Mat4.Arithmetic] (s : Session) (op : Operation) :
    (s.call (.operate op)).scene = op.run s.scene := rfl

/-- A poll that follows a frame. -/
theorem scene_polled [Mat4.Arithmetic] (s : Session) (x : ComponentId) :
    ((s.call .frame).call (.operate (.takeInstanceUpload x))).scene =
      (s.taken.foldl (fun s c => s.after c.edit) s.scene).rebuilt.after
        (Scene.takeInstanceUpload x) := by
  have hframe : (s.call .frame).scene = _ := s.scene_frame
  rw [scene_operate, hframe, Operation.run]

theorem scene_call [Mat4.Arithmetic] (s : Session) (c : Call) :
    (s.call c).scene = (c.operations s).foldl Operation.run s.scene := by
  cases c with
  | push | pushRaw | create | poll | operate => rfl
  | apply c =>
    have hafter := s.stage.scene_after c
    exact hafter.trans (s.scene.afterCommand_eq c s.readbacks).symm
  | frame =>
    rw [Call.operations, List.foldl_append, Scene.foldl_apply]
    exact s.scene_frame

/-- The log of a renderer that watches `x` after another call. -/
def watch [Mat4.Arithmetic] (x : ComponentId) (s : Session) (log : List UploadEvent) (c : Call) :
    List UploadEvent :=
  ((c.operations s).foldl (Scene.observe x) (s.scene, log)).2

/-- A session after any calls on a new one, with the log of a renderer that watches `x`. -/
inductive Watched [Mat4.Arithmetic] (config : SessionConfig) (x : ComponentId) :
    Session → List UploadEvent → Prop
  | new : Watched config x (new config) []
  | call {s : Session} {log : List UploadEvent} (h : Watched config x s log) (c : Call)
      (ha : c.Allowed s) : Watched config x (s.call c) (s.watch x log c)

theorem draws_operations_frame (s : Session) :
    ∀ op ∈ Call.frame.operations s, op.draws = false := by
  intro op hop
  rcases List.mem_append.mp hop with hop | hop
  · obtain ⟨c, -, rfl⟩ := List.mem_map.mp hop
    rfl
  · rcases List.mem_cons.mp hop with rfl | hop
    · rfl
    · obtain rfl := List.mem_singleton.mp hop
      rfl

namespace Watched

theorem watching [Mat4.Arithmetic] (h : Watched config x s log) :
    Scene.Watching x (s.scene, log) := by
  induction h with
  | new => exact ⟨.empty, fun hk => by cases hk⟩
  | @call s log h c ha ih =>
    have hrun : Scene.Watching x ((c.operations s).foldl (Scene.observe x) (s.scene, log)) := by
      cases c with
      | push | pushRaw | poll => exact ih
      | create command => exact ih.observe fun _ => ha
      | apply c => exact ih.observe nofun
      | operate op => exact ih.observe ha
      | frame => exact ih.foldl s.draws_operations_frame
    have hscene : (s.call c).scene = _ :=
      (s.scene_call c).trans (Scene.foldl_observe_fst x _ (s.scene, log)).symm
    rw [watch, hscene]
    exact hrun

/-- The scene from which a frame starts its rebuilds. -/
theorem valid_taken [Mat4.Arithmetic] (h : Watched config x s log) :
    (s.taken.foldl (fun s c => s.after c.edit) s.scene).Valid := by
  rw [← Scene.foldl_apply]
  refine (h.watching.reachable.runs fun op hop => ?_).valid
  obtain ⟨c, -, rfl⟩ := List.mem_map.mp hop
  rfl

/-- Right after a poll a renderer has the batches that the geometry has. A poll comes away with
nothing only if there was no rebuild since the last one that did not, and one rebuild is handed out
once. Polling after a frame brings the renderer the meshes that are bound, grouped by material, with
their world matrices as recomputed from the roots down. -/
theorem never_left_behind [Mat4.Arithmetic] (h : Watched config x s log) :
    (∀ k, s.scene.geometry x = .ok k →
      (∀ pre answer, log = pre ++ [.polled answer] → copyOf log = k.batches) ∧
      (∀ pre mid post, log = pre ++ .rebuilt :: mid ++ .polled none :: post →
        ∃ batches, .polled (some batches) ∈ mid) ∧
      ∀ pre mid post, log = pre ++ mid ++ post → .rebuilt ∉ mid →
        mid.countP handsOut ≤ 1 ∧ (pre = [] → mid.countP handsOut = 0)) ∧
    ∀ s' log', s' = (s.call .frame).call (.operate (.takeInstanceUpload x)) →
      log' = (s.call .frame).watch x (s.watch x log .frame) (.operate (.takeInstanceUpload x)) →
      Watched config x s' log' ∧ ∀ k, s'.scene.geometry x = .ok k →
        copyOf log' = k.batches ∧ k.batches = s'.scene.batchesOf k.bindings ∧
        s'.scene.Grouped k ∧ ∀ id ∈ k.bindings, s'.scene.Eager id (s'.scene.worldOf id) := by
  refine ⟨fun k hk => ?_, ?_⟩
  · have htells := h.watching.tells (Scene.geometry_eq_ok.mp hk)
    refine ⟨fun pre answer hlog => htells.copy_of_polled hlog,
      fun pre mid post hlog => htells.handed_out_of_polled_none hlog,
      fun pre mid post hlog hmid => ?_⟩
    have hcount := htells.countP_handsOut hlog hmid
    refine ⟨hcount.trans (Bool.toNat_le _), fun hpre => ?_⟩
    rw [hpre] at hcount
    exact Nat.le_zero.mp hcount
  · intro s' log' hs' hlog'
    have hwatched : Watched config x s' log' := by
      rw [hs', hlog']
      exact (h.call .frame trivial).call _ nofun
    refine ⟨hwatched, fun k hk => ?_⟩
    have hgeometry := Scene.geometry_eq_ok.mp hk
    have htells := hwatched.watching.tells hgeometry
    have hscene := s.scene_polled x
    rw [← hs'] at hscene
    rw [hscene] at hgeometry ⊢
    obtain ⟨hpending, hpolled⟩ := h.valid_taken.polled_rebuilt hgeometry
    exact ⟨htells.copy hpending, hpolled⟩

/-- A mesh that was handed out, asked for once more in vain, and is about to be moved. -/
def moving [Mat4.Arithmetic] : Session × List UploadEvent :=
  [.push (.createGeometry ⟨5⟩ "cube"), .push (.createMesh ⟨6⟩ ⟨5⟩ .null "wheel"), .frame,
    .operate (.takeInstanceUpload ⟨5⟩), .operate .takeAll, .push (.setPosition ⟨6⟩ .one)].foldl
      (fun t c => (t.1.call c, t.1.watch ⟨5⟩ t.2 c)) (Session.new {}, [])

theorem never_left_behind_moving : Watched {} ⟨5⟩ moving.1 moving.2 ∧
    moving.2.map handsOut = [false, true, false] ∧ ∃ s log k, Watched {} ⟨5⟩ s log ∧
      log.map handsOut = [false, true, false, false, true] ∧
      s.scene.geometry ⟨5⟩ = .ok k ∧ copyOf log = k.batches ∧ s.scene.Grouped k := by
  have h : Watched {} ⟨5⟩ moving.1 moving.2 := by
    have hpushed : Watched {} ⟨5⟩ _ _ := (Watched.new.call (.push (.createGeometry ⟨5⟩ "cube"))
      trivial).call (.push (.createMesh ⟨6⟩ ⟨5⟩ .null "wheel")) trivial
    have hpolled := (hpushed.call .frame trivial).call (.operate (.takeInstanceUpload ⟨5⟩))
      nofun
    exact (hpolled.call (.operate .takeAll) nofun).call
      (.push (.setPosition ⟨6⟩ .one)) trivial
  obtain ⟨hwatched, hpolled⟩ := h.never_left_behind.2 _ _ rfl rfl
  have hlive : ((moving.1.call .frame).call (.operate (.takeInstanceUpload ⟨5⟩))).scene.geometryAt
      ⟨5⟩ ≠ none := by decide +kernel
  obtain ⟨k, hk⟩ := Option.ne_none_iff_exists'.mp hlive
  obtain ⟨hcopy, -, hgrouped, -⟩ := hpolled k (Scene.geometry_eq_ok.mpr hk)
  exact ⟨h, by decide +kernel, _, _, k, hwatched, by decide +kernel, Scene.geometry_eq_ok.mpr hk,
    hcopy, hgrouped⟩

end Watched

end Session

end SceneGraph
