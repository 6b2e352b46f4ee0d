import SceneGraph.Proofs.Frames
import SceneGraph.Proofs.InstanceBatches

/-!
# Where frames fall

Frames between the pushes rebuild matrices and batches that the last frame would rebuild anyway. A
run is compared with the direct application of its commands, which never rebuilds anything: the
scenes stay alike, whatever was cached in between. A valid scene in which nothing is stale is
determined by what it does not cache, so that the last frame leaves the same scene in every run.
-/

namespace SceneGraph

/-- A node without staleness is determined by what it does not cache and by its matrices. -/
theorem Node.eq_of_uncached {n m : Node} (h : n.uncached = m.uncached)
    (hlocal : n.localMatrix = m.localMatrix) (hworld : n.worldMatrix = m.worldMatrix)
    (hstale : n.stale = m.stale) : n = m := by
  cases n
  cases m
  simp_all [Node.uncached]

/-- The geometry with no batches waiting to be uploaded. -/
def Geometry.uploaded (g : Geometry) : Geometry := { g with uploadPending := false }

theorem Geometry.uploaded_eq_of_uncached {g k : Geometry} (h : g.uncached = k.uncached)
    (hbatches : g.batches = k.batches) (hstale : g.instancesStale = k.instancesStale) :
    g.uploaded = k.uploaded := by
  cases g
  cases k
  simp_all [Geometry.uncached, Geometry.uploaded]

/-- Rows that are the same through `q` are the same through `r` if that shows nothing else. -/
theorem Table.Same.through {α β γ : Type} {q : α → β} {r : α → γ} {t t' : Table α}
    (h : Table.Same q t t') (hr : ∀ a ∈ t.rows, ∀ b ∈ t'.rows, q a = q b → r a = r b) :
    Table.Same r t t' := by
  refine .of_get? fun i => ?_
  have hi := h.get?_eq i
  cases ha : t.get? i with
  | none =>
    rw [ha, Option.map_none, eq_comm, Option.map_eq_none_iff] at hi
    rw [hi]
  | some a =>
    rw [ha, Option.map_some, eq_comm, Option.map_eq_some_iff] at hi
    obtain ⟨b, hb, hba⟩ := hi
    have hab : r a = r b := hr a (List.mem_of_getElem? ha) b (List.mem_of_getElem? hb) hba.symm
    rw [hb, Option.map_some, Option.map_some, hab]

namespace Scene

variable {s s' : Scene} {id x : ComponentId} {n : Node} {base base' : Mat4}

/-- The scene with no batches waiting to be uploaded. -/
def uploaded (s : Scene) : Scene := { s with geometries := s.geometries.map Geometry.uploaded }

theorem Alike.uploaded_eq (h : Alike s s') (hnodes : s.nodes = s'.nodes)
    (hgeometries : Table.Same Geometry.uploaded s.geometries s'.geometries) :
    s.uploaded = s'.uploaded := by
  have hrows : s.geometries.map Geometry.uploaded = s'.geometries.map Geometry.uploaded :=
    congrArg Table.mk hgeometries
  unfold uploaded
  rw [hrows, hnodes, h.ids, h.slots, h.materials, h.shaders, h.textures]

theorem Alike.exists_node (h : Alike s s') (hn : s.node x = .ok n) :
    ∃ m, s'.node x = .ok m ∧ n.uncached = m.uncached := by
  rcases (h.node x).cases with ⟨e, he, -, -⟩ | ⟨n', m, hn', hm, hnm⟩
  · rw [hn] at he
    cases he
  · rw [hn] at hn'
    cases hn'
    exact ⟨m, hm, hnm⟩

/-- What is recomputed from the roots down depends on nothing that is cached. -/
theorem Alike.eager_unique [Mat4.Arithmetic] (h : Alike s s') (he : s.Eager x base)
    (he' : s'.Eager x base') : base = base' := by
  induction he generalizing base' with
  | @root id n hn hp =>
    obtain ⟨m, hm, hnm⟩ := h.exists_node hn
    have hlocal : n.computeLocal = m.computeLocal := (congrArg Node.computeLocal hnm :)
    have hparent : n.parent = m.parent := (congrArg Node.parent hnm :)
    cases he' with
    | root hn' hp' =>
      obtain rfl := Except.ok.inj (hm.symm.trans hn')
      exact congrArg (Mat4.identity * ·) hlocal
    | child hn' hp' above =>
      obtain rfl := Except.ok.inj (hm.symm.trans hn')
      exact absurd (hparent.symm.trans hp) hp'
  | @child id n base hn hp above ih =>
    obtain ⟨m, hm, hnm⟩ := h.exists_node hn
    have hlocal : n.computeLocal = m.computeLocal := (congrArg Node.computeLocal hnm :)
    have hparent : n.parent = m.parent := (congrArg Node.parent hnm :)
    cases he' with
    | root hn' hp' =>
      obtain rfl := Except.ok.inj (hm.symm.trans hn')
      exact absurd (hparent.trans hp') hp
    | child hn' hp' above' =>
      obtain rfl := Except.ok.inj (hm.symm.trans hn')
      rw [ih (hparent ▸ above')]
      exact congrArg (_ * ·) hlocal

/-- The scene with nothing stale. -/
def rebuilt [Mat4.Arithmetic] (s : Scene) : Scene := s.rebuildAllMatrices.1.rebuildStaleGeometries.2

section Rebuilt

variable [Mat4.Arithmetic]

theorem nodes_rebuilt (s : Scene) : s.rebuilt.nodes = s.rebuildAllMatrices.1.nodes := by
  have hedit : GeometryEdit s.rebuildAllMatrices.1 s.rebuilt := geometryEdit_rebatchAll _ _
  rw [hedit.rest]

theorem Alike.rebuilt (h : Alike s s') : Alike s.rebuilt s'.rebuilt := by
  have hfirst : Alike s s.rebuilt := (Alike.refl s).rebuildAllMatrices.rebuildStaleGeometries
  have hsecond : Alike s s'.rebuilt := h.rebuildAllMatrices.rebuildStaleGeometries
  exact hfirst.symm.trans hsecond

theorem Valid.rebuilt (hv : Valid s) : Valid s.rebuilt :=
  (steps_rebuildStaleGeometries _).valid hv.rebuildAllMatrices

/-- Every node of a rebuilt scene has the matrices of eager recomputation. -/
theorem Valid.node_rebuilt (hv : Valid s) (hn : n ∈ s.rebuilt.nodes.rows) :
    n.stale = .none ∧ n.localMatrix = n.computeLocal ∧ s.Eager n.id n.worldMatrix := by
  rw [nodes_rebuilt] at hn
  have hnode := (mem_nodes hv.rebuildAllMatrices.sound).mpr ⟨hn, rfl⟩
  have hstale := hv.stale_rebuilt hnode
  refine ⟨hstale, hv.rebuildAllMatrices.local_eq hnode ?_, hv.eager_rebuilt hnode⟩
  rw [hstale]
  decide

/-- Every geometry of a rebuilt scene has the batches of its meshes as they are. -/
theorem Valid.geometry_rebuilt (hv : Valid s) {g : Geometry} (hg : g ∈ s.rebuilt.geometries.rows) :
    g.instancesStale = false ∧ g.batches = s.rebuilt.batchesOf g.bindings := by
  have hgeometry := (mem_geometries hv.rebuilt.sound).mpr ⟨hg, rfl⟩
  have hstale : g.instancesStale = false :=
    fresh_rebuildStaleGeometries hv.rebuildAllMatrices.sound hgeometry
  refine ⟨hstale, ?_⟩
  rw [Valid.batchesOf_eq]
  exact hv.rebuilt.batched.cached hgeometry hstale

omit [Mat4.Arithmetic] in
theorem Alike.batchesOf_eq (h : Alike s s') (hnodes : s.nodes = s'.nodes)
    (meshes : List ComponentId) : s.batchesOf meshes = s'.batchesOf meshes := by
  have hnode : s.node = s'.node := by
    funext id
    simp only [Scene.node, Scene.find, h.indexOf_eq, hnodes]
  simp only [batchesOf, hnode]

/-- Rebuilding makes the same of valid scenes that are alike. -/
theorem Alike.rebuilt_eq (h : Alike s s') (hv : Valid s) (hv' : Valid s') :
    s.rebuilt.uploaded = s'.rebuilt.uploaded := by
  have halike := h.rebuilt
  have hrows : Table.Same (fun n => n) s.rebuilt.nodes s'.rebuilt.nodes := by
    refine halike.nodes.through fun n hn m hm hnm => ?_
    obtain ⟨hstale, hlocal, heager⟩ := hv.node_rebuilt hn
    obtain ⟨hstale', hlocal', heager'⟩ := hv'.node_rebuilt hm
    have hid : n.id = m.id := (congrArg Node.id hnm :)
    have hcompute : n.computeLocal = m.computeLocal := (congrArg Node.computeLocal hnm :)
    refine Node.eq_of_uncached hnm ?_ ?_ (hstale.trans hstale'.symm)
    · rw [hlocal, hlocal', hcompute]
    · exact h.eager_unique heager (hid ▸ heager')
  have hnodes : s.rebuilt.nodes = s'.rebuilt.nodes := by
    have hlists : s.rebuilt.nodes.rows = s'.rebuilt.nodes.rows := by simpa [Table.Same] using hrows
    exact congrArg Table.mk hlists
  refine halike.uploaded_eq hnodes (halike.geometries.through fun g hg k hk hgk => ?_)
  obtain ⟨hstale, hbatches⟩ := hv.geometry_rebuilt hg
  obtain ⟨hstale', hbatches'⟩ := hv'.geometry_rebuilt hk
  have hbindings : g.bindings = k.bindings := (congrArg Geometry.bindings hgk :)
  refine Geometry.uploaded_eq_of_uncached hgk ?_ (hstale.trans hstale'.symm)
  rw [hbatches, hbatches', hbindings, halike.batchesOf_eq hnodes]

end Rebuilt

end Scene

namespace Stage

variable {t t' : Stage} {c : Command} {cs : List Command}

/-- The scenes of the stages differ in their caches at most, and the same readbacks wait. -/
structure Alike (t t' : Stage) : Prop where
  scene : t.scene.Alike t'.scene
  readbacks : t.readbacks = t'.readbacks

/-- What becomes of one command after the other. -/
def outcomes : Stage → List Command → List (Except SceneError Bool)
  | _, [] => []
  | t, c :: cs => t.outcome c :: (t.after c).outcomes cs

theorem outcomes_append (t : Stage) (cs ds : List Command) :
    t.outcomes (cs ++ ds) = t.outcomes cs ++ (cs.foldl after t).outcomes ds := by
  induction cs generalizing t with
  | nil => rfl
  | cons c cs ih => rw [List.cons_append, outcomes, outcomes, ih, List.foldl_cons, List.cons_append]

theorem length_outcomes (t : Stage) (cs : List Command) : (t.outcomes cs).length = cs.length := by
  induction cs generalizing t with
  | nil => rfl
  | cons c cs ih => rw [outcomes, List.length_cons, List.length_cons, ih]

/-- A command does the same on stages that are alike. -/
theorem Alike.step (h : Alike t t') (c : Command) :
    t.outcome c = t'.outcome c ∧ Alike (t.after c) (t'.after c) := by
  have hblind := Scene.blind_command c h.scene
  rw [outcome_eq, outcome_eq, after, after, Scene.run_apply, Scene.run_apply]
  cases he : c.edit t.scene with
  | ok u s =>
    cases he' : c.edit t'.scene with
    | error e s' =>
      rw [he, he'] at hblind
      cases hblind
    | ok u' s' =>
      rw [he, he'] at hblind
      cases hblind with
      | ok _ hs =>
        dsimp only
        rw [hs.reply?_eq]
        cases c.reply? s' with
        | none => exact ⟨rfl, hs, h.readbacks⟩
        | some r => exact ⟨rfl, hs, by rw [h.readbacks]⟩
  | error e s =>
    cases he' : c.edit t'.scene with
    | ok u' s' =>
      rw [he, he'] at hblind
      cases hblind
    | error e' s' =>
      rw [he, he'] at hblind
      cases hblind with
      | error _ hs => exact ⟨rfl, hs, h.readbacks⟩

theorem Alike.refl (t : Stage) : Alike t t := ⟨.refl _, rfl⟩

theorem Alike.run (h : Alike t t') (cs : List Command) :
    t.outcomes cs = t'.outcomes cs ∧ Alike (cs.foldl after t) (cs.foldl after t') := by
  induction cs generalizing t t' with
  | nil => exact ⟨rfl, h⟩
  | cons c cs ih =>
    obtain ⟨houtcome, hafter⟩ := h.step c
    obtain ⟨houtcomes, hrest⟩ := ih hafter
    exact ⟨by rw [outcomes, outcomes, houtcome, houtcomes], hrest⟩

theorem Alike.symm (h : Alike t t') : Alike t' t := ⟨h.scene.symm, h.readbacks.symm⟩

theorem Alike.trans {t'' : Stage} (h : Alike t t') (h' : Alike t' t'') : Alike t t'' :=
  ⟨h.scene.trans h'.scene, h.readbacks.trans h'.readbacks⟩

/-- Commands that were pushed as such are found again. -/
theorem filterMap_commands (hfit : ∀ c ∈ cs, c.TextsFit) :
    (cs.map Pushed.command).filterMap Pushed.command? = cs := by
  rw [List.filterMap_map]
  refine (List.filterMap_congr fun c hc => ?_).trans List.filterMap_some
  exact Pushed.command?_command (hfit c hc)

theorem verdicts_commands (hfit : ∀ c ∈ cs, c.TextsFit) (t : Stage) :
    t.verdicts (cs.map Pushed.command) = t.outcomes cs := by
  induction cs generalizing t with
  | nil => rfl
  | cons c cs ih =>
    have hc := Pushed.command?_command (hfit c (List.mem_cons_self ..))
    obtain ⟨hverdict, hnext⟩ := verdict_of_command (t := t) hc
    rw [List.map_cons, verdicts, outcomes, hverdict, hnext,
      ih fun d hd => hfit d (List.mem_cons_of_mem c hd)]

end Stage

namespace Session

variable {config : SessionConfig} {s s' : Session} {cs : List Command}
  {os os' : List (Except SceneError Bool)}

/-- A run of a new session, with the commands that were pushed and with what became of those that a
frame has taken. Frames fall anywhere between the pushes, which never outgrow a word. -/
inductive Run [Mat4.Arithmetic] (config : SessionConfig) :
    List Command → List (Except SceneError Bool) → Session → Prop
  | new : Run config [] [] (new config)
  | push {cs : List Command} {os : List (Except SceneError Bool)} {s : Session}
      (h : Run config cs os s) (c : Command) (hfits : (s.push c).pending < UInt64.size) :
      Run config (cs ++ [c]) os (s.push c)
  | frame {cs : List Command} {os : List (Except SceneError Bool)} {s : Session}
      (h : Run config cs os s) : Run config cs (os ++ s.verdicts) s.frame.2

/-- A session in the middle of a run: the commands of its frames have done what they do directly,
and the others wait. -/
structure Abreast [Mat4.Arithmetic] (config : SessionConfig) (taken waiting : List Command)
    (os : List (Except SceneError Bool)) (s : Session) : Prop where
  ready : Ready s (waiting.map .command)
  stage : s.stage.Alike (taken.foldl Stage.after (new config).stage)
  outcomes : os = (new config).stage.outcomes taken

/-- What the next frame starts its rebuilds from. -/
theorem Abreast.next [Mat4.Arithmetic] {taken waiting : List Command}
    (h : Abreast config taken waiting os s) (hfit : ∀ c ∈ waiting, c.TextsFit) :
    (waiting.foldl Stage.after s.stage).Alike
        ((taken ++ waiting).foldl Stage.after (new config).stage) ∧
      os ++ s.verdicts = (new config).stage.outcomes (taken ++ waiting) ∧
      s.frame.2.scene = (waiting.foldl Stage.after s.stage).scene.rebuilt ∧
      s.frame.2.readbacks = (waiting.foldl Stage.after s.stage).readbacks := by
  obtain ⟨houtcomes, hstage⟩ := h.stage.run waiting
  have hcommands := Stage.filterMap_commands hfit
  refine ⟨?_, ?_, ?_, ?_⟩
  · rw [List.foldl_append]
    exact hstage
  · rw [h.ready.verdicts_eq, Stage.verdicts_commands hfit, houtcomes, Stage.outcomes_append,
      h.outcomes]
  · rw [h.ready.framed.scene, hcommands]
    rfl
  · rw [h.ready.framed.readbacks, hcommands]

theorem Run.abreast [Mat4.Arithmetic] (h : Run config cs os s) (hfit : ∀ c ∈ cs, c.TextsFit) :
    ∃ taken waiting, cs = taken ++ waiting ∧ Abreast config taken waiting os s := by
  induction h with
  | new => exact ⟨[], [], rfl, History.new.ready, .refl _, rfl⟩
  | @push cs os s h c hfits ih =>
    obtain ⟨taken, waiting, rfl, habreast⟩ := ih fun d hd => hfit d (List.mem_append_left _ hd)
    refine ⟨taken, waiting ++ [c], (List.append_assoc ..), ?_, habreast.stage, habreast.outcomes⟩
    rw [List.map_append]
    exact habreast.ready.pushed (p := .command c) rfl hfits
  | @frame cs os s h ih =>
    obtain ⟨taken, waiting, rfl, habreast⟩ := ih hfit
    obtain ⟨hstage, houtcomes, hscene, hreadbacks⟩ :=
      habreast.next fun c hc => hfit c (List.mem_append_right _ hc)
    refine ⟨taken ++ waiting, [], (List.append_nil _).symm, habreast.ready.frame, ?_, houtcomes⟩
    refine Stage.Alike.trans ⟨?_, hreadbacks⟩ hstage
    change s.frame.2.scene.Alike _
    rw [hscene]
    exact (Scene.Alike.refl _).rebuildAllMatrices.rebuildStaleGeometries.symm

/-- Where frames fall between the pushes makes no difference: after a last frame the scenes are the
same but for the uploads that wait, the same commands were accepted and the same ones refused, and
the same readbacks wait. -/
theorem Run.frame_placement [Mat4.Arithmetic] (h : Run config cs os s) (h' : Run config cs os' s')
    (hfit : ∀ c ∈ cs, c.TextsFit) :
    s.frame.2.scene.uploaded = s'.frame.2.scene.uploaded ∧
    (os ++ s.verdicts).length = cs.length ∧ os ++ s.verdicts = os' ++ s'.verdicts ∧
    s.frame.2.readbacks = s'.frame.2.readbacks := by
  obtain ⟨taken, waiting, hcs, habreast⟩ := h.abreast hfit
  obtain ⟨taken', waiting', hcs', habreast'⟩ := h'.abreast hfit
  obtain ⟨hstage, houtcomes, hscene, hreadbacks⟩ :=
    habreast.next fun c hc => hfit c (hcs ▸ List.mem_append_right _ hc)
  obtain ⟨hstage', houtcomes', hscene', hreadbacks'⟩ :=
    habreast'.next fun c hc => hfit c (hcs' ▸ List.mem_append_right _ hc)
  rw [← hcs] at hstage houtcomes
  rw [← hcs'] at hstage' houtcomes'
  have halike := hstage.trans hstage'.symm
  have hv := Stage.valid_foldl_after (t := s.stage) habreast.ready.valid waiting
  have hv' := Stage.valid_foldl_after (t := s'.stage) habreast'.ready.valid waiting'
  refine ⟨?_, ?_, houtcomes.trans houtcomes'.symm, ?_⟩
  · rw [hscene, hscene']
    exact halike.scene.rebuilt_eq hv hv'
  · rw [houtcomes, Stage.length_outcomes]
  · rw [hreadbacks, hreadbacks', halike.readbacks]

/-- A mesh that is moved after a frame, and one that is moved before the first. The last command,
which would make the mesh its own child, is refused in both. -/
theorem frame_placement_split : ∃ cs s s',
    Run {} cs [.ok false, .ok false] s ∧ Run {} cs [] s' ∧ (∀ c ∈ cs, c.TextsFit) ∧
    s.frame.2.scene.uploaded = s'.frame.2.scene.uploaded ∧
    s'.verdicts = [.ok false, .ok false] ++ s.verdicts := by
  have h : Run {} _ _ _ := ((((Run.new.push (.createGeometry ⟨5⟩ "cube") (by decide)).push
    (.createMesh ⟨6⟩ ⟨5⟩ .null "wheel") (by decide)).frame).push (.setPosition ⟨6⟩ .one)
    (by decide)).push (.addChild ⟨6⟩ ⟨6⟩) (by decide)
  have h' : Run {} _ _ _ := (((Run.new.push (.createGeometry ⟨5⟩ "cube") (by decide)).push
    (.createMesh ⟨6⟩ ⟨5⟩ .null "wheel") (by decide)).push (.setPosition ⟨6⟩ .one)
    (by decide)).push (.addChild ⟨6⟩ ⟨6⟩) (by decide)
  have hfit : ∀ c ∈ [Command.createGeometry ⟨5⟩ "cube", .createMesh ⟨6⟩ ⟨5⟩ .null "wheel",
      .setPosition ⟨6⟩ .one, .addChild ⟨6⟩ ⟨6⟩], c.TextsFit := by
    simp [Command.TextsFit]
  obtain ⟨hscene, -, hsame, -⟩ := Run.frame_placement h h' hfit
  exact ⟨_, _, _, h, h', hfit, hscene, hsame.symm⟩

end Session

end SceneGraph
