import SceneGraph.Proofs.Assignments
import SceneGraph.Proofs.FramePlacement

/-!
# Independent writes

Some commands write one field of one component and do nothing else. Whether such a write is refused
depends on what there is in the scene, not on what the fields hold, so no other write changes it.
What it does if it is accepted is an assignment, and assignments to different fields can be made in
either order. A batch of writes to different fields has therefore one result, whatever its order.
-/

namespace SceneGraph

namespace Command

/-- The component and the field that a command writes, with the value, if it is one of those that
write a field. -/
def write? : Command → Option (ComponentId × Datum)
  | setName id name => some (id, .name (Name.clamp name))
  | setPosition id position => some (id, .position position)
  | setRotation id rotation => some (id, .rotation rotation)
  | setScale id scale => some (id, .scale scale)
  | setVertexAttribute id location components data =>
    some (id, .stream location.toNat components data)
  | setIndices id indices => some (id, .indices indices)
  | setVertexCount id count => some (id, .vertexOverride count)
  | setIndicesCount id count => some (id, .indexOverride count)
  | setMaterialUniform id slot value => some (id, .uniform slot.toNat value)
  | textureWrite id pixels => some (id, .pixels pixels)
  | _ => none

/-- The component and the field that a command writes. -/
def target? (c : Command) : Option (ComponentId × Field) :=
  c.write?.map fun (id, d) => (id, d.field)

/-- Why a write is refused, if it is. -/
def check (s : Scene) : Command → Except SceneError Unit
  | setName id _ => do
    let _ ← s.component id
    return
  | setPosition id _ | setRotation id _ | setScale id _ => do
    let _ ← s.node id
    return
  | setVertexAttribute id location components data => do
    let _ ← s.geometry id
    if components = 0 ∨ data.length % components.toNat ≠ 0 ∨ streamLimit ≤ location.toNat then
      throw (.invalidStream id location components data.length)
  | setIndices id _ | setVertexCount id _ | setIndicesCount id _ => do
    let _ ← s.geometry id
    return
  | setMaterialUniform id slot _ => do
    let _ ← s.material id
    if uniformLimit ≤ slot.toNat then throw (.invalidUniform id slot)
  | textureWrite id pixels => do
    let t ← s.texture id
    let expected := Texture.byteLength t.width t.height
    if pixels.length ≠ expected then throw (.textureSize id expected pixels.length)
  | _ => return

end Command

namespace Scene

variable {α : Type} {s s' : Scene} {id x : ComponentId} {d : Datum} {c : Command}

/-! ## What a write is checked against -/

/-- The node rows change in one way or another, and the others are assigned to. -/
theorem written_eq (s : Scene) (id : ComponentId) (d : Datum) :
    ∃ f, s.written id d = { s.assign id d with nodes := s.nodes.map f } := by
  unfold written
  cases d.places with
  | false => exact ⟨assignAt id d, rfl⟩
  | true =>
    refine ⟨fun n => (assignAt id d n).marked (s.assign id d).HasParent id .local, ?_⟩
    rw [if_pos rfl, flagAll_eq, assign, Table.assign]
    simp only [Table.map_map]

/-- A look-up finds the row as it has become. -/
theorem find_map {role : Role} {f : α → α} (hslots : s'.slots = s.slots) (t : Table α)
    (id : ComponentId) : s'.find role (t.map f) id = (s.find role t id).map f := by
  have hindex : s'.indexOf role id = s.indexOf role id := by
    rw [indexOf, slot?, hslots]
    rfl
  rw [find, find, hindex]
  cases s.indexOf role id with
  | error e => rfl
  | ok i =>
    simp only [Table.get?_map]
    cases t.get? i <;> rfl

theorem check_component_written (s : Scene) (id : ComponentId) (d : Datum) (x : ComponentId) :
    (s.written id d).component x >>= (fun _ => return ()) =
      s.component x >>= fun _ => return () := by
  obtain ⟨f, hf⟩ := written_eq s id d
  have hslot : ({ s.assign id d with nodes := s.nodes.map f } : Scene).slot? x = s.slot? x := rfl
  rw [hf, component, component, hslot]
  cases s.slot? x with
  | none => rfl
  | some slot =>
    obtain ⟨kind, i⟩ := slot
    cases kind with
    | transform | mesh =>
      simp only [Table.get?_map]
      cases s.nodes.get? i <;> rfl
    | geometry =>
      simp only [assign, Table.assign, Table.get?_map]
      cases s.geometries.get? i <;> rfl
    | material =>
      simp only [assign, Table.assign, Table.get?_map]
      cases s.materials.get? i <;> rfl
    | shader =>
      simp only [assign, Table.assign, Table.get?_map]
      cases s.shaders.get? i <;> rfl
    | texture =>
      simp only [assign, Table.assign, Table.get?_map]
      cases s.textures.get? i <;> rfl

/-- The check of a write is the same whatever was written before. -/
theorem check_written (s : Scene) (id : ComponentId) (d : Datum) (c : Command) :
    c.check (s.written id d) = c.check s := by
  obtain ⟨f, hf⟩ := written_eq s id d
  have hnode : ∀ x, (s.written id d).node x = (s.node x).map f := by
    intro x
    rw [hf]
    exact find_map rfl s.nodes x
  have hgeometry : ∀ x, (s.written id d).geometry x = (s.geometry x).map (assignAt id d) := by
    intro x
    rw [hf]
    exact find_map rfl s.geometries x
  have hmaterial : ∀ x, (s.written id d).material x = (s.material x).map (assignAt id d) := by
    intro x
    rw [hf]
    exact find_map rfl s.materials x
  have htexture : ∀ x, (s.written id d).texture x = (s.texture x).map (assignAt id d) := by
    intro x
    rw [hf]
    exact find_map rfl s.textures x
  cases c with
  | setName x => exact check_component_written s id d x
  | setPosition x | setRotation x | setScale x =>
    rw [Command.check, Command.check, hnode]
    cases s.node x <;> rfl
  | setVertexAttribute x | setIndices x | setVertexCount x | setIndicesCount x =>
    rw [Command.check, Command.check, hgeometry]
    cases s.geometry x <;> rfl
  | setMaterialUniform x =>
    rw [Command.check, Command.check, hmaterial]
    cases s.material x <;> rfl
  | textureWrite x =>
    rw [Command.check, Command.check, htexture]
    cases s.texture x with
    | error e => rfl
    | ok t =>
      obtain ⟨hwidth, hheight⟩ := Texture.size_assignAt id d t
      simp only [Except.map, bind, Except.bind, hwidth, hheight]
  | _ => rfl

/-! ## What a write does -/

/-- The edit is carried out if the check allows it, and otherwise it leaves no trace. -/
def decided (check : Except SceneError Unit) (s s' : Scene) :
    EStateM.Result SceneError Scene Unit :=
  match check with
  | .ok _ => .ok () s'
  | .error e => .error e s

theorem ask_decided {f : Scene → Except SceneError α} {e : α → SceneEdit Unit}
    {check : α → Except SceneError Unit} (h : ∀ a, f s = .ok a → e a s = decided (check a) s s') :
    (ask f >>= e) s = decided (f s >>= check) s s' := by
  cases hf : f s with
  | error err =>
    rw [bind_error (run_ask_error hf)]
    rfl
  | ok a =>
    rw [bind_ok (run_ask_ok hf)]
    exact h a hf

theorem written_of_not_places (hd : d.places = false) (s : Scene) (id : ComponentId) :
    s.written id d = s.assign id d := by
  rw [written, hd]
  rfl

theorem run_place [Mat4.Arithmetic] (hv : Valid s) (hd : d.places = true) (id : ComponentId) :
    (do updateNode id (Node.assign d); setStale id .local : SceneEdit Unit) s =
      decided (do let _ ← s.node id; return) s (s.written id d) := by
  have hf : ∀ n : Node, n.assign d = { n with
      position := (n.assign d).position
      rotation := (n.assign d).rotation
      scale := (n.assign d).scale } := by
    intro n
    cases d <;> first | rfl | cases hd
  cases hn : s.node id with
  | error e =>
    have hupdate : updateNode id (Node.assign d) s = .error e s := bind_error (run_ask_error hn)
    rw [bind_error hupdate]
    rfl
  | ok n =>
    have hrow := node_eq_ok.mp hn
    have hplaced : (s.modifyNode id (Node.assign d)).nodeAt id = some (n.assign d) := by
      rw [nodeAt_modifyNode hv.sound, View.modify_of_some hrow]
    rw [bind_ok (run_updateNode hrow), run_setStale hplaced, hv.flag_placed id hf, written, hd,
      if_pos rfl, assign_eq hv.sound hrow]
    rfl

theorem run_setName (hs : Sound s) (id : ComponentId) (name : String) : setName id name s =
    decided (do let _ ← s.component id; return) s (s.written id (.name (Name.clamp name))) := by
  rw [written_of_not_places rfl]
  refine ask_decided fun a ha => ?_
  have hrow := row_of_component ha
  cases a with
  | transform | mesh | geometry | material | shader | texture =>
    rw [assign_eq hs hrow]
    rfl

theorem run_updateGeometry_assign (hs : Sound s) (hd : d.places = false) (id : ComponentId) :
    updateGeometry id (Geometry.assign d) s =
      decided (do let _ ← s.geometry id; return) s (s.written id d) := by
  rw [written_of_not_places hd]
  refine ask_decided fun g hg => ?_
  rw [assign_eq hs (geometry_eq_ok.mp hg)]
  rfl

theorem run_setVertexAttribute (hs : Sound s) (id : ComponentId) (location components : UInt32)
    (data : List Scalar) : setVertexAttribute id location components data s =
      decided ((Command.setVertexAttribute id location components data).check s) s
        (s.written id (.stream location.toNat components data)) := by
  rw [written_of_not_places rfl]
  refine ask_decided fun g hg => ?_
  rw [assign_eq hs (geometry_eq_ok.mp hg)]
  by_cases hdata : components = 0 ∨ data.length % components.toNat ≠ 0
  · have hall : components = 0 ∨ data.length % components.toNat ≠ 0 ∨
        streamLimit ≤ location.toNat := hdata.imp_right .inl
    simp only [if_pos hdata, if_pos hall]
    rfl
  · by_cases hlocation : location.toNat < streamLimit
    · have hall : ¬ (components = 0 ∨ data.length % components.toNat ≠ 0 ∨
          streamLimit ≤ location.toNat) := by
        rw [← or_assoc, not_or, not_le]
        exact ⟨hdata, hlocation⟩
      simp only [if_neg hdata, if_neg hall, dif_pos hlocation, assignIn,
        funext (Geometry.assign_stream hlocation components data)]
      rfl
    · have hall : components = 0 ∨ data.length % components.toNat ≠ 0 ∨
          streamLimit ≤ location.toNat := .inr (.inr (not_lt.mp hlocation))
      simp only [if_neg hdata, if_pos hall, dif_neg hlocation]
      rfl

theorem run_setMaterialUniform (hs : Sound s) (id : ComponentId) (slot : UInt32) (value : Vec4) :
    setMaterialUniform id slot value s =
      decided ((Command.setMaterialUniform id slot value).check s) s
        (s.written id (.uniform slot.toNat value)) := by
  rw [written_of_not_places rfl]
  refine ask_decided fun m hm => ?_
  rw [assign_eq hs (material_eq_ok.mp hm)]
  by_cases hslot : slot.toNat < uniformLimit
  · simp only [dif_pos hslot, if_neg (not_le.mpr hslot), assignIn,
      funext (Material.assign_uniform hslot value)]
    rfl
  · simp only [dif_neg hslot, if_pos (not_lt.mp hslot)]
    rfl

theorem run_writeTexture (hs : Sound s) (id : ComponentId) (pixels : Bytes) :
    writeTexture id pixels s =
      decided ((Command.textureWrite id pixels).check s) s (s.written id (.pixels pixels)) := by
  rw [written_of_not_places rfl]
  refine ask_decided fun t ht => ?_
  rw [assign_eq hs (texture_eq_ok.mp ht)]
  by_cases hlength : pixels.length ≠ Texture.byteLength t.width t.height
  · simp only [if_pos hlength]
    rfl
  · simp only [if_neg hlength]
    rfl

/-- A write is refused by its check, or it is an assignment. -/
theorem run_write [Mat4.Arithmetic] (hv : Valid s) (hc : c.write? = some (id, d)) :
    c.edit s = decided (c.check s) s (s.written id d) := by
  cases c with
  | setName id name =>
    cases hc
    exact run_setName hv.sound id name
  | setPosition id position =>
    cases hc
    exact run_place hv (d := .position position) rfl id
  | setRotation id rotation =>
    cases hc
    exact run_place hv (d := .rotation rotation) rfl id
  | setScale id scale =>
    cases hc
    exact run_place hv (d := .scale scale) rfl id
  | setVertexAttribute id location components data =>
    cases hc
    exact run_setVertexAttribute hv.sound id location components data
  | setIndices id indices =>
    cases hc
    exact run_updateGeometry_assign hv.sound (d := .indices indices) rfl id
  | setVertexCount id count =>
    cases hc
    exact run_updateGeometry_assign hv.sound (d := .vertexOverride count) rfl id
  | setIndicesCount id count =>
    cases hc
    exact run_updateGeometry_assign hv.sound (d := .indexOverride count) rfl id
  | setMaterialUniform id slot value =>
    cases hc
    exact run_setMaterialUniform hv.sound id slot value
  | textureWrite id pixels =>
    cases hc
    exact run_writeTexture hv.sound id pixels
  | _ => cases hc

end Scene

namespace Stage

variable {t : Stage} {c c' : Command} {cs ds : List Command} {id id' : ComponentId} {d d' : Datum}

theorem reply_of_write (hc : c.write? = some (id, d)) (s : Scene) : c.reply? s = none := by
  cases c <;> first | rfl | cases hc

variable [Mat4.Arithmetic]

theorem outcome_write (hv : t.scene.Valid) (hc : c.write? = some (id, d)) :
    t.outcome c = (c.check t.scene).map fun _ => false := by
  rw [outcome_eq, Scene.run_write hv hc]
  cases c.check t.scene with
  | error e => rfl
  | ok u => simp only [Scene.decided, reply_of_write hc, Option.isSome_none, Except.map]

theorem after_write (hv : t.scene.Valid) (hc : c.write? = some (id, d)) :
    t.after c = match c.check t.scene with
      | .ok _ => { t with scene := t.scene.written id d }
      | .error _ => t := by
  rw [after, Scene.run_apply, Scene.run_write hv hc]
  cases c.check t.scene with
  | error e => rfl
  | ok u => simp only [Scene.decided, reply_of_write hc]

theorem check_after (hv : t.scene.Valid) (hc : c.write? = some (id, d)) (c' : Command) :
    c'.check (t.after c).scene = c'.check t.scene := by
  rw [after_write hv hc]
  cases c.check t.scene with
  | error e => rfl
  | ok u => exact t.scene.check_written id d c'

/-- What becomes of a write does not depend on another. -/
theorem outcome_after (hv : t.scene.Valid) (hc : c.write? = some (id, d))
    (hc' : c'.write? = some (id', d')) : (t.after c).outcome c' = t.outcome c' := by
  rw [outcome_write (valid_after hv c) hc', outcome_write hv hc', check_after hv hc]

/-- Two writes of different fields. -/
theorem after_comm (hv : t.scene.Valid) (hc : c.write? = some (id, d))
    (hc' : c'.write? = some (id', d')) (hne : (id, d.field) ≠ (id', d'.field)) :
    (t.after c).after c' = (t.after c').after c := by
  rw [after_write (valid_after hv c) hc', after_write (valid_after hv c') hc,
    check_after hv hc, check_after hv hc', after_write hv hc, after_write hv hc']
  cases c.check t.scene <;> cases c'.check t.scene <;>
    simp only [Scene.written_comm hne]

theorem outcomes_writes (hv : t.scene.Valid) (hwrites : ∀ c ∈ cs, c.write?.isSome) :
    t.outcomes cs = cs.map t.outcome := by
  induction cs generalizing t with
  | nil => rfl
  | cons c cs ih =>
    obtain ⟨w, hc⟩ := Option.isSome_iff_exists.mp (hwrites c List.mem_cons_self)
    have hrest : ∀ c' ∈ cs, c'.write?.isSome := fun c' h => hwrites c' (List.mem_cons_of_mem c h)
    rw [outcomes, ih (valid_after hv c) hrest, List.map_cons]
    refine congrArg _ (List.map_congr_left fun c' h => ?_)
    obtain ⟨w', hc'⟩ := Option.isSome_iff_exists.mp (hrest c' h)
    exact outcome_after hv hc hc'

/-- Writes of different fields in another order: what a transposition of neighbours keeps, every
permutation keeps. -/
theorem foldl_after_perm (hv : t.scene.Valid) (hwrites : ∀ c ∈ cs, c.write?.isSome)
    (hfields : (cs.map Command.target?).Nodup) (hperm : cs.Perm ds) :
    cs.foldl after t = ds.foldl after t := by
  induction hperm generalizing t with
  | nil => rfl
  | cons c _ ih =>
    apply ih (valid_after hv c)
    · exact fun c' h => hwrites c' (List.mem_cons_of_mem c h)
    · exact (List.nodup_cons.mp hfields).2
  | swap c c' cs =>
    obtain ⟨⟨id', d'⟩, hc'⟩ := Option.isSome_iff_exists.mp (hwrites c' (by simp))
    obtain ⟨⟨id, d⟩, hc⟩ := Option.isSome_iff_exists.mp (hwrites c (by simp))
    have hne : (id', d'.field) ≠ (id, d.field) := by
      intro he
      refine (List.nodup_cons.mp hfields).1 (List.mem_cons.mpr (.inl ?_))
      rw [Command.target?, Command.target?, hc, hc']
      exact congrArg some he
    simp only [List.foldl_cons]
    rw [after_comm hv hc' hc hne]
  | trans h _ ih ih' =>
    rw [ih hv hwrites hfields]
    apply ih' hv
    · exact fun c hc => hwrites c (h.mem_iff.mpr hc)
    · exact (h.map _).nodup_iff.mp hfields

end Stage

namespace Scene

/-- A batch of writes, no two of which concern the same field of the same component, leaves the same
scene in every order, with every flag, and each write has the result that it has alone. -/
theorem Reachable.independent_writes [Mat4.Arithmetic] {t : Stage} (h : t.scene.Reachable)
    {cs ds : List Command} (hwrites : ∀ c ∈ cs, c.write?.isSome)
    (hfields : (cs.map Command.target?).Nodup) (hperm : cs.Perm ds) :
    ds.foldl Stage.after t = cs.foldl Stage.after t ∧
      t.outcomes cs = cs.map t.outcome ∧ t.outcomes ds = ds.map t.outcome := by
  have hwrites' : ∀ c ∈ ds, c.write?.isSome := fun c hc => hwrites c (hperm.mem_iff.mpr hc)
  exact ⟨(Stage.foldl_after_perm h.valid hwrites hfields hperm).symm,
    Stage.outcomes_writes h.valid hwrites, Stage.outcomes_writes h.valid hwrites'⟩

/-- A mesh below an arm below a hub, of which the arm was moved, and no readbacks. -/
def nudgedStage : Stage := ⟨nudged, default⟩

/-- The mesh is moved and the hub scaled, the arm between them is renamed, and two writes have
nothing to write to. -/
def sundry : List Command :=
  [.setPosition ⟨7⟩ .one, .setName ⟨6⟩ "boom", .setVertexCount ⟨7⟩ 3, .setScale ⟨5⟩ .zero,
    .setPosition ⟨9⟩ .one]

/-- The marks of the hub, the arm and the mesh, and the refusals, are those of the other order. -/
theorem independent_writes_reversed :
    sundry.reverse.foldl Stage.after nudgedStage = sundry.foldl Stage.after nudgedStage ∧
      nudgedStage.outcomes sundry.reverse = [.error (.notFound ⟨9⟩), .ok false,
        .error (.wrongKind ⟨7⟩ .geometry .mesh), .ok false, .ok false] ∧
      (sundry.foldl Stage.after nudgedStage).scene.nodes.rows.map Node.stale =
        [.local, .local, .local] := by
  have hchain : chain.Reachable := Reachable.empty.runs (by decide)
  have h : nudgedStage.scene.Reachable := hchain.runs (by decide)
  have hwrites : ∀ c ∈ sundry, c.write?.isSome := by decide
  have hfields : (sundry.map Command.target?).Nodup := by decide
  obtain ⟨hsame, -, houtcomes⟩ := h.independent_writes hwrites hfields sundry.reverse_perm.symm
  exact ⟨hsame, houtcomes.trans (by decide +kernel), by decide +kernel⟩

end Scene

end SceneGraph
