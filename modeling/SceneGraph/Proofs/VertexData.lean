import SceneGraph.Proofs.Retention

/-!
# Vertex data

The streams and the indices of a geometry are replaced as a whole, in buffers that may hold more
than what was written last. What is drawn is counted from their length, unless another number was
asked for. A log of the writes that were tried tells what a geometry holds: of each stream, of the
indices and of both numbers that which was accepted last.
-/

namespace SceneGraph

namespace Datum

/-- Whether the value is vertex data, or says how much of it is drawn. -/
def isVertexData : Datum → Bool
  | stream .. | indices _ | vertexOverride _ | indexOverride _ => true
  | _ => false

/-- A stream takes whole vertices only, each with at least one component. -/
def Fits : Datum → Prop
  | stream location components data =>
    location < streamLimit ∧ 0 < components.toNat ∧ data.length % components.toNat = 0
  | _ => True

/-- No vertex data moves a node. -/
theorem not_places {d : Datum} (hd : d.isVertexData) : d.places = false := by
  cases d <;> first | rfl | cases hd

theorem fits_stream_iff {location : ℕ} {components : UInt32} {data : List Scalar} :
    (stream location components data).Fits ↔ ¬ (components = 0 ∨
      data.length % components.toNat ≠ 0 ∨ streamLimit ≤ location) := by
  have hzero : components = 0 ↔ components.toNat = 0 := UInt32.toNat_inj.symm
  rw [Fits, hzero]
  omega

def stream? (location : ℕ) : Datum → Option (UInt32 × List Scalar)
  | stream l components data => if l = location then some (components, data) else none
  | _ => none

def indices? : Datum → Option (List UInt32)
  | indices words => some words
  | _ => none

def vertexOverride? : Datum → Option Int32
  | vertexOverride count => some count
  | _ => none

def indexOverride? : Datum → Option Int32
  | indexOverride count => some count
  | _ => none

end Datum

/-- A write that was tried. -/
structure Attempt where
  datum : Datum
  accepted : Bool
deriving DecidableEq

namespace Attempt

variable {β : Type} {f : Datum → Option β}

/-- What `f` gives for the attempt, if it was accepted. -/
def value? (f : Datum → Option β) (a : Attempt) : Option β :=
  if a.accepted then f a.datum else none

/-- What `f` gives for the last of the accepted writes for which it gives anything. -/
def last? (f : Datum → Option β) (log : List Attempt) : Option β :=
  (log.filterMap (value? f)).getLast?

theorem last?_refused (log : List Attempt) (d : Datum) :
    last? f (log ++ [⟨d, false⟩]) = last? f log := by
  simp [last?, value?]

theorem last?_accepted (log : List Attempt) (d : Datum) :
    last? f (log ++ [⟨d, true⟩]) = (f d).or (last? f log) := by
  cases hd : f d with
  | none => simp [last?, value?, hd]
  | some b => simp [last?, value?, hd]

end Attempt

namespace VertexStream

variable {v : VertexStream} {components : UInt32} {data : List Scalar}

/-- The stream holds the scalars bit for bit, whole vertices of so many components. -/
structure Holds (v : VertexStream) (components : UInt32) (data : List Scalar) : Prop where
  count : v.components = components
  bytes : v.data.live = Bytes.ofWords (data.map Scalar.bits)
  whole : data.length % components.toNat = 0

theorem holds_empty : Holds {} 0 [] := ⟨rfl, rfl, rfl⟩

theorem holds_replace (v : VertexStream) (h : data.length % components.toNat = 0) :
    (v.replace components data).Holds components data :=
  ⟨rfl, Arena.live_clear_append .., h⟩

namespace Holds

variable (h : v.Holds components data)
include h

theorem scalars : v.scalars = data := by
  rw [VertexStream.scalars, h.bytes]
  simp [Function.comp_def]

theorem length : v.length = data.length := by
  have hsize : v.data.size = 4 * data.length := by
    rw [Arena.size, ← Arena.length_live, h.bytes, Bytes.length_ofWords, List.length_map]
  rw [VertexStream.length, hsize]
  omega

theorem vertexCount_mul : v.vertexCount * components.toNat = data.length := by
  rw [vertexCount, h.length, h.count]
  exact Nat.div_mul_cancel (Nat.dvd_of_mod_eq_zero h.whole)

end Holds

end VertexStream

namespace Geometry

variable {g g' : Geometry} {log : List Attempt} {d : Datum}

/-- The streams and the indices of a geometry, and how much of them is drawn. -/
def vertexData (g : Geometry) : Vector VertexStream streamLimit × Arena × Int32 × Int32 :=
  (g.streams, g.indices, g.vertexOverride, g.indexOverride)

instance : Apart vertexData := ⟨fun _ _ => rfl, fun _ _ _ => rfl, fun _ _ => rfl⟩

instance : Unbatched vertexData := ⟨fun _ _ _ _ => rfl⟩

theorem vertexData_assign (hd : d.isVertexData = false) (g : Geometry) :
    (g.assign d).vertexData = g.vertexData := by
  cases d <;> first | rfl | cases hd

/-- The geometry holds what was accepted last. -/
structure Reflects (log : List Attempt) (g : Geometry) : Prop where
  judged : ∀ a ∈ log, a.accepted = true ↔ a.datum.Fits
  stream : ∀ location (h : location < streamLimit) components data,
    (Attempt.last? (Datum.stream? location) log).getD (0, []) = (components, data) →
      g.streams[location].Holds components data
  indices : g.indices.live = Bytes.ofWords ((Attempt.last? Datum.indices? log).getD [])
  vertexOverride : g.vertexOverride = (Attempt.last? Datum.vertexOverride? log).getD (-1)
  indexOverride : g.indexOverride = (Attempt.last? Datum.indexOverride? log).getD (-1)

namespace Reflects

theorem new (id : ComponentId) (name : String) : Reflects [] (new id name) where
  judged a ha := by cases ha
  stream location h components data hlast := by
    obtain ⟨rfl, rfl⟩ := Prod.mk.inj hlast
    have hstream : (Geometry.new id name).streams[location] = {} := Vector.getElem_replicate h
    rw [hstream]
    exact VertexStream.holds_empty
  indices := rfl
  vertexOverride := rfl
  indexOverride := rfl

theorem congr (h : Reflects log g) (he : g'.vertexData = g.vertexData) : Reflects log g' := by
  obtain ⟨hstreams, hindices, hvertex, hindex⟩ := by simpa [vertexData] using he
  exact ⟨h.judged, fun l hl c data hlast => hstreams ▸ h.stream l hl c data hlast,
    hindices ▸ h.indices, hvertex ▸ h.vertexOverride, hindex ▸ h.indexOverride⟩

theorem judged_concat (h : Reflects log g) {a : Attempt} (ha : a.accepted = true ↔ a.datum.Fits) :
    ∀ b ∈ log ++ [a], b.accepted = true ↔ b.datum.Fits := by
  intro b hb
  rcases List.mem_append.mp hb with hb | hb
  · exact h.judged b hb
  · rwa [List.mem_singleton.mp hb]

theorem refused (h : Reflects log g) (hd : ¬ d.Fits) : Reflects (log ++ [⟨d, false⟩]) g where
  judged := by
    refine h.judged_concat ⟨fun h => ?_, fun hfits => absurd hfits hd⟩
    cases h
  stream location hl components data hlast := by
    rw [Attempt.last?_refused] at hlast
    exact h.stream location hl components data hlast
  indices := by
    rw [Attempt.last?_refused]
    exact h.indices
  vertexOverride := by
    rw [Attempt.last?_refused]
    exact h.vertexOverride
  indexOverride := by
    rw [Attempt.last?_refused]
    exact h.indexOverride

/-- The write of a stream replaces that one, and any other write none. -/
theorem stream_assign (h : Reflects log g) (hd : d.Fits) {location : ℕ}
    (hl : location < streamLimit) {components : UInt32} {data : List Scalar}
    (hlast : (((d.stream? location).or (Attempt.last? (Datum.stream? location) log)).getD (0, [])) =
      (components, data)) : (g.assign d).streams[location].Holds components data := by
  have hother : d.stream? location = none →
      (g.assign d).streams[location] = g.streams[location] →
        (g.assign d).streams[location].Holds components data := by
    intro hnone hsame
    rw [hnone, Option.none_or] at hlast
    rw [hsame]
    exact h.stream location hl components data hlast
  cases d with
  | stream l c xs =>
    obtain ⟨hlimit, -, hwhole⟩ := hd
    by_cases he : l = location
    · subst he
      rw [Datum.stream?, if_pos rfl] at hlast
      obtain ⟨rfl, rfl⟩ := Prod.mk.inj hlast
      have hstream : (g.assign (.stream l c xs)).streams[l] = g.streams[l].replace c xs := by
        rw [assign_stream hlimit]
        exact Vector.getElem_set_self hlimit
      rw [hstream]
      exact VertexStream.holds_replace _ hwhole
    · refine hother (if_neg he) ?_
      rw [assign_stream hlimit]
      exact Vector.getElem_set_ne hlimit hl he
  | _ => exact hother rfl rfl

theorem accepted (h : Reflects log g) (hd : d.Fits) :
    Reflects (log ++ [⟨d, true⟩]) (g.assign d) where
  judged := h.judged_concat ⟨fun _ => hd, fun _ => rfl⟩
  stream location hl components data hlast := by
    rw [Attempt.last?_accepted] at hlast
    exact h.stream_assign hd hl hlast
  indices := by
    rw [Attempt.last?_accepted]
    cases d with
    | indices words => exact Arena.live_clear_append ..
    | _ => exact h.indices
  vertexOverride := by
    rw [Attempt.last?_accepted]
    cases d with
    | vertexOverride count => rfl
    | _ => exact h.vertexOverride
  indexOverride := by
    rw [Attempt.last?_accepted]
    cases d with
    | indexOverride count => rfl
    | _ => exact h.indexOverride

theorem indexList (h : Reflects log g) :
    g.indexList = (Attempt.last? Datum.indices? log).getD [] := by
  rw [Geometry.indexList, h.indices, Bytes.toWords_ofWords]

/-- The indices are whole words. -/
theorem length_indexList (h : Reflects log g) : g.indexList.length = g.indices.size / 4 := by
  rw [h.indexList, Arena.size, ← Arena.length_live, h.indices, Bytes.length_ofWords]
  omega

theorem attempt (h : Reflects log g) {a : Attempt} (ha : a.accepted = true ↔ a.datum.Fits) :
    Reflects (log ++ [a]) (if a.accepted then g.assign a.datum else g) := by
  obtain ⟨d, b⟩ := a
  cases b with
  | true => exact h.accepted (ha.mp rfl)
  | false =>
    refine h.refused fun hfits => ?_
    cases ha.mpr hfits

end Reflects

end Geometry

/-- The vertex data that an operation writes to `x`, if it tries to. -/
def Operation.attempt? (s : Scene) (x : ComponentId) (op : Operation) : Option Attempt :=
  op.command?.bind fun c => c.write?.bind fun (id, d) =>
    if id = x ∧ d.isVertexData then some ⟨d, s.accepts c.edit⟩ else none

namespace Scene

variable {s : Scene} {x : ComponentId} {k k' : Geometry} {c : Command} {d : Datum}
  {op : Operation} {log : List Attempt} {a : Attempt}

theorem exists_command_of_attempt? (h : op.attempt? s x = some a) : ∃ c, op.command? = some c ∧
    c.write? = some (x, a.datum) ∧ a.datum.isVertexData ∧ a.accepted = s.accepts c.edit := by
  obtain ⟨c, hcommand, hc⟩ := Option.bind_eq_some_iff.mp h
  obtain ⟨⟨id, d⟩, hwrite, hd⟩ := Option.bind_eq_some_iff.mp hc
  obtain ⟨⟨rfl, hvertex⟩, ha⟩ := Option.ite_none_right_eq_some.mp hd
  obtain rfl := Option.some.inj ha
  exact ⟨c, hcommand, hwrite, hvertex, rfl⟩

theorem not_vertexData_of_attempt? (h : op.attempt? s x = none) (hcommand : op.command? = some c)
    (hwrite : c.write? = some (x, d)) : d.isVertexData = false := by
  rw [Operation.attempt?, hcommand, Option.bind_some, hwrite, Option.bind_some] at h
  simpa using h

/-- Vertex data is written to a geometry only. -/
theorem check_of_gone (hc : c.write? = some (x, d)) (hd : d.isVertexData)
    (hgone : s.geometryAt x = none) : ∃ e, c.check s = .error e := by
  obtain ⟨e, he⟩ : ∃ e, s.geometry x = .error e := find_eq_error hgone
  cases c with
  | setVertexAttribute | setIndices | setVertexCount | setIndicesCount =>
    cases hc
    refine ⟨e, ?_⟩
    rw [Command.check, he]
    rfl
  | setName | setPosition | setRotation | setScale | setMaterialUniform | textureWrite =>
    cases hc
    cases hd
  | _ => cases hc

/-- A geometry accepts the vertex data that fits. -/
theorem check_of_live (hc : c.write? = some (x, d)) (hd : d.isVertexData)
    (hk : s.geometryAt x = some k) : c.check s = .ok () ↔ d.Fits := by
  have hgeometry := geometry_eq_ok.mpr hk
  cases c with
  | setVertexAttribute id location components data =>
    cases hc
    rw [Command.check, hgeometry, Datum.fits_stream_iff]
    change (if _ then _ else _) = _ ↔ _
    split
    · next hmisfit =>
      refine ⟨fun h => ?_, fun hfits => absurd hmisfit hfits⟩
      cases h
    · next hfits => exact ⟨fun _ => hfits, fun _ => rfl⟩
  | setIndices | setVertexCount | setIndicesCount =>
    cases hc
    rw [Command.check, hgeometry]
    exact ⟨fun _ => trivial, fun _ => rfl⟩
  | setName | setPosition | setRotation | setScale | setMaterialUniform | textureWrite =>
    cases hc
    cases hd
  | _ => cases hc

theorem outcome_setVertexAttribute [Mat4.Arithmetic] {t : Stage} {location components : UInt32}
    {data : List Scalar} (hv : Valid t.scene) (hk : t.scene.geometryAt x = some k) :
    t.outcome (.setVertexAttribute x location components data) = .ok false ↔
      location.toNat < streamLimit ∧ 0 < components.toNat ∧
        data.length % components.toNat = 0 := by
  have hc : (Command.setVertexAttribute x location components data).write? =
      some (x, .stream location.toNat components data) := rfl
  have hfits := check_of_live hc rfl hk
  rw [Stage.outcome_write hv hc]
  cases hcheck : (Command.setVertexAttribute x location components data).check t.scene with
  | error e =>
    rw [hcheck] at hfits
    refine ⟨fun h => ?_, fun h => ?_⟩
    · cases h
    · cases hfits.mpr h
  | ok u =>
    rw [hcheck] at hfits
    exact ⟨fun _ => hfits.mp rfl, fun _ => rfl⟩

/-- What a write of vertex data does to the geometry that it is meant for. -/
theorem attempted [Mat4.Arithmetic] (hv : Valid s) (ha : op.attempt? s x = some a)
    (hk' : (op.run s).geometryAt x = some k') : ∃ k, s.geometryAt x = some k ∧
      (a.accepted = true ↔ a.datum.Fits) ∧ k' = if a.accepted then k.assign a.datum else k := by
  obtain ⟨c, hcommand, hc, hd, haccepted⟩ := exists_command_of_attempt? ha
  have hrun := run_write hv hc
  rw [run_of_command? hcommand, after, hrun] at hk'
  rw [accepts, hrun] at haccepted
  cases hk : s.geometryAt x with
  | none =>
    obtain ⟨e, he⟩ := check_of_gone hc hd hk
    rw [he] at hk'
    cases hk.symm.trans hk'
  | some k =>
    have hfits := check_of_live hc hd hk
    refine ⟨k, rfl, ?_⟩
    cases hcheck : c.check s with
    | error e =>
      rw [hcheck] at hk' haccepted hfits
      rw [haccepted]
      refine ⟨⟨fun h => ?_, fun h => ?_⟩, Option.some.inj (hk'.symm.trans hk)⟩
      · cases h
      · cases hfits.mpr h
    | ok u =>
      rw [hcheck] at hk' haccepted hfits
      rw [haccepted]
      refine ⟨⟨fun _ => hfits.mp rfl, fun _ => rfl⟩, ?_⟩
      change (s.written x a.datum).geometryAt x = some k' at hk'
      rw [written_of_not_places (Datum.not_places hd), assign_eq hv.sound hk, assignIn,
        geometryAt_modifyGeometry hv.sound, View.modify_of_some hk] at hk'
      exact (Option.some.inj hk').symm

/-- Whatever else is done leaves vertex data alone. -/
theorem unattempted [Mat4.Arithmetic] (hv : Valid s) (hc : Covered s) (ha : op.Allowed s)
    (hop : op.attempt? s x = none) (hk' : (op.run s).geometryAt x = some k') :
    (∃ k, s.geometryAt x = some k ∧ k'.vertexData = k.vertexData) ∨
      s.geometryAt x = none ∧ ∃ name, k'.vertexData = (Geometry.new x name).vertexData := by
  refine kept_or_new hv hc ha (fun c d hcommand hwrite => ?_) (fun _ => inferInstance) hk'
  exact Geometry.vertexData_assign (not_vertexData_of_attempt? hop hcommand hwrite)

/-- A scene after any run, with the log of the vertex data that was written to `x` since it was
created. -/
inductive Supplied [Mat4.Arithmetic] (x : ComponentId) : Scene → List Attempt → Prop
  | empty : Supplied x {} []
  | run {s : Scene} {log : List Attempt} (h : Supplied x s log) (op : Operation)
      (ha : op.Allowed s) : Supplied x (op.run s) (s.noted Operation.attempt? x log op)

/-- Another operation, with the log. -/
def supply [Mat4.Arithmetic] (x : ComponentId) (t : Scene × List Attempt) (op : Operation) :
    Scene × List Attempt :=
  (op.run t.1, t.1.noted Operation.attempt? x t.2 op)

namespace Supplied

theorem runs [Mat4.Arithmetic] {t : Scene × List Attempt} {ops : List Operation}
    (h : Supplied x t.1 t.2) (hd : ∀ op ∈ ops, op.draws = false) :
    Supplied x (ops.foldl (supply x) t).1 (ops.foldl (supply x) t).2 := by
  induction ops generalizing t with
  | nil => exact h
  | cons op ops ih =>
    have hop : Supplied x (supply x t op).1 (supply x t op).2 :=
      h.run op (Operation.allowed_of_not_draws (hd op (List.mem_cons_self ..)) t.1)
    exact ih hop fun o ho => hd o (List.mem_cons_of_mem _ ho)

theorem reachable [Mat4.Arithmetic] (h : Supplied x s log) : Reachable s := by
  induction h with
  | empty => exact .empty
  | run _ op ha ih => exact ih.run op ha

theorem reflects [Mat4.Arithmetic] (h : Supplied x s log) (hk : s.geometryAt x = some k) :
    k.Reflects log := by
  induction h generalizing k with
  | empty => cases hk
  | @run s log h op ha ih =>
    cases hop : op.attempt? s x with
    | some a =>
      obtain ⟨k₀, hk₀, hfits, rfl⟩ := attempted h.reachable.valid hop hk
      rw [noted_of_live hk₀, hop]
      exact (ih hk₀).attempt hfits
    | none =>
      rcases unattempted h.reachable.valid h.reachable.covered ha hop hk with
        ⟨k₀, hk₀, hsame⟩ | ⟨hnone, name, hnew⟩
      · rw [noted_of_live hk₀, hop, Option.toList_none, List.append_nil]
        exact (ih hk₀).congr hsame
      · rw [noted_of_gone hnone]
        exact (Geometry.Reflects.new x name).congr hnew

/-- A geometry takes whole vertices for the streams that there are, and holds bit for bit what it
took last for each stream and as indices. Nothing else that was done since it was created, and
nothing that was refused, shows in them. As much is drawn as was asked for last, or if that is
negative, as the first stream has vertices and as there are indices. -/
theorem accepted_writes [Mat4.Arithmetic] (h : Supplied x s log) (hk : s.geometry x = .ok k) :
    (∀ (location components : UInt32) (data : List Scalar) (readbacks : Queue),
      Stage.outcome ⟨s, readbacks⟩ (.setVertexAttribute x location components data) = .ok false ↔
        location.toNat < 8 ∧ 0 < components.toNat ∧ data.length % components.toNat = 0) ∧
    (∀ a ∈ log, a.accepted = true ↔ a.datum.Fits) ∧
    (∀ location (hl : location < streamLimit) components data,
      (Attempt.last? (Datum.stream? location) log).getD (0, []) = (components, data) →
        k.streams[location].components = components ∧
        k.streams[location].data.live = Bytes.ofWords (data.map Scalar.bits) ∧
        k.streams[location].scalars = data ∧
        k.streams[location].length = data.length ∧
        k.streams[location].vertexCount * components.toNat = data.length) ∧
    (∀ words, (Attempt.last? Datum.indices? log).getD [] = words →
      k.indices.live = Bytes.ofWords words ∧ k.indexList = words) ∧
    (∀ count, (Attempt.last? Datum.vertexOverride? log).getD (-1) = count →
      k.vertexCount = if 0 ≤ count then count.toInt.toNat else k.streams[0].vertexCount) ∧
    (∀ count, (Attempt.last? Datum.indexOverride? log).getD (-1) = count →
      k.indexCount = if 0 ≤ count then count.toInt.toNat else k.indexList.length) := by
  have hview := geometry_eq_ok.mp hk
  have hreflects := h.reflects hview
  refine ⟨fun location components data readbacks => ?_, hreflects.judged,
    fun location hl components data hlast => ?_, fun words hlast => ?_, fun count hlast => ?_,
    fun count hlast => ?_⟩
  · exact outcome_setVertexAttribute (t := ⟨s, readbacks⟩) h.reachable.valid hview
  · have hholds := hreflects.stream location hl components data hlast
    exact ⟨hholds.count, hholds.bytes, hholds.scalars, hholds.length, hholds.vertexCount_mul⟩
  · rw [← hlast]
    exact ⟨hreflects.indices, hreflects.indexList⟩
  · rw [Geometry.vertexCount, hreflects.vertexOverride, hlast]
  · rw [Geometry.indexCount, hreflects.indexOverride, hlast, hreflects.length_indexList]

/-- Two vertices, then one of fewer components, and two writes that do not fit. -/
def retried [Mat4.Arithmetic] : Scene × List Attempt :=
  List.foldl (supply ⟨5⟩) ({}, [])
    [.insert .geometry ⟨5⟩ "quad",
      .apply (.setVertexAttribute ⟨5⟩ 0 3 [.zero, .one, .one, .zero, .one, .zero]) default,
      .setVertexAttribute ⟨5⟩ 0 2 [.one, .zero],
      .apply (.setVertexAttribute ⟨5⟩ 0 2 [.one]) default,
      .apply (.setVertexAttribute ⟨5⟩ 8 1 [.one]) default,
      .setIndices ⟨5⟩ [0, 0, 0], .apply (.setVertexCount ⟨5⟩ 4) default,
      .setVertexCount ⟨5⟩ (-2), .apply (.setIndicesCount ⟨5⟩ 2) default]

theorem accepted_writes_retried : Supplied ⟨5⟩ retried.1 retried.2 ∧
    retried.2.map Attempt.accepted = [true, true, false, false, true, true, true, true] ∧
    ∃ k, retried.1.geometry ⟨5⟩ = .ok k ∧ k.streams[0].scalars = [.one, .zero] ∧
      k.streams[7].components = 0 ∧ k.vertexCount = 1 ∧ k.indexCount = 2 := by
  have h : Supplied ⟨5⟩ retried.1 retried.2 := empty.runs (by decide)
  have hlive : retried.1.geometryAt ⟨5⟩ ≠ none := by decide +kernel
  obtain ⟨k, hk⟩ := Option.ne_none_iff_exists'.mp hlive
  have hgeometry := geometry_eq_ok.mpr hk
  obtain ⟨-, -, hstreams, -, hvertices, hindices⟩ := h.accepted_writes hgeometry
  obtain ⟨-, -, hscalars, -, hcount⟩ := hstreams 0 (by decide) 2 [.one, .zero] (by decide +kernel)
  obtain ⟨hunset, -⟩ := hstreams 7 (by decide) 0 [] (by decide +kernel)
  refine ⟨h, by decide +kernel, k, hgeometry, hscalars, hunset, ?_, ?_⟩
  · have hderived : k.vertexCount = k.streams[0].vertexCount := hvertices (-2) (by decide +kernel)
    rw [hderived]
    exact Nat.eq_of_mul_eq_mul_right (by decide) hcount
  · exact hindices 2 (by decide +kernel)

end Supplied

end Scene

end SceneGraph
