import SceneGraph.Proofs.Clamping
import SceneGraph.Proofs.Histories

/-!
# Names of components

A component is named when it is created and whenever it is given another name. Either way the text
is cut to what a name has room for, so that the component is called by the longest beginning that
fits of the text that it was named by last. That text can be told from a log of the names that were
given, in which what was refused does not show.
-/

namespace SceneGraph

/-- A component, and a text that it is named by. -/
abbrev Naming := ComponentId × String

/-- The text that `id` was named by last. -/
def lastName (names : List Naming) (id : ComponentId) : Option String :=
  (names.filterMap fun (x, name) => if x = id then some name else none).getLast?

/-- What a command names, if it is carried out. A mesh that is bound before it is created is named
for what it is, and so is a shader. -/
def Command.naming? (s : Scene) : Command → Option Naming
  | createTransform id name | setName id name | createGeometry id name | createMaterial id _ name
  | createMesh id _ _ name | createTexture id _ _ name => some (id, name)
  | createShader id _ _ => some (id, "shader")
  | updateMesh mesh _ _ => if s.contains mesh then none else some (mesh, "mesh")
  | _ => none

/-- What an operation names on a scene; nothing if it is refused. -/
def Operation.naming? (s : Scene) : Operation → Option Naming
  | create _ name => some (s.allocate.1, name)
  | insert kind id name => if s.accepts (Scene.insert kind id name) then some (id, name) else none
  | setName id name => if s.accepts (Scene.setName id name) then some (id, name) else none
  | updateMesh mesh geometry material =>
    if s.accepts (Scene.updateMesh mesh geometry material) then
      (Command.updateMesh mesh geometry material).naming? s
    else none
  | apply command _ => if s.accepts command.edit then command.naming? s else none
  | _ => none

/-- The component whose name a change sets, with that name. -/
def Change.naming? : Change → Option Naming
  | created _ id name => some (id, Name.clamp name)
  | assigned id (.name text) => some (id, text)
  | _ => none

section Logs

variable {s : Scene} {log later : List Change} {cs : List Change} {id : ComponentId} {e : Entry}
  {naming? : Option Naming} {α : Type}

theorem lastName_append (names later : List Naming) (id : ComponentId) :
    lastName (names ++ later) id = (lastName later id).or (lastName names id) := by
  rw [lastName, List.filterMap_append, List.getLast?_append]
  rfl

theorem lastName_singleton (x id : ComponentId) (name : String) :
    lastName [(x, name)] id = if x = id then some name else none := by
  by_cases hx : x = id <;> simp [lastName, hx]

theorem lastName_clamp (x id : ComponentId) (name : String) :
    lastName [(x, Name.clamp name)] id = (lastName [(x, name)] id).map Name.clamp := by
  rw [lastName_singleton, lastName_singleton]
  split <;> rfl

/-- A command changes names to what it names components by, cut. -/
theorem Command.lastName_changes (s : Scene) (c : Command) (id : ComponentId) :
    lastName ((c.changes s).filterMap Change.naming?) id =
      (lastName (c.naming? s).toList id).map Name.clamp := by
  cases c with
  | createTransform x name | setName x name | createGeometry x name | createMaterial x _ name
  | createTexture x _ _ name => exact lastName_clamp x id name
  | createShader x => exact lastName_clamp x id "shader"
  | createMesh x _ _ name =>
    -- what it is named for at first is gone at once
    change lastName ([(x, Name.clamp "mesh")] ++ [(x, Name.clamp name)]) id =
      (lastName [(x, name)] id).map Name.clamp
    rw [lastName_append, lastName_clamp, lastName_singleton, lastName_singleton]
    split <;> rfl
  | updateMesh x =>
    rw [changes, naming?, Scene.meshChanges]
    split
    · rfl
    · exact lastName_clamp x id "mesh"
  | _ => rfl

/-- What is refused names nothing. -/
theorem Scene.lastName_accepting {e : SceneEdit α}
    (h : lastName (cs.filterMap Change.naming?) id =
      (lastName naming?.toList id).map Name.clamp) :
    lastName ((s.accepting e cs).filterMap Change.naming?) id =
      (lastName (if s.accepts e then naming? else none).toList id).map Name.clamp := by
  rw [accepting_eq]
  split
  · exact h
  · rfl

theorem Scene.lastName_accepting_silent {e : SceneEdit α}
    (h : cs.filterMap Change.naming? = []) :
    lastName ((s.accepting e cs).filterMap Change.naming?) id = none := by
  rw [accepting_eq]
  split
  · rw [h]
    rfl
  · rfl

theorem Operation.lastName_changes (s : Scene) (op : Operation) (id : ComponentId) :
    lastName ((op.changes s).filterMap Change.naming?) id =
      (lastName (op.naming? s).toList id).map Name.clamp := by
  cases op with
  | create _ name => exact lastName_clamp _ id name
  | insert _ x name | setName x name => exact Scene.lastName_accepting (lastName_clamp x id name)
  | updateMesh mesh geometry material =>
    have hcommand := Command.lastName_changes s (.updateMesh mesh geometry material) id
    exact Scene.lastName_accepting hcommand
  | apply command => exact Scene.lastName_accepting (command.lastName_changes s id)
  | destroy | setPosition | setRotation | setScale | setVertexAttribute | setIndices
  | setVertexCount | setIndicesCount | setShaderSource | setMaterialUniform | resizeTexture
  | writeTexture => exact Scene.lastName_accepting_silent rfl
  | _ => rfl

/-- Since a component was created, its name is a field like the others. -/
theorem given_name (h : ∀ c ∈ later, ¬ c.Restarts id) :
    given later id .name = (lastName (later.filterMap Change.naming?) id).map .name := by
  rw [given, lastName, List.filterMap_filterMap, ← List.getLast?_map, List.map_filterMap]
  refine congrArg List.getLast? (List.filterMap_congr fun c hc => ?_)
  cases c with
  | created kind x name =>
    have hx : x ≠ id := h _ hc
    simp [Change.given?, Change.naming?, hx]
  | destroyed x => rfl
  | assigned x d =>
    by_cases hx : x = id
    · cases d <;> simp [Change.given?, Change.naming?, Datum.field, hx]
    · cases d <;> simp [Change.given?, Change.naming?, hx]

/-- The log tells a name, which is the one that it gave last. -/
theorem name_of_told (h : told log id = some e) :
    ∃ name, lastName (log.filterMap Change.naming?) id = some name ∧
      e.datum? .name = some (.name name) := by
  obtain ⟨before, text, later, rfl, haccount⟩ := exists_account h
  have hcreated : lastName ((before ++ .created e.kind id text :: later).filterMap
      Change.naming?) id =
        (lastName (later.filterMap Change.naming?) id).or (some (Name.clamp text)) := by
    rw [List.append_cons, List.filterMap_append, List.filterMap_append, lastName_append,
      lastName_append]
    change (lastName _ id).or ((lastName [(id, Name.clamp text)] id).or _) = _
    rw [lastName_singleton, if_pos rfl, Option.some_or]
  rw [hcreated, haccount.value, given_name haccount.since]
  cases lastName (later.filterMap Change.naming?) id with
  | none => exact ⟨_, rfl, rfl⟩
  | some name => exact ⟨name, rfl, rfl⟩

end Logs

namespace Scene

variable {s : Scene} {names : List Naming} {id : ComponentId} {c : Component}

/-- A run from the empty scene named components as in the list. -/
inductive Named [Mat4.Arithmetic] : List Naming → Scene → Prop
  | empty : Named [] {}
  | run {names : List Naming} {s : Scene} (h : Named names s) (op : Operation) (ha : op.Allowed s) :
      Named (names ++ (op.naming? s).toList) (op.run s)

theorem Reachable.named [Mat4.Arithmetic] (h : Reachable s) : ∃ names, Named names s := by
  induction h with
  | empty => exact ⟨[], .empty⟩
  | run _ op ha ih =>
    obtain ⟨names, hnames⟩ := ih
    exact ⟨_, hnames.run op ha⟩

theorem Named.recorded [Mat4.Arithmetic] (h : Named names s) : ∃ log, Recorded log s ∧
    ∀ id, lastName (log.filterMap Change.naming?) id = (lastName names id).map Name.clamp := by
  induction h with
  | empty => exact ⟨[], .empty, fun _ => rfl⟩
  | @run names s h op ha ih =>
    obtain ⟨log, hlog, hlast⟩ := ih
    refine ⟨_, hlog.run op ha, fun id => ?_⟩
    rw [List.filterMap_append, lastName_append, lastName_append, hlast, op.lastName_changes,
      Option.map_or]

/-- Another operation, with what was named. -/
def christen [Mat4.Arithmetic] (t : List Naming × Scene) (op : Operation) : List Naming × Scene :=
  (t.1 ++ (op.naming? t.2).toList, op.run t.2)

theorem Named.runs [Mat4.Arithmetic] {t : List Naming × Scene} {ops : List Operation}
    (h : Named t.1 t.2) (hd : ∀ op ∈ ops, op.draws = false) :
    Named (ops.foldl christen t).1 (ops.foldl christen t).2 := by
  induction ops generalizing t with
  | nil => exact h
  | cons op ops ih =>
    have hop : Named (christen t op).1 (christen t op).2 :=
      h.run op (Operation.allowed_of_not_draws (hd op (List.mem_cons_self ..)) t.2)
    exact ih hop fun o ho => hd o (List.mem_cons_of_mem _ ho)

/-- A component is called by what it was named by last, cut. -/
theorem Named.name_eq [Mat4.Arithmetic] (h : Named names s) (hc : s.component id = .ok c) :
    ∃ text, lastName names id = some text ∧ c.name = Name.clamp text := by
  obtain ⟨log, hlog, hlast⟩ := h.recorded
  have htold : told log id = some c.entry := by
    rw [← hlog.entryOf_eq, entryOf, hc]
  obtain ⟨name, hname, hdatum⟩ := name_of_told htold
  rw [hlast, Option.map_eq_some_iff] at hname
  obtain ⟨text, htext, rfl⟩ := hname
  refine ⟨text, htext, ?_⟩
  have hfield : c.entry.datum? .name = some (.name c.name) := by cases c <;> rfl
  exact Datum.name.inj (Option.some.inj (hfield.symm.trans hdatum))

/-- A text is made a name by leaving of it the longest beginning, in whole characters, that takes
at most 63 bytes; there is only one. If it is longer it is cut where a search backwards stops, which
does not go below the first byte and leaves 60 bytes at least. A name is left as it is. In a
reachable scene every component is called by the text that it was named by last, made a name so. -/
theorem names_clamped [Mat4.Arithmetic] :
    (∀ text : String,
      (∀ name, Name.clamp text = name ↔ Name.LongestFit 63 text name) ∧
      (text.utf8ByteSize ≤ 63 → Name.clamp text = text) ∧
      (∃ n, Name.stop? text 63 = some n ∧ (63 < text.utf8ByteSize →
        (Name.clamp text).toByteArray = text.toByteArray.extract 0 n)) ∧
      (63 < text.utf8ByteSize → 60 ≤ (Name.clamp text).utf8ByteSize) ∧
      Name.clamp (Name.clamp text) = Name.clamp text) ∧
    ∀ s, Reachable s → (∃ names, Named names s) ∧
      ∀ names, Named names s → ∀ id c, s.component id = .ok c →
        ∃ text, lastName names id = some text ∧ c.name = Name.clamp text := by
  refine ⟨fun text => ⟨fun name => ⟨?_, ?_⟩, Name.clamp_of_le, ?_, fun hlong => ?_,
    Name.clamp_clamp text⟩, fun s h => ⟨h.named, fun names hnames id c => hnames.name_eq⟩⟩
  · rintro rfl
    exact Name.clamp_longestFit text
  · exact (Name.clamp_longestFit text).unique
  · obtain ⟨n, hstop⟩ := Name.exists_stop? text 63
    exact ⟨n, hstop, fun hlong => Name.toByteArray_clamp hlong hstop⟩
  · have hroom : 63 < (Name.clamp text).utf8ByteSize + 4 :=
      (Name.clamp_longestFit text).lt_add_four hlong
    omega

/-- Sixteen characters of four bytes each. -/
def clefs : String := .ofList (List.replicate 16 '𝄞')

/-- A mesh that got another name, and a geometry with the identifier of a node that is gone. Two
attempts to name something were refused. -/
def christened [Mat4.Arithmetic] : List Naming × Scene :=
  List.foldl christen ([], {})
    [.insert .transform ⟨5⟩ "cube", .insert .shader ⟨5⟩ "sphere",
      .apply (.createMesh ⟨6⟩ .null .null clefs) default, .setName ⟨6⟩ "box", .setName ⟨7⟩ "plane",
      .apply (.destroy ⟨5⟩) default, .apply (.createGeometry ⟨5⟩ clefs) default]

theorem names_clamped_straddling : Named christened.1 christened.2 ∧
    christened.1 = [(⟨5⟩, "cube"), (⟨6⟩, clefs), (⟨6⟩, "box"), (⟨5⟩, clefs)] ∧
    63 < clefs.utf8ByteSize ∧ ∃ c, christened.2.component ⟨5⟩ = .ok c ∧
      c.name = .ofList (List.replicate 15 '𝄞') ∧ 60 ≤ c.name.utf8ByteSize := by
  have h : Named christened.1 christened.2 := Named.empty.runs (by decide)
  have hlong : 63 < clefs.utf8ByteSize := by decide +kernel
  obtain ⟨log, hlog, -⟩ := h.recorded
  obtain ⟨c, hc⟩ : ∃ c, christened.2.component ⟨5⟩ = .ok c := ⟨_, rfl⟩
  obtain ⟨text, htext, hname⟩ :=
    (names_clamped.2 christened.2 hlog.reachable).2 christened.1 h ⟨5⟩ c hc
  have hlast : lastName christened.1 ⟨5⟩ = some clefs := by decide +kernel
  obtain rfl : text = clefs := Option.some.inj (htext.symm.trans hlast)
  obtain ⟨-, -, -, hroom, -⟩ := names_clamped.1 clefs
  have hcut : Name.clamp clefs = .ofList (List.replicate 15 '𝄞') := by decide +kernel
  exact ⟨h, by decide +kernel, hlong, c, hc, hname.trans hcut, hname ▸ hroom hlong⟩

end Scene

end SceneGraph
