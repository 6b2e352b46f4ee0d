import Mathlib.Algebra.GroupWithZero.Nat
import Mathlib.Algebra.Order.BigOperators.Group.List
import Mathlib.Algebra.Order.Group.Nat
import SceneGraph.Proofs.Blindness
import SceneGraph.Proofs.EagerMatrices
import SceneGraph.Proofs.Exchanges
import SceneGraph.Proofs.RoundTrips
import SceneGraph.Session.Control

/-!
# What a frame does

Whatever was asked of a session before, a frame carries out the commands pushed since the last one,
in the order of their pushes, and then brings matrices and batches up to date. A record that holds
no command, and a command that is refused, leave no trace but in the report. The frame leaves the
queue of commands drained, so that the next frame can take what is pushed until then.
-/

namespace SceneGraph

/-- Whether a command asks for a readback. -/
def Command.asks : Command → Bool
  | copyTextureToCpu _ => true
  | _ => false

theorem sublist_concat {α : Type} {qs ps : List α} {p : α} (h : qs.Sublist (ps ++ [p])) :
    qs.Sublist ps ∨ ∃ front, qs = front ++ [p] ∧ front.Sublist ps := by
  obtain ⟨front, last, rfl, hfront, hlast⟩ := List.sublist_append_iff.mp h
  rcases List.sublist_singleton.mp hlast with rfl | rfl
  · exact .inl (by simpa using hfront)
  · exact .inr ⟨front, rfl, hfront⟩

/-- What a producer pushes: a command, or a record of any content. -/
inductive Pushed where
  | command (c : Command)
  | raw (tag : UInt32) (payload : Bytes)
deriving DecidableEq, Repr

namespace Pushed

def tag : Pushed → UInt32
  | command c => c.kind.tag
  | raw tag _ => tag

def payload : Pushed → Bytes
  | command c => c.payload
  | raw _ payload => payload

/-- The command that the consumer finds in it, if it finds one. -/
def command? (p : Pushed) : Option Command :=
  match Command.decode p.tag p.payload with
  | .ok c => some c
  | .error _ => none

/-- The number of bytes that it takes in the queue. -/
def size (p : Pushed) : ℕ := 24 + p.payload.length

def asks (p : Pushed) : Bool := p.command?.any Command.asks

/-- What the consumer sees of it. -/
def record (p : Pushed) : Pushed := .raw p.tag p.payload

theorem command?_command {c : Command} (h : c.TextsFit) : (command c).command? = some c := by
  have hread : Command.decode (command c).tag (command c).payload = .ok c := c.decode_parts h
  rw [command?, hread]

end Pushed

/-- A record that was found, as something pushed. -/
def Record.pushed (r : Record) : Pushed := .raw r.kind r.payload

namespace Stage

variable {t : Stage} {p : Pushed} {ps : List Pushed} {c : Command} {report : ApplyReport}

/-- What becomes of a command: whether a readback is posted, or why it is refused. -/
def outcome (t : Stage) (c : Command) : Except SceneError Bool :=
  match apply c t with
  | .ok posted _ => .ok posted
  | .error e _ => .error e

/-- The stage after a command, refused or not. -/
def after (t : Stage) (c : Command) : Stage :=
  match apply c t with
  | .ok _ t' => t'
  | .error _ t' => t'

/-- What becomes of a record. -/
def verdict (t : Stage) (p : Pushed) : Except SceneError Bool :=
  match applyRecord p.tag p.payload t with
  | .ok posted _ => .ok posted
  | .error e _ => .error e

/-- The stage after a record, whatever it holds. -/
def next (t : Stage) (p : Pushed) : Stage :=
  match applyRecord p.tag p.payload t with
  | .ok _ t' => t'
  | .error _ t' => t'

/-- What becomes of one record after the other. -/
def verdicts : Stage → List Pushed → List (Except SceneError Bool)
  | _, [] => []
  | t, p :: ps => t.verdict p :: (t.next p).verdicts ps

/-- The records that hold a command which is not refused, each when its turn comes. -/
def survivors : Stage → List Pushed → List Pushed
  | _, [] => []
  | t, p :: ps => match t.verdict p with
    | .ok _ => p :: (t.next p).survivors ps
    | .error _ => (t.next p).survivors ps

theorem outcome_eq (t : Stage) (c : Command) : t.outcome c = match c.edit t.scene with
    | .ok _ s => .ok (c.reply? s).isSome
    | .error e _ => .error e := by
  rw [outcome, Scene.run_apply]
  cases c.edit t.scene with
  | ok u s => cases hr : c.reply? s <;> simp [hr]
  | error e s => rfl

theorem scene_after (t : Stage) (c : Command) : (t.after c).scene = t.scene.after c.edit := by
  rw [after, Scene.run_apply, Scene.after]
  cases c.edit t.scene with
  | ok u s => cases hr : c.reply? s <;> simp [hr]
  | error e s => rfl

theorem verdict_of_command (h : p.command? = some c) :
    t.verdict p = t.outcome c ∧ t.next p = t.after c := by
  have hread : Command.decode p.tag p.payload = .ok c := by
    unfold Pushed.command? at h
    split at h
    · next c' hc =>
      cases h
      exact hc
    · cases h
  simp only [verdict, next, outcome, after, applyRecord, hread, and_self]

theorem verdict_of_malformed (h : p.command? = none) :
    (∃ e, t.verdict p = .error (.malformed e)) ∧ t.next p = t := by
  unfold Pushed.command? at h
  split at h
  · cases h
  · next e he =>
    simp only [verdict, next, applyRecord, he]
    exact ⟨⟨e, rfl⟩, rfl⟩

/-- A command is never refused as if its record held none. -/
theorem isRefusal_of_outcome {e : SceneError} (h : t.outcome c = .error e) : e.IsRefusal := by
  rw [outcome_eq] at h
  have hblind := Scene.blind_command c (Scene.Alike.refl t.scene)
  cases he : c.edit t.scene with
  | ok u s =>
    rw [he] at h
    cases h
  | error e' s =>
    rw [he] at h hblind
    cases h
    cases hblind with
    | error hrefusal _ => exact hrefusal

theorem edit_copy {s : Scene} {id : ComponentId} {x : Texture} (h : s.texture id = .ok x) :
    (Command.copyTextureToCpu id).edit s = .ok () s := by
  change EStateM.map _ (Scene.ask fun s => s.texture id) s = _
  rw [EStateM.map, Scene.run_ask_ok h]

theorem edit_copy_error {s : Scene} {id : ComponentId} {e : SceneError}
    (h : s.texture id = .error e) : (Command.copyTextureToCpu id).edit s = .error e s := by
  change EStateM.map _ (Scene.ask fun s => s.texture id) s = _
  rw [EStateM.map, Scene.run_ask_error h]

/-- A readback is posted for the commands that ask for one, and for no others. -/
theorem posted_eq {posted : Bool} (h : t.outcome c = .ok posted) : posted = c.asks := by
  rw [outcome_eq] at h
  cases he : c.edit t.scene with
  | error e s =>
    rw [he] at h
    cases h
  | ok u s =>
    rw [he] at h
    cases h
    cases c with
    | copyTextureToCpu id =>
      cases htexture : t.scene.texture id with
      | error e =>
        rw [edit_copy_error htexture] at he
        cases he
      | ok x =>
        rw [edit_copy htexture] at he
        cases he
        simp only [Command.reply?, htexture]
        rfl
    | _ => rfl

section Valid

variable [Mat4.Arithmetic]

theorem valid_after (hv : t.scene.Valid) (c : Command) : (t.after c).scene.Valid := by
  rw [scene_after]
  exact (Scene.command_outcome hv c).steps.valid hv

theorem valid_next (hv : t.scene.Valid) (p : Pushed) : (t.next p).scene.Valid := by
  cases hp : p.command? with
  | none =>
    rw [(verdict_of_malformed hp).2]
    exact hv
  | some c =>
    rw [(verdict_of_command hp).2]
    exact valid_after hv c

/-- A refused command leaves the stage as it was. -/
theorem after_of_refused (hv : t.scene.Valid) {e : SceneError} (h : t.outcome c = .error e) :
    t.after c = t := by
  have hout := Scene.command_outcome hv c
  rw [outcome_eq] at h
  rw [after, Scene.run_apply]
  cases he : c.edit t.scene with
  | ok u s =>
    rw [he] at h
    cases h
  | error e' s =>
    rw [he] at hout
    have hs : s = t.scene := hout
    rw [hs]

theorem next_of_error (hv : t.scene.Valid) {e : SceneError} (h : t.verdict p = .error e) :
    t.next p = t := by
  cases hp : p.command? with
  | none => exact (verdict_of_malformed hp).2
  | some c =>
    obtain ⟨hverdict, hnext⟩ := verdict_of_command (t := t) hp
    rw [hnext]
    exact after_of_refused hv (hverdict ▸ h)

end Valid

section Drains

/-- One record of a drain, with the count. -/
def tally (x : Stage × ApplyReport) (p : Pushed) : Stage × ApplyReport :=
  (x.1.next p, x.2.count (x.1.verdict p))

theorem drainRecord_eq (x : Stage × ApplyReport) (r : Record) :
    drainRecord x r = tally x r.pushed := by
  unfold drainRecord tally next verdict Record.pushed Pushed.tag Pushed.payload
  cases applyRecord r.kind r.payload x.1 <;> rfl

/-- A drain goes through the records as they were pushed. -/
theorem foldl_drainRecord {rs : List Record} (h : rs.map Record.pushed = ps.map Pushed.record)
    (x : Stage × ApplyReport) : rs.foldl drainRecord x = ps.foldl tally x := by
  have hrecords : rs.foldl drainRecord x = (rs.map Record.pushed).foldl tally x := by
    rw [List.foldl_map]
    exact List.foldl_ext _ _ _ fun x r _ => drainRecord_eq x r
  rw [hrecords, h, List.foldl_map]
  rfl

theorem drain_eq (t : Stage) (q : Queue) :
    drain t q = (q.records.map Record.pushed).foldl tally (t, {}) := by
  refine foldl_drainRecord ?_ (t, {})
  rw [List.map_map]
  rfl

/-- Only the tag and the payload of a record count. -/
theorem verdicts_record (ps : List Pushed) (t : Stage) :
    t.verdicts (ps.map Pushed.record) = t.verdicts ps := by
  induction ps generalizing t with
  | nil => rfl
  | cons p ps ih => exact congrArg (t.verdict p :: ·) (ih (t.next p))

theorem foldl_tally_snd (ps : List Pushed) (x : Stage × ApplyReport) :
    (ps.foldl tally x).2 = (x.1.verdicts ps).foldl ApplyReport.count x.2 := by
  induction ps generalizing x with
  | nil => rfl
  | cons p ps ih => rw [List.foldl_cons, ih, tally, verdicts, List.foldl_cons]

/-- Records that hold no command are passed over. -/
theorem foldl_next (ps : List Pushed) (t : Stage) :
    ps.foldl next t = (ps.filterMap Pushed.command?).foldl after t := by
  induction ps generalizing t with
  | nil => rfl
  | cons p ps ih =>
    rw [List.foldl_cons, ih]
    cases hp : p.command? with
    | none => rw [List.filterMap_cons_none hp, (verdict_of_malformed hp).2]
    | some c => rw [List.filterMap_cons_some hp, (verdict_of_command hp).2, List.foldl_cons]

theorem foldl_tally_fst (ps : List Pushed) (x : Stage × ApplyReport) :
    (ps.foldl tally x).1 = ps.foldl next x.1 := by
  induction ps generalizing x with
  | nil => rfl
  | cons p ps ih => exact ih (tally x p)

theorem total_count (report : ApplyReport) (o : Except SceneError Bool) :
    (report.count o).total = report.total + 1 := by
  unfold ApplyReport.count ApplyReport.total
  split <;> dsimp only <;> omega

theorem total_foldl_tally (ps : List Pushed) (x : Stage × ApplyReport) :
    (ps.foldl tally x).2.total = x.2.total + ps.length := by
  induction ps generalizing x with
  | nil => rfl
  | cons p ps ih =>
    rw [List.foldl_cons, ih, tally, total_count, List.length_cons]
    omega

theorem malformed_foldl_tally (ps : List Pushed) (x : Stage × ApplyReport) :
    (ps.foldl tally x).2.malformed =
      x.2.malformed + ps.countP fun p => p.command?.isNone := by
  induction ps generalizing x with
  | nil => rfl
  | cons p ps ih =>
    rw [List.foldl_cons, ih, tally, List.countP_cons]
    cases hp : p.command? with
    | none =>
      obtain ⟨⟨e, he⟩, -⟩ := verdict_of_malformed (t := x.1) hp
      rw [he]
      simp only [ApplyReport.count, Option.isNone_none, if_true]
      omega
    | some c =>
      rw [(verdict_of_command hp).1]
      have hcount : (x.2.count (x.1.outcome c)).malformed = x.2.malformed := by
        cases ho : x.1.outcome c with
        | ok posted => rfl
        | error e =>
          have hrefusal := isRefusal_of_outcome ho
          cases e with
          | malformed cause => exact hrefusal.elim
          | _ => rfl
      rw [hcount]
      simp

theorem applied_foldl_tally (ps : List Pushed) (x : Stage × ApplyReport) :
    (ps.foldl tally x).2.applied = x.2.applied + (x.1.survivors ps).length := by
  induction ps generalizing x with
  | nil => rfl
  | cons p ps ih =>
    rw [List.foldl_cons, ih, tally, survivors]
    cases x.1.verdict p with
    | ok posted =>
      simp only [ApplyReport.count, List.length_cons]
      omega
    | error e => cases e <;> rfl

theorem readbacks_foldl_tally (ps : List Pushed) (x : Stage × ApplyReport) :
    (ps.foldl tally x).2.readbacks = x.2.readbacks + (x.1.survivors ps).countP Pushed.asks := by
  induction ps generalizing x with
  | nil => rfl
  | cons p ps ih =>
    rw [List.foldl_cons, ih, tally, survivors]
    cases hv : x.1.verdict p with
    | error e => cases e <;> rfl
    | ok posted =>
      have hposted : posted = p.asks := by
        cases hp : p.command? with
        | none =>
          obtain ⟨⟨e, he⟩, -⟩ := verdict_of_malformed (t := x.1) hp
          rw [he] at hv
          cases hv
        | some c =>
          rw [(verdict_of_command hp).1] at hv
          rw [posted_eq hv, Pushed.asks, hp]
          rfl
      simp only [ApplyReport.count, List.countP_cons, hposted]
      omega

/-- Without the records that hold no command and those that are refused the stage is the same. -/
theorem foldl_survivors [Mat4.Arithmetic] (hv : t.scene.Valid) (ps : List Pushed) :
    ((t.survivors ps).filterMap Pushed.command?).foldl after t =
      (ps.filterMap Pushed.command?).foldl after t := by
  induction ps generalizing t with
  | nil => rfl
  | cons p ps ih =>
    rw [survivors]
    cases hp : p.command? with
    | none =>
      obtain ⟨⟨e, he⟩, hnext⟩ := verdict_of_malformed (t := t) hp
      simp only [he, hnext, List.filterMap_cons_none hp]
      exact ih hv
    | some c =>
      have hnext := (verdict_of_command (t := t) hp).2
      rw [List.filterMap_cons_some hp, List.foldl_cons, ← hnext]
      cases hverdict : t.verdict p with
      | ok posted =>
        dsimp only
        rw [List.filterMap_cons_some hp, List.foldl_cons, ← hnext]
        exact ih (valid_next hv p)
      | error e =>
        dsimp only
        rw [next_of_error hv hverdict]
        exact ih hv

theorem survivors_sublist (t : Stage) (ps : List Pushed) : (t.survivors ps).Sublist ps := by
  induction ps generalizing t with
  | nil => exact .slnil
  | cons p ps ih =>
    rw [survivors]
    cases t.verdict p with
    | ok posted => exact (ih _).cons_cons p
    | error e => exact (ih _).cons p

theorem valid_foldl_after [Mat4.Arithmetic] (hv : t.scene.Valid) (cs : List Command) :
    (cs.foldl after t).scene.Valid := by
  induction cs generalizing t with
  | nil => exact hv
  | cons c cs ih => exact ih (valid_after hv c)

end Drains

end Stage

namespace Session

variable {config : SessionConfig} {s : Session} {ps : List Pushed} {n : ℕ}

/-- What commands are carried out on. -/
def stage (s : Session) : Stage := ⟨s.scene, s.readbacks⟩

/-- The bytes that wait are those of these records, in this order. -/
def Waiting (q : Queue) (ps : List Pushed) : Prop :=
  ∃ rs, q.write.Holds rs ∧ rs.map Record.pushed = ps.map Pushed.record

theorem waiting_push {q : Queue} (h : Waiting q ps) (p : Pushed) {parts : List Bytes}
    (hparts : parts.flatten = p.payload) (hfits : (q.push p.tag parts).2.pending < UInt64.size) :
    Waiting (q.push p.tag parts).2 (ps ++ [p]) := by
  obtain ⟨rs, hholds, hrs⟩ := h
  refine ⟨_, Queue.holds_push hholds p.tag parts hfits, ?_⟩
  rw [List.map_append, List.map_append, hrs, List.map_singleton, List.map_singleton, hparts]
  rfl

theorem pending_eq {q : Queue} (h : Waiting q ps) : q.pending = (ps.map Pushed.size).sum := by
  obtain ⟨rs, hholds, hrs⟩ := h
  have hstop := hholds.adjacent.stop_eq
  have hbytes : rs.map (fun r => r.bytes.length) = ps.map Pushed.size := by
    have hsizes := congrArg (List.map Pushed.size) hrs
    rw [List.map_map, List.map_map] at hsizes
    simp only [Record.length_bytes]
    exact hsizes
  rw [Nat.zero_add, List.length_flatMap, hbytes] at hstop
  exact hstop

/-- What is kept from call to call: a valid scene, a drained read side, and the records that were
pushed since the last frame. -/
structure Ready [Mat4.Arithmetic] (s : Session) (ps : List Pushed) : Prop where
  valid : s.scene.Valid
  drained : s.commands.readable = 0
  waiting : Waiting s.commands ps

/-- What becomes of the records that the next frame takes, one after the other. -/
def verdicts (s : Session) : List (Except SceneError Bool) :=
  s.stage.verdicts (s.takeCommands.2.commands.records.map Record.pushed)

/-- With nothing left of what was taken before, all that waits is taken. -/
theorem takeCommands_drained (h : s.commands.readable = 0) : s.takeCommands =
    (s.commands.pending,
      { s with commands := ⟨s.commands.read, s.commands.write, s.commands.swaps + 1⟩ }) := by
  rw [takeCommands, Queue.swap_drained h]

theorem stage_takeCommands (s : Session) : s.takeCommands.2.stage = s.stage := by
  unfold takeCommands
  split <;> rfl

/-- A frame goes through the records that it takes. -/
theorem drain_taken (s : Session) :
    Stage.drain s.takeCommands.2.stage s.takeCommands.2.commands =
      (s.takeCommands.2.commands.records.map Record.pushed).foldl Stage.tally (s.stage, {}) := by
  rw [stage_takeCommands, Stage.drain_eq]

/-- A frame counts what becomes of the records. -/
theorem apply_frame [Mat4.Arithmetic] (s : Session) :
    s.frame.1.apply = s.verdicts.foldl ApplyReport.count {} := by
  change (Stage.drain s.takeCommands.2.stage s.takeCommands.2.commands).2 = _
  rw [drain_taken, Stage.foldl_tally_snd]
  rfl

/-- What a frame has to do with the records that were pushed since the last one. -/
structure Framed [Mat4.Arithmetic] (s : Session) (ps : List Pushed) (report : FrameReport)
    (s' : Session) : Prop where
  scene : s'.scene = ((ps.filterMap Pushed.command?).foldl Stage.after
    s.stage).scene.rebuildAllMatrices.1.rebuildStaleGeometries.2
  readbacks : s'.readbacks =
    ((ps.filterMap Pushed.command?).foldl Stage.after s.stage).readbacks
  total : report.apply.total = ps.length
  malformed : report.apply.malformed = ps.countP fun p => p.command?.isNone
  applied : report.apply.applied = (Stage.survivors s.stage ps).length
  posted : report.apply.readbacks =
    (Stage.survivors s.stage ps).countP Pushed.asks
  commandBytes : report.commandBytes = (ps.map fun p => 24 + p.payload.length).sum
  frame : report.frame = s.frames.current + 1 ∧ s'.frames.current = report.frame
  drained : s'.commands.readable = 0 ∧ s'.commands.pending = 0

namespace Ready

variable [Mat4.Arithmetic] (h : Ready s ps)
include h

theorem swap_eq : s.commands.swap = .ok (s.commands.pending,
    ⟨s.commands.read, s.commands.write, s.commands.swaps + 1⟩) :=
  Queue.swap_drained h.drained

theorem frame_eq (report : ApplyReport) (t : Stage)
    (hdrain : ps.foldl Stage.tally (s.stage, {}) = (t, report)) :
    s.frame = (
      { frame := s.frames.current + 1
        commandBytes := s.commands.pending
        apply := report
        rebuild := t.scene.rebuildAllMatrices.2
        geometriesRebuilt := t.scene.rebuildAllMatrices.1.rebuildStaleGeometries.1 },
      { scene := t.scene.rebuildAllMatrices.1.rebuildStaleGeometries.2
        commands := Queue.clear ⟨s.commands.read, s.commands.write, s.commands.swaps + 1⟩
        readbacks := t.readbacks
        frames := s.frames.advance }) := by
  obtain ⟨rs, hholds, hrs⟩ := h.waiting
  have hrecords : Queue.records ⟨s.commands.read, s.commands.write, s.commands.swaps + 1⟩ = rs :=
    Queue.records_eq hholds
  have hrun : Stage.drain ⟨s.scene, s.readbacks⟩
      ⟨s.commands.read, s.commands.write, s.commands.swaps + 1⟩ = (t, report) := by
    rw [Stage.drain, hrecords, Stage.foldl_drainRecord hrs]
    exact hdrain
  unfold frame
  rw [takeCommands_drained h.drained]
  dsimp only [advance, drain]
  rw [hrun]
  rfl

/-- The next frame takes the records of what was pushed. -/
theorem taken_eq :
    s.takeCommands.2.commands.records.map Record.pushed = ps.map Pushed.record := by
  obtain ⟨rs, hholds, hrs⟩ := h.waiting
  rw [takeCommands_drained h.drained, ← hrs]
  exact congrArg (List.map Record.pushed) (Queue.records_eq hholds)

theorem verdicts_eq : s.verdicts = s.stage.verdicts ps := by
  rw [verdicts, h.taken_eq, Stage.verdicts_record]

theorem framed : Framed s ps s.frame.1 s.frame.2 := by
  generalize hrun : ps.foldl Stage.tally (s.stage, {}) = result
  obtain ⟨t, report⟩ := result
  have hstage := (Stage.foldl_tally_fst ps (s.stage, {})).trans (Stage.foldl_next ps _)
  have htotal := Stage.total_foldl_tally ps (s.stage, {})
  have hmalformed := Stage.malformed_foldl_tally ps (s.stage, {})
  have happlied := Stage.applied_foldl_tally ps (s.stage, {})
  have hposted := Stage.readbacks_foldl_tally ps (s.stage, {})
  rw [hrun] at hstage htotal hmalformed happlied hposted
  rw [h.frame_eq report t hrun]
  refine ⟨?_, ?_, ?_, ?_, ?_, ?_, pending_eq h.waiting, ⟨rfl, rfl⟩, rfl, h.drained⟩
  · rw [← hstage]
  · rw [← hstage]
  · exact htotal.trans (Nat.zero_add _)
  · exact hmalformed.trans (Nat.zero_add _)
  · exact happlied.trans (Nat.zero_add _)
  · exact hposted.trans (Nat.zero_add _)

theorem valid_frame : s.frame.2.scene.Valid := by
  rw [h.framed.scene]
  have hstage : ((ps.filterMap Pushed.command?).foldl Stage.after
      s.stage).scene.Valid := Stage.valid_foldl_after h.valid _
  exact (Scene.steps_rebuildStaleGeometries _).valid hstage.rebuildAllMatrices

theorem frame : Ready s.frame.2 [] where
  valid := h.valid_frame
  drained := h.framed.drained.1
  waiting := by
    have hpending : s.frame.2.commands.write.live.length = 0 := by
      rw [Arena.length_live]
      exact h.framed.drained.2
    exact ⟨[], .nil (List.eq_nil_of_length_eq_zero hpending), rfl⟩

/-- A push of whatever holds the tag and the payload. -/
theorem pushed {p : Pushed} {parts : List Bytes} (hparts : parts.flatten = p.payload)
    (hfits : (s.commands.push p.tag parts).2.pending < UInt64.size) :
    Ready { s with commands := (s.commands.push p.tag parts).2 } (ps ++ [p]) where
  valid := h.valid
  drained := h.drained
  waiting := waiting_push h.waiting p hparts hfits

/-- What can be pushed after some records can be pushed after a part of them. -/
theorem fits {s' : Session} {qs : List Pushed} (h' : Ready s' qs) (hsub : qs.Sublist ps)
    {tag : UInt32} {parts : List Bytes}
    (hfits : (s.commands.push tag parts).2.pending < UInt64.size) :
    (s'.commands.push tag parts).2.pending < UInt64.size := by
  have hsum : (qs.map Pushed.size).sum ≤ (ps.map Pushed.size).sum :=
    (hsub.map Pushed.size).sum_le_sum fun _ _ => Nat.zero_le _
  rw [Queue.pending_push, pending_eq h.waiting] at hfits
  rw [Queue.pending_push, pending_eq h'.waiting]
  omega

theorem source (ids : IdSource) : Ready { s with scene := { s.scene with ids } } ps where
  valid := h.valid.source ids
  drained := h.drained
  waiting := h.waiting

end Ready

/-- A session after any calls on a new one: the number of its frames, and what was pushed since the
last of them. The bytes that wait never outgrow a word. -/
inductive History [Mat4.Arithmetic] (config : SessionConfig) : ℕ → List Pushed → Session → Prop
  | new : History config 0 [] (new config)
  | push {n : ℕ} {ps : List Pushed} {s : Session} (h : History config n ps s) (c : Command)
      (hfits : (s.push c).pending < UInt64.size) :
      History config n (ps ++ [.command c]) (s.push c)
  | pushRaw {n : ℕ} {ps : List Pushed} {s : Session} (h : History config n ps s) (tag : UInt32)
      (payload : Bytes) (hfits : (s.pushRaw tag payload).2.pending < UInt64.size) :
      History config n (ps ++ [.raw tag payload]) (s.pushRaw tag payload).2
  | create {n : ℕ} {ps : List Pushed} {s : Session} (h : History config n ps s)
      (command : ComponentId → Command)
      (hfits : (s.create command).2.pending < UInt64.size) :
      History config n (ps ++ [.command (command s.allocate.1)]) (s.create command).2
  | allocate {n : ℕ} {ps : List Pushed} {s : Session} (h : History config n ps s) :
      History config n ps s.allocate.2
  | reserve {n : ℕ} {ps : List Pushed} {s : Session} (h : History config n ps s)
      (id : ComponentId) : History config n ps { s with scene := s.scene.reserve id }
  | poll {n : ℕ} {ps : List Pushed} {s : Session} (h : History config n ps s) :
      History config n ps s.poll.2
  | frame {n : ℕ} {ps : List Pushed} {s : Session} (h : History config n ps s) :
      History config (n + 1) [] s.frame.2

namespace History

variable [Mat4.Arithmetic]

theorem ready (h : History config n ps s) : Ready s ps := by
  induction h with
  | new => exact ⟨Scene.valid_empty, rfl, [], .nil rfl, rfl⟩
  | push h c hfits ih => exact ih.pushed (p := .command c) rfl hfits
  | pushRaw h tag payload hfits ih =>
    exact ih.pushed (p := .raw tag payload) (List.append_nil payload) hfits
  | @create n ps s h command hfits ih =>
    exact (ih.source _).pushed (p := .command (command s.allocate.1)) rfl hfits
  | allocate h ih => exact ih.source _
  | reserve h id ih => exact ih.source _
  | poll h ih => exact ⟨ih.valid, ih.drained, ih.waiting⟩
  | frame h ih => exact ih.frame

theorem frames_eq (h : History config n ps s) : s.frames.current = n := by
  induction h with
  | new => rfl
  | frame h ih =>
    obtain ⟨hreport, hcurrent⟩ := h.ready.framed.frame
    rw [hcurrent, hreport, ih]
  | push h c hfits ih | pushRaw h tag payload hfits ih | create h command hfits ih
  | allocate h ih | reserve h id ih | poll h ih => exact ih

/-- Any of the pushes since the last frame can be left out of a session. -/
theorem without (h : History config n ps s) {qs : List Pushed} (hsub : qs.Sublist ps) :
    ∃ s', History config n qs s' ∧ s'.scene = s.scene ∧ s'.readbacks = s.readbacks := by
  induction h generalizing qs with
  | new =>
    obtain rfl := List.sublist_nil.mp hsub
    exact ⟨_, .new, rfl, rfl⟩
  | frame h ih =>
    obtain rfl := List.sublist_nil.mp hsub
    exact ⟨_, .frame h, rfl, rfl⟩
  | poll h ih =>
    obtain ⟨s', h', hscene, hreadbacks⟩ := ih hsub
    refine ⟨_, .poll h', hscene, ?_⟩
    rw [Session.poll, hreadbacks]
    rfl
  | allocate h ih =>
    obtain ⟨s', h', hscene, hreadbacks⟩ := ih hsub
    exact ⟨_, .allocate h', congrArg (fun s => s.allocate.2) hscene, hreadbacks⟩
  | reserve h id ih =>
    obtain ⟨s', h', hscene, hreadbacks⟩ := ih hsub
    exact ⟨_, .reserve h' id, congrArg (fun s => s.reserve id) hscene, hreadbacks⟩
  | push h c hfits ih =>
    rcases sublist_concat hsub with hsub | ⟨front, rfl, hfront⟩
    · exact ih hsub
    · obtain ⟨s', h', hscene, hreadbacks⟩ := ih hfront
      exact ⟨_, .push h' c (h.ready.fits h'.ready hfront hfits), hscene, hreadbacks⟩
  | pushRaw h tag payload hfits ih =>
    rcases sublist_concat hsub with hsub | ⟨front, rfl, hfront⟩
    · exact ih hsub
    · obtain ⟨s', h', hscene, hreadbacks⟩ := ih hfront
      exact ⟨_, .pushRaw h' tag payload (h.ready.fits h'.ready hfront hfits), hscene, hreadbacks⟩
  | @create n ps s h command hfits ih =>
    rcases sublist_concat hsub with hsub | ⟨front, rfl, hfront⟩
    · obtain ⟨s', h', hscene, hreadbacks⟩ := ih hsub
      exact ⟨_, .allocate h', congrArg (fun s => s.allocate.2) hscene, hreadbacks⟩
    · obtain ⟨s', h', hscene, hreadbacks⟩ := ih hfront
      have hid : s.allocate.1 = s'.allocate.1 := congrArg (fun s => s.allocate.1) hscene.symm
      have hfits' : (s'.push (command s.allocate.1)).pending < UInt64.size :=
        h.ready.fits h'.ready hfront hfits
      rw [hid] at hfits' ⊢
      exact ⟨_, .create h' command hfits', congrArg (fun s => s.allocate.2) hscene, hreadbacks⟩

end History

theorem scene_foldl_after (cs : List Command) (t : Stage) :
    (cs.foldl Stage.after t).scene = cs.foldl (fun s c => s.after c.edit) t.scene := by
  induction cs generalizing t with
  | nil => rfl
  | cons c cs ih => rw [List.foldl_cons, List.foldl_cons, ih, Stage.scene_after]

/-- In every session a frame takes what was pushed since the last one, and does what the commands in
it ask for directly. Without what is malformed and what is refused, the same calls bring the session
to a frame that leaves the same scene. -/
theorem History.applied_directly [Mat4.Arithmetic] (h : History config n ps s) :
    s.commands.swap = .ok (s.commands.pending,
      ⟨s.commands.read, s.commands.write, s.commands.swaps + 1⟩) ∧
    Framed s ps s.frame.1 s.frame.2 ∧ s.frame.1.frame = n + 1 ∧
    (∀ c, .command c ∈ ps → c.TextsFit → (Pushed.command c).command? = some c) ∧
    (∃ s', History config n (Stage.survivors s.stage ps) s' ∧ s'.scene = s.scene) ∧
    ∀ n' s', History config n' (Stage.survivors s.stage ps) s' →
      s'.scene = s.scene → s'.frame.2.scene = s.frame.2.scene := by
  have hready := h.ready
  refine ⟨hready.swap_eq, hready.framed, ?_, fun c _ hfit => Pushed.command?_command hfit, ?_, ?_⟩
  · rw [hready.framed.frame.1, h.frames_eq]
  · obtain ⟨s', h', hscene, -⟩ := h.without (Stage.survivors_sublist s.stage ps)
    exact ⟨s', h', hscene⟩
  · intro n' s' h' hscene
    rw [h'.ready.framed.scene, hready.framed.scene, scene_foldl_after]
    have hsame := congrArg Stage.scene (Stage.foldl_survivors (t := s.stage) hready.valid ps)
    rw [scene_foldl_after, scene_foldl_after] at hsame
    have hstart : s'.stage.scene = s.stage.scene := hscene
    rw [scene_foldl_after, hstart, hsame]

/-- After a first frame: a texture, a request for its pixels, a record without a command, and a node
that would be its own child. -/
theorem applied_directly_mixed : ∃ s,
    History {} 1 [.command (.createTexture ⟨2⟩ 1 1 "sky"), .command (.copyTextureToCpu ⟨2⟩),
      .raw 99 [1, 2], .command (.addChild ⟨1⟩ ⟨1⟩)] s ∧
    s.frame.1.apply.total = 4 ∧ s.frame.1.apply.malformed = 1 ∧ s.frame.1.apply.readbacks = 1 ∧
    s.frame.1.commandBytes = 141 ∧ s.frame.1.frame = 2 := by
  have h : History {} _ _ _ := (((((History.new.create (.createTransform · "hub")
    (by decide)).frame).create (.createTexture · 1 1 "sky") (by decide)).push
    (.copyTextureToCpu ⟨2⟩) (by decide)).pushRaw 99 [1, 2] (by decide)).push (.addChild ⟨1⟩ ⟨1⟩)
    (by decide)
  obtain ⟨-, hframed, hframe, -⟩ := h.applied_directly
  exact ⟨_, h, hframed.total, hframed.malformed.trans (by decide), hframed.posted.trans (by decide),
    hframed.commandBytes, hframe⟩

end Session

end SceneGraph
