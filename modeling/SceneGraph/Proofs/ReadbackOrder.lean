import SceneGraph.Proofs.Frames
import SceneGraph.Proofs.References

/-!
# Readbacks

The pixels of a texture can be told from the commands that were accepted: they are those written
last since the texture was created. A readback carries the pixels of the moment at which its command
was carried out. It waits, with the others and in their order, on a queue of its own, where nothing
that happens to the texture reaches it, until the control side polls.
-/

namespace SceneGraph

/-- The size of a texture and its pixels. -/
structure Picture where
  width : UInt32
  height : UInt32
  pixels : Bytes

/-- What a texture shows when it was just created. -/
def Picture.blank (width height : UInt32) : Picture :=
  ⟨width, height, List.replicate (Texture.byteLength width height) 0⟩

def Texture.picture (t : Texture) : Picture := ⟨t.width, t.height, t.pixels⟩

/-- What is in the fields of a texture; other components have no such fields. -/
def Entry.picture? (e : Entry) : Option Picture :=
  match e.datum? .size, e.datum? .pixels with
  | some (.size width height), some (.pixels pixels) => some ⟨width, height, pixels⟩
  | _, _ => none

namespace Command

/-- The command makes or unmakes a texture. -/
def Restarts (id : ComponentId) : Command → Prop
  | createTexture x _ _ _ | destroy x => x = id
  | _ => False

/-- The pixels that a command gives to a texture. -/
def writes? (id : ComponentId) : Command → Option Bytes
  | textureWrite x pixels => if x = id then some pixels else none
  | _ => none

variable {c : Command} {id : ComponentId}

theorem not_restarts (hcreate : ∀ width height name, c ≠ .createTexture id width height name)
    (hdestroy : c ≠ .destroy id) : ¬ c.Restarts id := by
  intro hr
  cases c with
  | createTexture x width height name =>
    obtain rfl : x = id := hr
    exact hcreate width height name rfl
  | destroy x =>
    obtain rfl : x = id := hr
    exact hdestroy rfl
  | _ => exact hr

theorem writes?_eq_none (hwrite : ∀ pixels, c ≠ .textureWrite id pixels) :
    c.writes? id = none := by
  cases c with
  | textureWrite x pixels =>
    refine if_neg ?_
    rintro rfl
    exact hwrite pixels rfl
  | _ => rfl

end Command

/-- What commands that were accepted, one after the other, leave of a texture: the size it was
created with, and as many pixels as that asks for, which are those written last since then. -/
def Painted (cs : List Command) (id : ComponentId) (p : Picture) : Prop :=
  p.pixels.length = Texture.byteLength p.width p.height ∧
  ∃ before name later, cs = before ++ .createTexture id p.width p.height name :: later ∧
    (∀ c ∈ later, ¬ c.Restarts id) ∧
    p.pixels = (later.filterMap (Command.writes? id)).getLast?.getD
      (Picture.blank p.width p.height).pixels

namespace Painted

variable {cs : List Command} {c : Command} {id : ComponentId} {p : Picture}

theorem created (cs : List Command) (id : ComponentId) (width height : UInt32) (name : String) :
    Painted (cs ++ [.createTexture id width height name]) id (.blank width height) :=
  ⟨List.length_replicate .., cs, name, [], rfl, by simp, rfl⟩

/-- One more command that neither makes nor unmakes the texture. -/
theorem concat (h : Painted cs id p) (hc : ¬ c.Restarts id) {pixels : Bytes}
    (hpixels : pixels = (c.writes? id).getD p.pixels)
    (hlength : pixels.length = Texture.byteLength p.width p.height) :
    Painted (cs ++ [c]) id { p with pixels } := by
  obtain ⟨-, before, name, later, rfl, hlater, hp⟩ := h
  refine ⟨hlength, before, name, later ++ [c], by simp, fun d hd => ?_, ?_⟩
  · rcases List.mem_append.mp hd with hd | hd
    · exact hlater d hd
    · rwa [List.mem_singleton.mp hd]
  · rw [hpixels, hp]
    cases hw : c.writes? id <;> simp [hw]

end Painted

section Changes

variable {id : ComponentId} {p : Picture} {last : Option Entry}

/-- A change that shows nothing on a texture. -/
def Change.Plain (id : ComponentId) : Change → Prop
  | created kind x _ => x = id → kind ≠ .texture
  | assigned x d => x = id → d.field ≠ .size ∧ d.field ≠ .pixels
  | destroyed _ => True

theorem Entry.picture?_new {kind : ComponentKind} {name : String} (h : kind ≠ .texture) :
    (Entry.new kind name).picture? = none := by
  simp [picture?, new, Field.initial, h]

theorem Entry.picture?_assign {d : Datum} (hsize : d.field ≠ .size) (hpixels : d.field ≠ .pixels)
    (e : Entry) : (e.assign [d]).picture? = e.picture? := by
  simp [picture?, assign, Datum.assign, hsize, hpixels]

/-- What is there after a change was there before, if the change did not bring it. -/
theorem Change.Plain.picture {c : Change} (hc : c.Plain id)
    (h : (c.tell id last).bind Entry.picture? = some p) : last.bind Entry.picture? = some p := by
  cases c with
  | created kind x name =>
    by_cases hx : x = id
    · simp [tell, hx, Entry.picture?_new (hc hx)] at h
    · simpa [tell, hx] using h
  | assigned x d =>
    by_cases hx : x = id
    · obtain ⟨hsize, hpixels⟩ := hc hx
      simpa [tell, hx, Option.bind_map, Function.comp_def, Entry.picture?_assign hsize hpixels]
        using h
    · simpa [tell, hx] using h
  | destroyed x =>
    by_cases hx : x = id
    · simp [tell, hx] at h
    · simpa [tell, hx] using h

theorem picture_foldl_tell {cs : List Change} (hcs : ∀ c ∈ cs, c.Plain id)
    (h : (cs.foldl (Change.tell id) last).bind Entry.picture? = some p) :
    last.bind Entry.picture? = some p := by
  induction cs generalizing last with
  | nil => exact h
  | cons c cs ih =>
    have hrest := ih (fun d hd => hcs d (List.mem_cons_of_mem _ hd)) h
    exact (hcs c List.mem_cons_self).picture hrest

/-- Only the creation of a texture and the writing of its pixels show on it. -/
theorem Command.plain_changes {c : Command} (hcreate : ∀ w h name, c ≠ .createTexture id w h name)
    (hwrite : ∀ pixels, c ≠ .textureWrite id pixels) (s : Scene) :
    ∀ d ∈ c.changes s, d.Plain id := by
  cases c with
  | createTexture x w h name =>
    have hx : x ≠ id := by
      rintro rfl
      exact hcreate w h name rfl
    simp [changes, Change.Plain, hx]
  | textureWrite x pixels =>
    have hx : x ≠ id := by
      rintro rfl
      exact hwrite pixels rfl
    simp [changes, Change.Plain, hx]
  | updateMesh mesh =>
    change ∀ d ∈ s.meshChanges mesh, d.Plain id
    unfold Scene.meshChanges
    split <;> simp [Change.Plain]
  | _ => simp [changes, Change.Plain, Datum.field]

end Changes

namespace Scene

variable {s s' : Scene} {cs : List Command} {c : Command} {id : ComponentId} {p : Picture}

/-- What a texture shows; none if there is no such texture. -/
def pictureOf (s : Scene) (id : ComponentId) : Option Picture :=
  (s.entryOf id).bind Entry.picture?

theorem entryOf_of_texture {t : Texture} (h : s.texture id = .ok t) :
    s.entryOf id = some (Component.texture t).entry := by
  have ht := texture_eq_ok.mp h
  obtain ⟨k, hkind, hk⟩ := kindOf?_of_rowAt ht
  obtain rfl : k = .texture := of_decide_eq_true hk
  have hcomponent : s.component id = .ok (.texture t) := by
    rw [component_eq, hkind, Option.bind_some, rowOf, View.map, ht]
    rfl
  rw [entryOf, hcomponent]

theorem pictureOf_of_texture {t : Texture} (h : s.texture id = .ok t) :
    s.pictureOf id = some t.picture := by
  rw [pictureOf, entryOf_of_texture h]
  rfl

/-- The accepted commands tell what every texture shows. -/
def Shows (s : Scene) (cs : List Command) : Prop :=
  ∀ id p, s.pictureOf id = some p → Painted cs id p

theorem Shows.quiet [Mat4.Arithmetic] {as : List Aside} (h : Shows s cs) (hsteps : Steps as s [] s')
    (hv : Valid s) (hc : View.Closed s.contents) : Shows s' cs := by
  intro id p hp
  rw [pictureOf, hsteps.entryOf_eq hv hc] at hp
  exact h id p hp

/-- Pixels are only written in the number that the texture asks for. -/
theorem textureWrite_ok {pixels : Bytes} (h : (Command.textureWrite id pixels).edit s = .ok () s') :
    ∃ t, s.texture id = .ok t ∧ pixels.length = Texture.byteLength t.width t.height := by
  change writeTexture id pixels s = .ok () s' at h
  cases ht : s.texture id with
  | error e =>
    have hrun : writeTexture id pixels s = .error e s := bind_error (run_ask_error ht)
    rw [hrun] at h
    cases h
  | ok t =>
    refine ⟨t, rfl, ?_⟩
    by_contra hlength
    have hrun : writeTexture id pixels s =
        .error (.textureSize id (Texture.byteLength t.width t.height) pixels.length) s := by
      refine (bind_ok (run_ask_ok ht)).trans ?_
      simp only [if_pos hlength]
      rfl
    rw [hrun] at h
    cases h

section Accepted

variable [Mat4.Arithmetic] (hv : Valid s) (hc : View.Closed s.contents) (hok : c.edit s = .ok () s')
include hv hc hok

theorem pictureOf_accepted (id : ComponentId) : s'.pictureOf id =
    ((c.changes s).foldl (Change.tell id) (s.entryOf id)).bind Entry.picture? := by
  rw [pictureOf, (steps_of_accepted hv hok).entryOf_eq hv hc]

theorem pictureOf_created {width height : UInt32} {name : String}
    (hcreate : c = .createTexture id width height name) :
    s'.pictureOf id = some (.blank width height) := by
  rw [pictureOf_accepted hv hc hok, hcreate]
  simp [Command.changes, Change.tell, Entry.picture?, Entry.assign, Datum.assign, Datum.field,
    Picture.blank]

theorem pictureOf_written {pixels : Bytes} (hwrite : c = .textureWrite id pixels) :
    ∃ q, s.pictureOf id = some q ∧ pixels.length = Texture.byteLength q.width q.height ∧
      s'.pictureOf id = some { q with pixels } := by
  obtain ⟨t, ht, hlength⟩ := textureWrite_ok (hwrite ▸ hok)
  refine ⟨t.picture, pictureOf_of_texture ht, hlength, ?_⟩
  rw [pictureOf_accepted hv hc hok, hwrite]
  simp [Command.changes, Change.tell, entryOf_of_texture ht, Entry.picture?, Entry.assign,
    Datum.assign, Datum.field, Component.entry, Component.datum?, Texture.datum?, Texture.picture]

theorem pictureOf_destroyed (hdestroy : c = .destroy id) : s'.pictureOf id = none := by
  rw [pictureOf_accepted hv hc hok, hdestroy]
  simp [Command.changes, Change.tell]

/-- One more command is accepted. -/
theorem Shows.next (h : Shows s cs) : Shows s' (cs ++ [c]) := by
  intro id p hp
  by_cases hcreate : ∀ width height name, c ≠ .createTexture id width height name
  · by_cases hwrite : ∀ pixels, c ≠ .textureWrite id pixels
    · have hdestroy : c ≠ .destroy id := by
        intro hdestroy
        rw [pictureOf_destroyed hv hc hok hdestroy] at hp
        cases hp
      rw [pictureOf_accepted hv hc hok] at hp
      have hpainted := h id p (picture_foldl_tell (Command.plain_changes hcreate hwrite s) hp)
      refine hpainted.concat (Command.not_restarts hcreate hdestroy) ?_ hpainted.1
      rw [Command.writes?_eq_none hwrite]
      rfl
    · obtain ⟨pixels, hwrite⟩ := not_forall_not.mp hwrite
      obtain ⟨q, hq, hlength, hnew⟩ := pictureOf_written hv hc hok hwrite
      obtain rfl := Option.some.inj (hnew.symm.trans hp)
      have hrestarts : ¬ c.Restarts id := hwrite ▸ not_false
      refine (h id q hq).concat hrestarts ?_ hlength
      simp [hwrite, Command.writes?]
  · obtain ⟨width, hcreate⟩ := not_forall.mp hcreate
    obtain ⟨height, hcreate⟩ := not_forall.mp hcreate
    obtain ⟨name, hcreate⟩ := not_forall_not.mp hcreate
    obtain rfl := Option.some.inj ((pictureOf_created hv hc hok hcreate).symm.trans hp)
    rw [hcreate]
    exact .created cs id width height name

end Accepted

end Scene

/-- Readbacks answer commands: there is one for each command that asks for one, in their order, and
it carries what the texture shows after the commands before. -/
inductive Answered : List Command → List Readback → Prop
  | nil : Answered [] []
  | other {cs : List Command} {es : List Readback} {c : Command} (h : Answered cs es)
      (hc : c.asks = false) : Answered (cs ++ [c]) es
  | copy {cs : List Command} {es : List Readback} {id : ComponentId} {p : Picture}
      (h : Answered cs es) (hp : Painted cs id p) :
      Answered (cs ++ [.copyTextureToCpu id])
        (es ++ [.textureData id p.width p.height p.pixels])

namespace Readback

/-- A readback, as something pushed. -/
def pushed (r : Readback) : Pushed := .raw r.kind.tag r.parts.flatten

/-- Taking gives all readbacks that wait, and leaves none. -/
theorem takeAll_eq {q : Queue} {es : List Readback} (h : Session.Waiting q (es.map pushed))
    (hdrained : q.readable = 0) :
    (takeAll q).1 = es ∧ Session.Waiting (takeAll q).2 [] ∧ (takeAll q).2.readable = 0 := by
  obtain ⟨rs, hholds, hrs⟩ := h
  have hrecords : Queue.records ⟨q.read, q.write, q.swaps + 1⟩ = rs := Queue.records_eq hholds
  have hread : ∀ r : Readback, (decode r.pushed.tag r.pushed.payload).toOption = some r := by
    intro r
    rw [pushed, Pushed.tag, Pushed.payload, r.decode_parts]
    rfl
  have hdecoded : rs.filterMap (fun r => (decode r.kind r.payload).toOption) = es := by
    have hes := congrArg (List.filterMap fun p => (decode p.tag p.payload).toOption) hrs
    simp only [List.filterMap_map, Function.comp_def] at hes
    refine hes.trans ((List.filterMap_congr fun r _ => hread r).trans List.filterMap_some)
  have hlive : q.read.live = [] := by
    rw [← List.length_eq_zero_iff, q.read.length_live]
    exact hdrained
  simp only [takeAll, Queue.swap_drained hdrained, hrecords, hdecoded]
  exact ⟨trivial, ⟨[], .nil hlive, rfl⟩, rfl⟩

end Readback

namespace Stage

variable {t : Stage} {c : Command}

theorem after_reply {s : Scene} {r : Readback} (hok : c.edit t.scene = .ok () s)
    (hr : c.reply? s = some r) :
    t.after c = ⟨s, (t.readbacks.push r.kind.tag r.parts).2⟩ := by
  rw [after, Scene.run_apply, hok]
  simp only [hr]

theorem after_silent {s : Scene} (hok : c.edit t.scene = .ok () s) (hr : c.reply? s = none) :
    t.after c = ⟨s, t.readbacks⟩ := by
  rw [after, Scene.run_apply, hok]
  simp only [hr]

/-- A readback carries the texture as it is when the command is carried out. -/
theorem of_reply {s : Scene} {r : Readback} (hok : c.edit t.scene = .ok () s)
    (hr : c.reply? s = some r) : ∃ id x, c = .copyTextureToCpu id ∧
      t.scene.texture id = .ok x ∧ r = .textureData id x.width x.height x.pixels := by
  cases c with
  | copyTextureToCpu id =>
    cases hx : t.scene.texture id with
    | error e =>
      rw [edit_copy_error hx] at hok
      cases hok
    | ok x =>
      rw [edit_copy hx] at hok
      cases hok
      simp only [Command.reply?, hx, Option.some.injEq] at hr
      exact ⟨id, x, rfl, hx, hr.symm⟩
  | _ => cases hr

theorem asks_of_silent {s : Scene} (hok : c.edit t.scene = .ok () s) (hr : c.reply? s = none) :
    c.asks = false := by
  have hposted : t.outcome c = .ok (c.reply? s).isSome := by rw [outcome_eq, hok]
  rw [← posted_eq hposted, hr]
  rfl

theorem pending_le_after (t : Stage) (c : Command) :
    t.readbacks.pending ≤ (t.after c).readbacks.pending := by
  rw [after, Scene.run_apply]
  cases c.edit t.scene with
  | error e s => exact le_rfl
  | ok u s =>
    cases hr : c.reply? s with
    | none => simp [hr]
    | some r =>
      simp only [hr, Queue.pending_push]
      omega

theorem pending_le_foldl_next (t : Stage) (ps : List Pushed) :
    t.readbacks.pending ≤ (ps.foldl next t).readbacks.pending := by
  rw [foldl_next]
  generalize ps.filterMap Pushed.command? = cs
  induction cs generalizing t with
  | nil => exact le_rfl
  | cons c cs ih => exact (t.pending_le_after c).trans (ih _)

end Stage

/-- What is kept while commands are carried out: `done` are those accepted so far, `polled` the
readbacks that were handed over, and `posted` those that wait. -/
structure Reporting [Mat4.Arithmetic] (done : List Command) (polled posted : List Readback)
    (t : Stage) : Prop where
  valid : t.scene.Valid
  closed : View.Closed t.scene.contents
  shows : t.scene.Shows done
  drained : t.readbacks.readable = 0
  waiting : Session.Waiting t.readbacks (posted.map Readback.pushed)
  answered : Answered done (polled ++ posted)

namespace Reporting

variable {done : List Command} {polled posted : List Readback} {t : Stage} {c : Command}
  {s : Scene}

variable [Mat4.Arithmetic]

/-- An accepted command posts the readback that it asks for, if it does. -/
theorem after (h : Reporting done polled posted t) (hok : c.edit t.scene = .ok () s)
    (hfits : (t.after c).readbacks.pending < UInt64.size) :
    ∃ new, Reporting (done ++ [c]) polled (posted ++ new) (t.after c) := by
  have hsteps := Scene.steps_of_accepted h.valid hok
  have hvalid := hsteps.valid h.valid
  have hclosed := hsteps.closed h.valid h.closed
  have hshows := h.shows.next h.valid h.closed hok
  cases hr : c.reply? s with
  | none =>
    rw [Stage.after_silent hok hr]
    refine ⟨[], hvalid, hclosed, hshows, h.drained, ?_, ?_⟩
    · rw [List.append_nil]
      exact h.waiting
    · rw [List.append_nil]
      exact .other h.answered (Stage.asks_of_silent hok hr)
  | some r =>
    rw [Stage.after_reply hok hr] at hfits ⊢
    refine ⟨[r], hvalid, hclosed, hshows, h.drained, ?_, ?_⟩
    · rw [List.map_append]
      exact Session.waiting_push h.waiting r.pushed rfl hfits
    · obtain ⟨id, x, rfl, hx, rfl⟩ := Stage.of_reply hok hr
      rw [← List.append_assoc]
      exact .copy h.answered (h.shows id _ (Scene.pictureOf_of_texture hx))

/-- A drain answers the commands that it accepts. -/
theorem run (h : Reporting done polled posted t) (ps : List Pushed)
    (hfits : (ps.foldl Stage.next t).readbacks.pending < UInt64.size) :
    ∃ new, Reporting (done ++ (t.survivors ps).filterMap Pushed.command?) polled (posted ++ new)
      (ps.foldl Stage.next t) := by
  induction ps generalizing done posted t with
  | nil => exact ⟨[], by simpa [Stage.survivors] using h⟩
  | cons p ps ih =>
    rw [List.foldl_cons] at hfits ⊢
    rw [Stage.survivors]
    cases hverdict : t.verdict p with
    | error e =>
      rw [Stage.next_of_error h.valid hverdict] at hfits ⊢
      exact ih h hfits
    | ok b =>
      cases hp : p.command? with
      | none =>
        obtain ⟨⟨e, he⟩, -⟩ := Stage.verdict_of_malformed (t := t) hp
        rw [he] at hverdict
        cases hverdict
      | some c =>
        obtain ⟨houtcome, hnext⟩ := Stage.verdict_of_command (t := t) hp
        rw [hverdict, Stage.outcome_eq] at houtcome
        cases hedit : c.edit t.scene with
        | error e s =>
          rw [hedit] at houtcome
          cases houtcome
        | ok u s =>
          have hnow : (t.after c).readbacks.pending < UInt64.size := by
            rw [← hnext]
            exact (Stage.pending_le_foldl_next _ ps).trans_lt hfits
          obtain ⟨new, hnew⟩ := h.after hedit hnow
          rw [← hnext] at hnew
          obtain ⟨more, hmore⟩ := ih hnew hfits
          refine ⟨new ++ more, ?_⟩
          dsimp only
          rwa [List.filterMap_cons_some hp, List.append_cons, ← List.append_assoc]

/-- The scene goes through steps that make no changes. -/
theorem quiet {as : List Aside} (h : Reporting done polled posted t)
    (hsteps : Scene.Steps as t.scene [] s) :
    Reporting done polled posted { t with scene := s } where
  valid := hsteps.valid h.valid
  closed := hsteps.closed h.valid h.closed
  shows := h.shows.quiet hsteps h.valid h.closed
  drained := h.drained
  waiting := h.waiting
  answered := h.answered

end Reporting

namespace Session

/-- The commands that the next frame takes and does not refuse. -/
def accepted (s : Session) : List Command :=
  (s.stage.survivors (s.takeCommands.2.commands.records.map Record.pushed)).filterMap
    Pushed.command?

/-- Pushes, frames and polls lead from one session to another: the commands that frames accepted on
the way, and the readbacks that polls gave. The bytes that wait never outgrow a word. -/
inductive Traffic [Mat4.Arithmetic] (s₀ : Session) : List Command → List Readback → Session → Prop
  | refl : Traffic s₀ [] [] s₀
  | push {cs : List Command} {es : List Readback} {s : Session} (h : Traffic s₀ cs es s)
      (c : Command) (hfits : (s.push c).pending < UInt64.size) : Traffic s₀ cs es (s.push c)
  | pushRaw {cs : List Command} {es : List Readback} {s : Session} (h : Traffic s₀ cs es s)
      (tag : UInt32) (payload : Bytes) (hfits : (s.pushRaw tag payload).2.pending < UInt64.size) :
      Traffic s₀ cs es (s.pushRaw tag payload).2
  | create {cs : List Command} {es : List Readback} {s : Session} (h : Traffic s₀ cs es s)
      (command : ComponentId → Command) (hfits : (s.create command).2.pending < UInt64.size) :
      Traffic s₀ cs es (s.create command).2
  | frame {cs : List Command} {es : List Readback} {s : Session} (h : Traffic s₀ cs es s)
      (hfits : s.frame.2.readbacks.pending < UInt64.size) :
      Traffic s₀ (cs ++ s.accepted) es s.frame.2
  | poll {cs : List Command} {es : List Readback} {s : Session} (h : Traffic s₀ cs es s) :
      Traffic s₀ cs (es ++ s.poll.1) s.poll.2

variable {config : SessionConfig} {s₀ s : Session} {ps : List Pushed}
  {cs done : List Command} {es polled posted : List Readback}

theorem reporting_new [Mat4.Arithmetic] (config : SessionConfig) :
    Reporting [] [] [] (new config).stage where
  valid := Scene.valid_empty
  closed := Scene.closed_empty
  shows id p h := by cases h
  drained := rfl
  waiting := ⟨[], .nil rfl, rfl⟩
  answered := .nil

/-- A frame posts the readbacks that the commands it accepts ask for. -/
theorem Ready.reporting_frame [Mat4.Arithmetic] (h : Ready s ps)
    (hr : Reporting done polled posted s.stage)
    (hfits : s.frame.2.readbacks.pending < UInt64.size) :
    ∃ new, Reporting (done ++ s.accepted) polled (posted ++ new) s.frame.2.stage := by
  have hstage : (ps.filterMap Pushed.command?).foldl Stage.after s.stage =
      (ps.map Pushed.record).foldl Stage.next s.stage := by
    rw [← Stage.foldl_next, List.foldl_map]
    rfl
  rw [h.framed.readbacks, hstage] at hfits
  obtain ⟨new, hnew⟩ := hr.run (ps.map Pushed.record) hfits
  refine ⟨new, ?_⟩
  rw [stage, h.framed.scene, h.framed.readbacks, hstage, accepted, h.taken_eq]
  exact (hnew.quiet (Scene.steps_rebuildAllMatrices hnew.valid)).quiet
    (Scene.steps_rebuildStaleGeometries _)

theorem reporting_poll [Mat4.Arithmetic] (h : Reporting done polled posted s.stage) :
    s.poll.1 = posted ∧ Reporting done (polled ++ posted) [] s.poll.2.stage := by
  obtain ⟨hes, hwaiting, hdrained⟩ := Readback.takeAll_eq h.waiting h.drained
  refine ⟨hes, h.valid, h.closed, h.shows, hdrained, hwaiting, ?_⟩
  rw [List.append_nil]
  exact h.answered

/-- Whatever goes on, the readbacks that wait are handed over first. -/
theorem Traffic.reporting [Mat4.Arithmetic] (h : Traffic s₀ cs es s) (hready : ∃ ps, Ready s₀ ps)
    (hr : Reporting done polled posted s₀.stage) : (∃ ps, Ready s ps) ∧
      ∃ posted' later, Reporting (done ++ cs) (polled ++ es) posted' s.stage ∧
        es ++ posted' = posted ++ later := by
  induction h with
  | refl => exact ⟨hready, posted, [], by simpa using hr, by simp⟩
  | push h c hfits ih =>
    obtain ⟨⟨ps, hps⟩, hreporting⟩ := ih
    exact ⟨⟨_, hps.pushed (p := .command c) rfl hfits⟩, hreporting⟩
  | pushRaw h tag payload hfits ih =>
    obtain ⟨⟨ps, hps⟩, hreporting⟩ := ih
    exact ⟨⟨_, hps.pushed (p := .raw tag payload) (List.append_nil payload) hfits⟩, hreporting⟩
  | @create cs es s h command hfits ih =>
    obtain ⟨⟨ps, hps⟩, posted', later, hreporting, hlater⟩ := ih
    exact ⟨⟨_, (hps.source _).pushed (p := .command (command s.allocate.1)) rfl hfits⟩, posted',
      later, ⟨hreporting.valid.source _, hreporting.closed, hreporting.shows, hreporting.drained,
        hreporting.waiting, hreporting.answered⟩, hlater⟩
  | frame h hfits ih =>
    obtain ⟨⟨ps, hps⟩, posted', later, hreporting, hlater⟩ := ih
    obtain ⟨new, hnew⟩ := hps.reporting_frame hreporting hfits
    refine ⟨⟨[], hps.frame⟩, posted' ++ new, later ++ new, ?_, ?_⟩
    · rwa [← List.append_assoc]
    · rw [← List.append_assoc, hlater, List.append_assoc]
  | poll h ih =>
    obtain ⟨⟨ps, hps⟩, posted', later, hreporting, hlater⟩ := ih
    obtain ⟨hes, hpolled⟩ := reporting_poll hreporting
    refine ⟨⟨ps, hps.valid, hps.drained, hps.waiting⟩, [], later, ?_, ?_⟩
    · rwa [hes, ← List.append_assoc]
    · rw [hes, List.append_nil, hlater]

/-- In every session that only takes commands, what the polls gave and one more poll would give is
one readback for each accepted command that asks for one, in their order, with what the texture
shows then. Whatever happens afterwards only adds to them. -/
theorem Traffic.exactly_once [Mat4.Arithmetic] (h : Traffic (new config) cs es s) :
    Answered cs (es ++ s.poll.1) ∧
    ∀ ds fs s', Traffic s ds fs s' → ∃ later, fs ++ s'.poll.1 = s.poll.1 ++ later := by
  obtain ⟨hready, posted, -, hreporting, -⟩ :=
    h.reporting ⟨[], Scene.valid_empty, rfl, [], .nil rfl, rfl⟩ (reporting_new config)
  have hposted := (reporting_poll hreporting).1
  refine ⟨?_, fun ds fs s' h' => ?_⟩
  · rw [hposted]
    exact hreporting.answered
  · obtain ⟨-, posted', later, hreporting', hlater⟩ := h'.reporting hready hreporting
    rw [(reporting_poll hreporting').1, hposted]
    exact ⟨later, hlater⟩

/-- The pixels of a texture are asked for before they are written and after. Then other pixels are
written, and the texture is destroyed, before anything is polled. -/
theorem Traffic.exactly_once_gone : ∃ cs s, Traffic (new {}) cs [] s ∧ cs.length = 6 ∧
    Answered cs [.textureData ⟨1⟩ 1 1 [0, 0, 0, 0], .textureData ⟨1⟩ 1 1 [1, 2, 3, 4]] ∧
    s.scene.kindOf? ⟨1⟩ = none := by
  have hnew : Traffic (new {}) [] [] (new {}) := .refl
  have hwritten := (((hnew.create (.createTexture · 1 1 "sky") (by decide)).push
    (.copyTextureToCpu ⟨1⟩) (by decide)).push (.textureWrite ⟨1⟩ [1, 2, 3, 4]) (by decide)).push
    (.copyTextureToCpu ⟨1⟩) (by decide)
  have hgone : Traffic (new {}) _ [] _ := (((hwritten.frame (by decide +kernel)).push
    (.textureWrite ⟨1⟩ [5, 6, 7, 8]) (by decide +kernel)).push (.destroy ⟨1⟩)
    (by decide +kernel)).frame (by decide +kernel)
  refine ⟨_, _, hgone, by decide +kernel, ?_, by decide +kernel⟩
  exact hgone.exactly_once.1

end Session

end SceneGraph
