import SceneGraph.Proofs.Frames
import SceneGraph.Proofs.Lifetimes

/-!
# Handles

The control side has an identifier in hand before there is anything under it: the creation that was
queued with it comes first among the commands that can name it. In between, the graphics side draws
from the same source and reserves what it inserts. What makes this safe is kept from call to call:
the source has passed all that was drawn, a creation that waits has its identifier to itself, and
what was created is there until it is destroyed.
-/

namespace SceneGraph

/-- The command creates something of that kind under the identifier, needs nothing else to be there,
and travels whole. -/
structure Command.Brings (c : Command) (k : ComponentKind) (x : ComponentId) : Prop where
  creates : c.creates? = some (k, x)
  material : k ≠ .material
  mesh : k ≠ .mesh
  fits : c.TextsFit

/-- A command creates nothing, except that a mesh may be bound anew whose identifier is known. -/
def Command.Follows (returned : List ComponentId) : Command → Prop
  | updateMesh mesh _ _ => mesh ∈ returned
  | c => c.creates? = none

/-- The ways to ask for something new under an identifier that is still to be drawn. -/
inductive Creator : (ComponentId → Command) → Prop
  | transform (name : String) : Creator (.createTransform · name)
  | geometry (name : String) : Creator (.createGeometry · name)
  | shader (vertex fragment : String) : Creator (.createShader · vertex fragment)
  | material (shader : ComponentId) (name : String) : Creator (.createMaterial · shader name)
  | mesh (geometry material : ComponentId) (name : String) :
      Creator (.createMesh · geometry material name)
  | texture (width height : UInt32) (name : String) : Creator (.createTexture · width height name)

section Commands

variable {c d : Command} {id x : ComponentId} {k : ComponentKind} {returned : List ComponentId}

theorem Command.Follows.creates (h : c.Follows returned) : c.creates? = none := by
  cases c with
  | updateMesh => rfl
  | _ => exact h

theorem Command.Follows.mem (h : c.Follows returned) (hx : .reserve x ∈ c.asides) :
    x ∈ returned := by
  have hnone := h.creates
  cases c with
  | updateMesh mesh =>
    obtain rfl : x = mesh := by simpa [Command.asides] using hx
    exact h
  | _ => simp_all [Command.asides, Command.creates?]

theorem Creator.eq_of_asides {command : ComponentId → Command} (h : Creator command)
    (hx : .reserve x ∈ (command id).asides) : x = id := by
  cases h <;> simpa [Command.asides] using hx

/-- A record gives its command back, except that it may cut off what is too long of a shader. -/
theorem Pushed.command?_cases (h : (command c).command? = some d) :
    d = c ∨ ∃ id v f v' f', c = .createShader id v f ∧ d = .createShader id v' f' := by
  by_cases hfit : c.TextsFit
  · rw [command?_command hfit] at h
    exact .inl (Option.some.inj h).symm
  · cases c with
    | createShader id v f =>
      refine .inr ⟨id, v, f, ?_⟩
      unfold command? at h
      split at h
      · next d' hread =>
        cases h
        rw [tag, payload, Command.decode, CommandKind.read_tag] at hread
        simp only [Command.kind, Command.payload, Command.parts, List.flatten_cons, bind,
          Except.bind, Command.ofPayload, Payload.split_write_append] at hread
        split at hread
        · cases hread
        · next texts _ => exact ⟨texts.1, texts.2, rfl, (Except.ok.inj hread).symm⟩
      · cases h
    | _ => exact absurd trivial hfit

/-- Cut off or not, a creation stays one of the same kind under the same identifier. -/
theorem Pushed.like_of_command? (h : (command c).command? = some d) :
    d.asides = c.asides ∧ d.creates? = c.creates? ∧ ∀ x, d = .destroy x → c = .destroy x := by
  obtain rfl | ⟨id, v, f, v', f', rfl, rfl⟩ := command?_cases h
  · exact ⟨rfl, rfl, fun _ h => h⟩
  · exact ⟨rfl, rfl, fun x h => by cases h⟩

end Commands

section Cuts

/-- The first bytes of a text are no text themselves if they end inside a character. -/
theorem Bytes.toString?_take {s : String} {n : ℕ} (hn : n ≤ s.utf8ByteSize)
    (hinside : ¬ (⟨n⟩ : String.Pos.Raw).IsValid s) : toString? ((ofString s).take n) = none := by
  rw [Option.eq_none_iff_forall_ne_some]
  intro t ht
  apply hinside
  have hbytes : s.toByteArray.extract 0 n = t.toByteArray := by
    ext1
    rw [← Array.toList_inj]
    simpa [ofString] using toString?_eq_some_iff.mp ht
  refine String.Pos.Raw.isValid_iff_isValidUTF8_extract_zero.mpr ⟨hn, ?_⟩
  rw [hbytes]
  exact t.isValidUTF8

theorem Command.length_payload_createShader (id : ComponentId) (v f : String) :
    (createShader id v f).payload.length = 16 + v.utf8ByteSize + f.utf8ByteSize := by
  simp [payload, parts, Layout.length_write, Nat.add_assoc]
  rfl

/-- The record of a shader holds no command if the word for the length of the first text is too small
for it, and its largest value ends inside a character. -/
theorem Command.decode_cut (id : ComponentId) {v : String} (f : String)
    (hlong : 0xffffffff ≤ v.utf8ByteSize)
    (hinside : ¬ (⟨0xffffffff⟩ : String.Pos.Raw).IsValid v) :
    decode CommandKind.createShader.tag (createShader id v f).payload =
      .error (.invalidText "CreateShader") := by
  have hv : (lengthWord v).toNat = 0xffffffff := by
    rw [toNat_lengthWord_eq_min, min_eq_right hlong]
  have hf : (lengthWord f).toNat ≤ f.utf8ByteSize := by
    rw [toNat_lengthWord_eq_min]
    exact min_le_left ..
  have hfull : ¬ (Bytes.ofString v ++ Bytes.ofString f).length <
      0xffffffff + (lengthWord f).toNat := by
    rw [List.length_append, Bytes.length_ofString, Bytes.length_ofString]
    omega
  have hfront : (Bytes.ofString v ++ Bytes.ofString f).take 0xffffffff =
      (Bytes.ofString v).take 0xffffffff :=
    List.take_append_of_le_length (by rwa [Bytes.length_ofString])
  rw [decode, CommandKind.read_tag]
  simp only [payload, parts, List.flatten_cons, List.flatten_nil, List.append_nil, bind,
    Except.bind, ofPayload, Payload.split_write_append]
  rw [shaderTexts, hv, if_neg hfull, hfront]
  simp only [Payload.text, Bytes.toString?_take hlong hinside, bind, Except.bind]
  rfl

/-- So many letters that take one byte each, and one that takes two. -/
def lettered (n : ℕ) : String := .ofList (.replicate n 'a') ++ "é"

theorem utf8ByteSize_ofList_replicate (n : ℕ) :
    (String.ofList (.replicate n 'a')).utf8ByteSize = n := by
  induction n with
  | zero => rfl
  | succ n ih =>
    rw [List.replicate_succ, String.ofList_cons, String.utf8ByteSize_append, ih,
      String.utf8ByteSize_singleton, Nat.add_comm]
    rfl

theorem utf8ByteSize_lettered (n : ℕ) : (lettered n).utf8ByteSize = n + 2 := by
  rw [lettered, String.utf8ByteSize_append, utf8ByteSize_ofList_replicate]
  rfl

theorem not_isValid_lettered (n : ℕ) : ¬ (⟨n + 1⟩ : String.Pos.Raw).IsValid (lettered n) := by
  rw [lettered, String.Pos.Raw.isValid_append]
  rintro (h | ⟨-, h⟩)
  · have hle : n + 1 ≤ (String.ofList (.replicate n 'a')).utf8ByteSize := h.le_rawEndPos
    rw [utf8ByteSize_ofList_replicate] at hle
    omega
  · have hfirst : (⟨n + 1⟩ : String.Pos.Raw) - String.ofList (.replicate n 'a') = ⟨1⟩ := by
      rw [String.Pos.Raw.ext_iff, String.Pos.Raw.byteIdx_sub_string, utf8ByteSize_ofList_replicate]
      exact Nat.add_sub_cancel_left n 1
    rw [hfirst] at h
    exact absurd h (by decide)

end Cuts

namespace Scene

/-- What all steps keep of a scene. -/
structure Based [Mat4.Arithmetic] (s : Scene) : Prop where
  valid : Valid s
  closed : View.Closed s.contents
  covered : Covered s

theorem Steps.based [Mat4.Arithmetic] {as : List Aside} {cs : List Change} {s s' : Scene}
    (h : Steps as s cs s') (hs : Based s) : Based s' :=
  ⟨h.valid hs.valid, h.closed hs.valid hs.closed, h.covered hs.valid hs.covered⟩

/-- What is kept from call to call: `returned` are the identifiers that were drawn, `done` the
commands that were carried out, and `waiting` those still to come. -/
structure Tracked [Mat4.Arithmetic] (returned : List ComponentId) (done waiting : List Command)
    (s : Scene) : Prop extends Based s where
  counted : s.ids.next.toNat = returned.length + 1
  nodup : returned.Nodup
  null : .null ∉ returned
  issued : ∀ x ∈ returned, s.ids.Covers x
  named : ∀ c ∈ waiting, ∀ x, .reserve x ∈ c.asides → x ∈ returned
  /-- What comes before a creation does not bring its identifier into use. -/
  apart : waiting.Pairwise fun b c => ∀ k x, c.creates? = some (k, x) → .reserve x ∉ b.asides
  absent : ∀ c ∈ waiting, ∀ k x, c.creates? = some (k, x) → s.kindOf? x = none
  kept : ∀ front c rest k x, done = front ++ c :: rest → c.Brings k x → .destroy x ∉ rest →
    s.kindOf? x = some k

variable {returned : List ComponentId} {done waiting : List Command} {c d : Command}
  {as : List Aside} {cs : List Change} {s s' : Scene} {t : Stage} {k : ComponentKind}
  {x : ComponentId}

theorem free_of_kindOf? (h : s.kindOf? x = none) : s.slots.get? x = none :=
  Option.map_eq_none_iff.mp h

/-- A command that waits takes a scene through steps, whatever its record gives back. -/
theorem steps_next [Mat4.Arithmetic] (hv : Valid t.scene) (c : Command) :
    ∃ cs, Steps c.asides t.scene cs (t.next (.command c)).scene ∧
      (∀ k x name, .created k x name ∈ cs → .reserve x ∈ c.asides) ∧
      ∀ x, .destroyed x ∈ cs → c = .destroy x := by
  cases hread : (Pushed.command c).command? with
  | none =>
    rw [(Stage.verdict_of_malformed hread).2]
    exact ⟨[], .refl, by simp, by simp⟩
  | some d =>
    obtain ⟨hasides, -, hdestroy⟩ := Pushed.like_of_command? hread
    have hsteps := (command_outcome hv d).steps
    rw [(Stage.verdict_of_command hread).2, Stage.scene_after, ← hasides]
    refine ⟨_, hsteps, fun k x name h => ?_, fun x h => ?_⟩
    · exact created_mem_asides (mem_accepting h).1
    · exact hdestroy x (Command.eq_destroy (mem_accepting h).1)

namespace Tracked

variable [Mat4.Arithmetic]

theorem empty : Tracked [] [] [] {} where
  valid := valid_empty
  closed := closed_empty
  covered := covered_empty
  counted := rfl
  nodup := .nil
  null := List.not_mem_nil
  issued _ h := nomatch h
  named _ h := nomatch h
  apart := .nil
  absent _ h := nomatch h
  kept front c rest k x h := by simp at h

/-- What is drawn is new, and so is what is added to the scene at once under it. -/
theorem drawn (h : Tracked returned done waiting s) (hi : s.ids.next.toNat < UInt64.size - 1)
    (hsteps : Steps [.draw] s cs s') (hids : s'.ids = s.ids.allocate.2)
    (hcs : ∀ e ∈ cs, ∃ k name, e = .created k s.allocate.1 name) :
    Tracked (returned ++ [s.allocate.1]) done waiting s' ∧ s.allocate.1 ∉ returned := by
  have hnew : s.allocate.1 ∉ returned := fun hm =>
    IdSource.not_covers_allocated hi (h.issued _ hm)
  have hnull : s.allocate.1 ≠ .null := fun he =>
    IdSource.not_covers_allocated hi (he ▸ h.covered.null)
  refine ⟨{ hsteps.based h.toBased with
    counted := ?counted, nodup := ?nodup, null := ?null, issued := ?issued, named := ?named,
    apart := h.apart, absent := ?absent, kept := ?kept }, hnew⟩
  case counted =>
    rw [hids, IdSource.allocate_snd, IdSource.toNat_next_succ hi, h.counted, List.length_append]
    rfl
  case nodup =>
    refine List.nodup_append.mpr ⟨h.nodup, List.nodup_singleton _, ?_⟩
    rintro a ha b hb rfl
    exact hnew (List.mem_singleton.mp hb ▸ ha)
  case null => simpa [h.null] using Ne.symm hnull
  case issued =>
    intro x hx
    rw [hids]
    rcases List.mem_append.mp hx with hx | hx
    · exact (h.issued x hx).allocate hi
    · rw [List.mem_singleton.mp hx]
      exact IdSource.covers_allocated hi
  case named => exact fun c hc x hx => List.mem_append_left _ (h.named c hc x hx)
  case absent =>
    intro c hc k x hcreates
    refine hsteps.kindOf?_none h.valid h.closed (h.absent c hc k x hcreates) fun k' name he => ?_
    obtain ⟨_, _, he⟩ := hcs _ he
    cases he
    exact hnew (h.named c hc _ (Command.reserve_of_creates hcreates))
  case kept =>
    intro front c rest k x hdone hc hrest
    have hold := h.kept front c rest k x hdone hc hrest
    refine hsteps.kindOf?_some h.valid h.closed hold fun he => ?_
    obtain ⟨_, _, he⟩ := hcs _ he
    cases he

/-- Another command is queued. -/
theorem queued (h : Tracked returned done waiting s)
    (hnamed : ∀ x, .reserve x ∈ c.asides → x ∈ returned)
    (hcreates : ∀ k x, c.creates? = some (k, x) →
      s.kindOf? x = none ∧ ∀ b ∈ waiting, .reserve x ∉ b.asides) :
    Tracked returned done (waiting ++ [c]) s where
  toBased := h.toBased
  counted := h.counted
  nodup := h.nodup
  null := h.null
  issued := h.issued
  kept := h.kept
  named b hb := by
    rcases List.mem_append.mp hb with hb | hb
    · exact h.named b hb
    · rw [List.mem_singleton.mp hb]
      exact hnamed
  apart := List.pairwise_append.mpr ⟨h.apart, List.pairwise_singleton _ _, by
    rintro b hb c' hc' k x hx
    rw [List.mem_singleton.mp hc'] at hx
    exact (hcreates k x hx).2 b hb⟩
  absent b hb := by
    rcases List.mem_append.mp hb with hb | hb
    · exact h.absent b hb
    · rw [List.mem_singleton.mp hb]
      exact fun k x hx => (hcreates k x hx).1

/-- Nothing comes to be or goes. -/
theorem quiet (h : Tracked returned done waiting s) (hsteps : Steps as s [] s')
    (hdraw : .draw ∉ as) (has : ∀ x, .reserve x ∉ as) : Tracked returned done waiting s' := by
  have hids := hsteps.ids_eq h.valid hdraw fun x hx => absurd hx (has x)
  refine { hsteps.based h.toBased with
    counted := ?counted, nodup := h.nodup, null := h.null, issued := ?issued, named := h.named,
    apart := h.apart, absent := ?absent, kept := ?kept }
  case counted => rw [hids, h.counted]
  case issued =>
    rw [hids]
    exact h.issued
  case absent =>
    intro c hc k x hx
    exact hsteps.kindOf?_none h.valid h.closed (h.absent c hc k x hx) fun _ _ => List.not_mem_nil
  case kept =>
    intro front c rest k x hdone hc hrest
    have hold := h.kept front c rest k x hdone hc hrest
    exact hsteps.kindOf?_some h.valid h.closed hold List.not_mem_nil

section Head

variable (h : Tracked returned done (c :: waiting) t.scene)
include h

theorem ne_null (hx : .reserve x ∈ c.asides) : x ≠ .null := fun he =>
  h.null (he ▸ h.named c List.mem_cons_self x hx)

/-- The first command that waits is not refused for the identifier of something new. -/
theorem clashless (hx : .reserve x ∈ c.asides) {e : SceneError}
    (he : t.verdict (.command c) = .error e) : ¬ e.IsClash := by
  cases hread : (Pushed.command c).command? with
  | none =>
    obtain ⟨⟨cause, hcause⟩, -⟩ := Stage.verdict_of_malformed (t := t) hread
    rw [hcause] at he
    cases he
    exact not_false
  | some d =>
    obtain ⟨hasides, hcreates, -⟩ := Pushed.like_of_command? hread
    have hclashless : Clashless t.scene d.edit := by
      refine command_clashless (hasides ▸ hx) (h.ne_null hx) fun k hk => ?_
      rw [hcreates] at hk
      exact free_of_kindOf? (h.absent c List.mem_cons_self k x hk)
    rw [(Stage.verdict_of_command hread).1, Stage.outcome_eq] at he
    cases hd : d.edit t.scene with
    | ok u s => simp [hd] at he
    | error e' s =>
      simp only [hd, Except.error.injEq] at he
      exact he ▸ hclashless e' s hd

theorem run_brought (hc : c.Brings k x) : ∃ s', c.edit t.scene = .ok () s' :=
  run_created h.valid hc.creates hc.material hc.mesh
    (h.ne_null (Command.reserve_of_creates hc.creates))
    (free_of_kindOf? (h.absent c List.mem_cons_self k x hc.creates))

theorem verdict_brought (hc : c.Brings k x) : t.verdict (.command c) = .ok false := by
  obtain ⟨s', hs'⟩ := h.run_brought hc
  have hposted : t.outcome c = .ok (c.reply? s').isSome := by rw [Stage.outcome_eq, hs']
  have hasks : c.asks = false := by
    have := hc.creates
    cases c <;> first | rfl | cases this
  rw [(Stage.verdict_of_command (Pushed.command?_command hc.fits)).1, hposted,
    Stage.posted_eq hposted, hasks]

theorem kindOf?_brought (hc : c.Brings k x) :
    (t.next (.command c)).scene.kindOf? x = some k := by
  obtain ⟨s', hs'⟩ := h.run_brought hc
  have hscene : (t.next (.command c)).scene = s' := by
    rw [(Stage.verdict_of_command (Pushed.command?_command hc.fits)).2, Stage.scene_after, after,
      hs']
  rw [hscene]
  exact kindOf?_created h.valid h.closed hc.creates hs'

/-- The first command that waits is carried out. -/
theorem next : Tracked returned (done ++ [c]) waiting (t.next (.command c)).scene := by
  obtain ⟨cs, hsteps, hcreated, hdestroyed⟩ := steps_next h.valid c
  have hids := hsteps.ids_eq h.valid draw_not_mem_asides fun x hx =>
    h.issued x (h.named c List.mem_cons_self x hx)
  obtain ⟨happart, hrest⟩ := List.pairwise_cons.mp h.apart
  refine { hsteps.based h.toBased with
    counted := ?counted, nodup := h.nodup, null := h.null, issued := ?issued, named := ?named,
    apart := hrest, absent := ?absent, kept := ?kept }
  case counted => rw [hids, h.counted]
  case issued =>
    rw [hids]
    exact h.issued
  case named => exact fun b hb => h.named b (List.mem_cons_of_mem _ hb)
  case absent =>
    intro b hb k x hx
    have hold := h.absent b (List.mem_cons_of_mem _ hb) k x hx
    refine hsteps.kindOf?_none h.valid h.closed hold fun k' name he => ?_
    exact happart b hb k x hx (hcreated k' x name he)
  case kept =>
    -- the last creation among those done is this command, or else it was done before
    intro front b rest k x hdone hb hnot
    rcases rest.eq_nil_or_concat with rfl | ⟨rest, e, rfl⟩
    · obtain ⟨rfl, he⟩ := List.append_inj' hdone rfl
      obtain rfl := List.singleton_inj.mp he
      exact h.kindOf?_brought hb
    · rw [List.concat_eq_append] at hdone hnot
      rw [← List.cons_append, ← List.append_assoc] at hdone
      obtain ⟨rfl, he⟩ := List.append_inj' hdone rfl
      obtain rfl := List.singleton_inj.mp he
      rw [List.mem_append, not_or, List.mem_singleton] at hnot
      exact hsteps.kindOf?_some h.valid h.closed (h.kept front b rest k x rfl hb hnot.1)
        fun hx => hnot.2 (hdestroyed x hx).symm

end Head

/-- Any number of the commands that wait are carried out. -/
theorem run {front back : List Command} (h : Tracked returned done (front ++ back) t.scene) :
    Tracked returned (done ++ front) back
      ((front.map Pushed.command).foldl Stage.next t).scene := by
  induction front generalizing done t with
  | nil => simpa using h
  | cons c front ih =>
    have hrest := ih (h.next (t := t))
    rwa [List.append_assoc] at hrest

end Tracked

end Scene

theorem Stage.verdicts_getElem? (ps : List Pushed) (t : Stage) (i : ℕ) :
    (t.verdicts ps)[i]? = ps[i]?.map ((ps.take i).foldl next t).verdict := by
  induction ps generalizing t i with
  | nil => rfl
  | cons p ps ih =>
    cases i with
    | zero => rfl
    | succ i => exact ih (t.next p) i

namespace Session

open Scene

theorem pending_create (s : Session) (command : ComponentId → Command) :
    (s.create command).2.pending =
      s.pending + 24 + (command s.allocate.1).payload.length :=
  Queue.pending_push s.commands _ _

/-- What the record at a place in the queue finds when the next frame comes to it. -/
def turn (s : Session) (i : ℕ) : Stage :=
  ((s.takeCommands.2.commands.records.map Record.pushed).take i).foldl Stage.next s.stage

theorem Ready.turn_eq [Mat4.Arithmetic] {s : Session} {ps : List Pushed} (h : Ready s ps) (i : ℕ) :
    s.turn i = (ps.take i).foldl Stage.next s.stage := by
  rw [turn, h.taken_eq, ← List.map_take, List.foldl_map]
  rfl

/-- A session after any calls on a new one, where what is new comes only from creations on either
side: the identifiers that they gave, the commands that frames have carried out, and those that were
pushed since the last frame. The bytes that wait never outgrow a word. -/
inductive Course [Mat4.Arithmetic] (config : SessionConfig) :
    List ComponentId → List Command → List Command → Session → Prop
  | new : Course config [] [] [] (new config)
  | create {returned : List ComponentId} {old waiting : List Command} {s : Session}
      (h : Course config returned old waiting s) {command : ComponentId → Command}
      (hcreator : Creator command) (hfits : (s.create command).2.pending < UInt64.size) :
      Course config (returned ++ [(s.create command).1]) old
        (waiting ++ [command (s.create command).1]) (s.create command).2
  | push {returned : List ComponentId} {old waiting : List Command} {s : Session}
      (h : Course config returned old waiting s) {c : Command} (hc : c.Follows returned)
      (hfits : (s.push c).pending < UInt64.size) :
      Course config returned old (waiting ++ [c]) (s.push c)
  | allocate {returned : List ComponentId} {old waiting : List Command} {s : Session}
      (h : Course config returned old waiting s) :
      Course config (returned ++ [s.allocate.1]) old waiting s.allocate.2
  /-- The graphics side adds to its scene at once. -/
  | make {returned : List ComponentId} {old waiting : List Command} {s : Session}
      (h : Course config returned old waiting s) (kind : ComponentKind) (name : String) :
      Course config (returned ++ [(s.scene.create kind name).1]) old waiting
        { s with scene := (s.scene.create kind name).2 }
  | poll {returned : List ComponentId} {old waiting : List Command} {s : Session}
      (h : Course config returned old waiting s) : Course config returned old waiting s.poll.2
  | frame {returned : List ComponentId} {old waiting : List Command} {s : Session}
      (h : Course config returned old waiting s) :
      Course config returned (old ++ waiting) [] s.frame.2

namespace Course

variable {config : SessionConfig} {returned : List ComponentId} {old waiting : List Command}
  {s : Session}

theorem tracked [Mat4.Arithmetic] (h : Course config returned old waiting s)
    (hfew : returned.length < UInt64.size - 1) :
    Tracked returned old waiting s.scene ∧ Ready s (waiting.map Pushed.command) := by
  induction h with
  | new => exact ⟨.empty, valid_empty, rfl, [], .nil rfl, rfl⟩
  | @create returned old waiting s h command hcreator hfits ih =>
    rw [List.length_append] at hfew
    obtain ⟨htracked, hready⟩ := ih (Nat.lt_of_succ_lt hfew)
    have hi : s.scene.ids.next.toNat < UInt64.size - 1 := htracked.counted ▸ hfew
    obtain ⟨hdrawn, hnew⟩ :=
      htracked.drawn hi (.single (.draw (List.mem_singleton.mpr rfl) hi)) rfl (by simp)
    have hfree : s.scene.kindOf? s.allocate.1 = none := by
      refine Option.map_eq_none_iff.mpr (Option.eq_none_iff_forall_ne_some.mpr fun slot hslot => ?_)
      exact IdSource.not_covers_allocated hi (htracked.covered.live hslot)
    constructor
    · refine hdrawn.queued (fun x hx => ?_) fun k x hx => ?_
      · rw [hcreator.eq_of_asides hx]
        exact List.mem_append_right _ (List.mem_singleton.mpr rfl)
      · obtain rfl := hcreator.eq_of_asides (Command.reserve_of_creates hx)
        exact ⟨hfree, fun b hb hm => hnew (htracked.named b hb _ hm)⟩
    · rw [List.map_append]
      exact (hready.source _).pushed (p := .command (command s.allocate.1)) rfl hfits
  | push h hc hfits ih =>
    obtain ⟨htracked, hready⟩ := ih hfew
    refine ⟨htracked.queued (fun x hx => hc.mem hx) fun k x hx => ?_, ?_⟩
    · rw [hc.creates] at hx
      cases hx
    · rw [List.map_append]
      exact hready.pushed (p := .command _) rfl hfits
  | allocate h ih =>
    rw [List.length_append] at hfew
    obtain ⟨htracked, hready⟩ := ih (Nat.lt_of_succ_lt hfew)
    have hi := htracked.counted ▸ hfew
    exact ⟨(htracked.drawn hi (.single (.draw (List.mem_singleton.mpr rfl) hi)) rfl (by simp)).1,
      hready.source _⟩
  | make h kind name ih =>
    rw [List.length_append] at hfew
    obtain ⟨htracked, hready⟩ := ih (Nat.lt_of_succ_lt hfew)
    have hi := htracked.counted ▸ hfew
    have hsteps := steps_create (List.mem_singleton.mpr rfl) htracked.covered hi kind name
    exact ⟨(htracked.drawn hi hsteps ids_add (by simp)).1, hsteps.valid htracked.valid,
      hready.drained, hready.waiting⟩
  | poll h ih =>
    obtain ⟨htracked, hready⟩ := ih hfew
    exact ⟨htracked, hready.valid, hready.drained, hready.waiting⟩
  | @frame returned old waiting s h ih =>
    obtain ⟨htracked, hready⟩ := ih hfew
    have hrun : Tracked returned (old ++ waiting) [] ((waiting.map Pushed.command).foldl
        Stage.next s.stage).scene :=
      Tracked.run (t := s.stage) (by rwa [List.append_nil])
    refine ⟨?_, hready.frame⟩
    rw [hready.framed.scene, ← Stage.foldl_next]
    exact (hrun.quiet (steps_rebuildAllMatrices hrun.valid) (by simp) (by simp)).quiet
      (steps_rebuildStaleGeometries _) List.not_mem_nil fun _ => List.not_mem_nil

/-- What is left to do when the next frame comes to a command. -/
theorem tracked_turn [Mat4.Arithmetic] (h : Course config returned old waiting s)
    (hfew : returned.length < UInt64.size - 1) (i : ℕ) :
    Tracked returned (old ++ waiting.take i) (waiting.drop i) (s.turn i).scene := by
  obtain ⟨htracked, hready⟩ := h.tracked hfew
  rw [hready.turn_eq, ← List.map_take]
  exact Tracked.run (t := s.stage) (by rwa [List.take_append_drop])

/-- A shader whose first text is too long for the word that tells its length is lost, if the text is
cut off inside a character. -/
theorem malformed_of_cut [Mat4.Arithmetic] {v f : String} (hlong : 0xffffffff ≤ v.utf8ByteSize)
    (hinside : ¬ (⟨0xffffffff⟩ : String.Pos.Raw).IsValid v)
    (hfits : 40 + v.utf8ByteSize + f.utf8ByteSize < UInt64.size) : ∃ s,
    Course {} [⟨1⟩] [] [.createShader ⟨1⟩ v f] s ∧
    s.verdicts = [.error (.malformed (.invalidText "CreateShader"))] ∧
    Course {} [⟨1⟩] [.createShader ⟨1⟩ v f] [] s.frame.2 ∧
    s.frame.2.scene.component ⟨1⟩ = .error (.notFound ⟨1⟩) := by
  have hpending : ((Session.new {}).create (.createShader · v f)).2.pending < UInt64.size := by
    rw [pending_create, Command.length_payload_createShader]
    have hempty : (Session.new {}).pending = 0 := rfl
    omega
  have h : Course {} [⟨1⟩] [] [.createShader ⟨1⟩ v f] _ := Course.new.create (.shader v f) hpending
  have hread := Command.decode_cut ⟨1⟩ f hlong hinside
  obtain ⟨-, hready⟩ := h.tracked (by decide)
  have hnone : (Pushed.command (.createShader ⟨1⟩ v f)).command? = none := by
    unfold Pushed.command?
    rw [Pushed.tag, Pushed.payload, Command.kind, hread]
  refine ⟨_, h, ?_, h.frame, ?_⟩
  · rw [hready.verdicts_eq, List.map_cons, List.map_nil, Stage.verdicts, Stage.verdicts,
      Stage.verdict, Stage.applyRecord, Pushed.tag, Pushed.payload, Command.kind, hread]
    rfl
  · rw [hready.framed.scene, List.map_cons, List.filterMap_cons_none hnone]
    rfl

/-- In every session where what is new comes only from creations, and fewer identifiers are drawn
than there are, all those given are distinct and not null. No command is refused because what it
creates would have the null identifier or one in use. The next frame carries out every creation of a
transform, a geometry, a texture or a shader, the latter if the lengths of its texts fit into their
words, and what comes after it in that frame or a later one finds a component of that kind, until a
command to destroy it. -/
theorem handles [Mat4.Arithmetic] (h : Course config returned old waiting s)
    (hfew : returned.length < UInt64.size - 1) :
    returned.Nodup ∧ .null ∉ returned ∧
    (∀ (i : ℕ) (c : Command), waiting[i]? = some c →
      ∃ verdict, s.verdicts[i]? = some verdict ∧
        (∀ x e, .reserve x ∈ c.asides → verdict = .error e → ¬ e.IsClash) ∧
        ∀ k x, c.Brings k x → verdict = .ok false) ∧
    ∀ (i : ℕ) (front : List Command) (c : Command) (rest : List Command) (k : ComponentKind)
      (x : ComponentId), old ++ waiting.take i = front ++ c :: rest → c.Brings k x →
      .destroy x ∉ rest → ∃ a, (s.turn i).scene.component x = .ok a ∧ a.kind = k := by
  obtain ⟨htracked, hready⟩ := h.tracked hfew
  refine ⟨htracked.nodup, htracked.null, fun i c hc => ?_, fun i front c rest k x hdone hb hx => ?_⟩
  · have hturn := h.tracked_turn hfew i
    obtain ⟨hi, rfl⟩ := List.getElem?_eq_some_iff.mp hc
    rw [List.drop_eq_getElem_cons hi] at hturn
    refine ⟨(s.turn i).verdict (.command waiting[i]), ?_, fun x e hx he => hturn.clashless hx he,
      fun k x hb => hturn.verdict_brought hb⟩
    rw [hready.verdicts_eq, Stage.verdicts_getElem?, ← hready.turn_eq, List.getElem?_map, hc]
    rfl
  · have hturn := h.tracked_turn hfew i
    obtain ⟨a, ha, -, hk⟩ := exists_component hturn.valid.sound
      (hturn.kept front c rest k x hdone hb hx)
    exact ⟨a, ha, hk⟩

/-- A texture and, bound to a geometry of the graphics side, a mesh under a bare identifier. After a
frame a transform is asked for, and the pixels of the texture. -/
theorem handles_mixed : ∃ s,
    Course {} [⟨1⟩, ⟨2⟩, ⟨3⟩, ⟨4⟩] [.createTexture ⟨1⟩ 1 1 "sky", .updateMesh ⟨3⟩ ⟨2⟩ .null]
      [.createTransform ⟨4⟩ "hub", .copyTextureToCpu ⟨1⟩] s ∧
    [⟨1⟩, ⟨2⟩, ⟨3⟩, (⟨4⟩ : ComponentId)].Nodup ∧ s.verdicts[0]? = some (.ok false) ∧
    (∃ a, (s.turn 1).scene.component ⟨1⟩ = .ok a ∧ a.kind = .texture) ∧
    ∃ a, (s.turn 1).scene.component ⟨4⟩ = .ok a ∧ a.kind = .transform := by
  have hmesh : (Command.updateMesh ⟨3⟩ ⟨2⟩ .null).Follows [⟨1⟩, ⟨2⟩, ⟨3⟩] := by
    simp [Command.Follows]
  have h : Course {} [⟨1⟩, ⟨2⟩, ⟨3⟩, ⟨4⟩] _ _ _ :=
    ((((((Course.new.create (.texture 1 1 "sky") (by decide)).make .geometry "cube").allocate.push
      hmesh (by decide)).frame).create (.transform "hub") (by decide)).push
      (c := .copyTextureToCpu ⟨1⟩) rfl (by decide))
  have hsky : (Command.createTexture ⟨1⟩ 1 1 "sky").Brings .texture ⟨1⟩ :=
    ⟨rfl, by decide, by decide, trivial⟩
  have hhub : (Command.createTransform ⟨4⟩ "hub").Brings .transform ⟨4⟩ :=
    ⟨rfl, by decide, by decide, trivial⟩
  obtain ⟨hnodup, -, hverdicts, hfound⟩ := h.handles (by decide)
  obtain ⟨verdict, hverdict, -, hcarried⟩ := hverdicts 0 (.createTransform ⟨4⟩ "hub") rfl
  refine ⟨_, h, hnodup, ?_, ?_, ?_⟩
  · rw [hverdict, hcarried _ _ hhub]
  · exact hfound 1 [] _ [.updateMesh ⟨3⟩ ⟨2⟩ .null, .createTransform ⟨4⟩ "hub"] _ _ rfl hsky
      (by decide)
  · exact hfound 1 [.createTexture ⟨1⟩ 1 1 "sky", .updateMesh ⟨3⟩ ⟨2⟩ .null] _ [] _ _ rfl hhub
      (by decide)

/-- The first text of this shader has 2 ^ 32 bytes, one more than the word for its length can tell, and
the byte that is left out is the second of a character. The next frame finds no command in the
record, and after it there is nothing under the handle. -/
theorem handles_cut_short : ∃ s,
    Course {} [⟨1⟩] [] [.createShader ⟨1⟩ (lettered 0xfffffffe) ""] s ∧
    s.verdicts = [.error (.malformed (.invalidText "CreateShader"))] ∧
    Course {} [⟨1⟩] [.createShader ⟨1⟩ (lettered 0xfffffffe) ""] [] s.frame.2 ∧
    s.frame.2.scene.component ⟨1⟩ = .error (.notFound ⟨1⟩) := by
  have hsize : (lettered 0xfffffffe).utf8ByteSize = 2 ^ 32 := utf8ByteSize_lettered _
  refine malformed_of_cut ?_ (not_isValid_lettered _) ?_
  · rw [hsize]
    decide
  · rw [hsize]
    decide

end Course

end Session

end SceneGraph
