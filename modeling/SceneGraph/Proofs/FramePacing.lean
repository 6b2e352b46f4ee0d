import Mathlib.Data.List.Induction
import Mathlib.Data.List.Infix
import SceneGraph.Proofs.Frames

/-!
# Frame pacing

The graphics side takes a frame in steps: it exchanges the sides of the queue, advances the counter,
carries out and clears what it took, and rebuilds. Producers push and look at the counter at any
moment in between. A push that comes after the exchange of a frame and before its advance misses
that frame, although a producer that looks next still sees the count from before it. So two counts
more are what it takes for a push to be taken, and three for it to be carried out.
-/

namespace SceneGraph

theorem prefix_cases {α : Type} {front back front' back' : List α} {x y : α}
    (h : front ++ x :: back = front' ++ y :: back') :
    front ++ [x] <+: front' ∨ front' ++ [y] <+: front ∨ front = front' ∧ x = y := by
  rcases List.append_eq_append_iff.mp h with ⟨as, rfl, has⟩ | ⟨bs, rfl, hbs⟩
  · cases as with
    | nil => exact .inr (.inr ⟨(List.append_nil front).symm, (List.cons.inj has).1⟩)
    | cons a as =>
      obtain rfl := (List.cons.inj has).1
      exact .inl ⟨as, List.append_assoc ..⟩
  · cases bs with
    | nil => exact .inr (.inr ⟨List.append_nil front', (List.cons.inj hbs).1.symm⟩)
    | cons b bs =>
      obtain rfl := (List.cons.inj hbs).1
      exact .inr (.inl ⟨bs, List.append_assoc ..⟩)

theorem lt_length {α : Type} {xs : List α} {i : ℕ} {x : α} (h : xs[i]? = some x) : i < xs.length :=
  (List.getElem?_eq_some_iff.mp h).1

theorem getElem?_of_prefix {α : Type} {front xs : List α} {i : ℕ} {x : α} (h : front <+: xs)
    (hx : front[i]? = some x) : xs[i]? = some x := by
  obtain ⟨back, rfl⟩ := h
  rw [List.getElem?_append_left (lt_length hx), hx]

theorem FrameCounter.eq_current {c : FrameCounter} {seen count : ℕ}
    (h : c.passed? seen = some count) : count = c.current := by
  unfold passed? at h
  split at h
  · exact (Option.some.inj h).symm
  · cases h

namespace Session

/-- What the graphics side does next. -/
inductive Phase where
  | swap
  | advance
  | drain
  | rebuild
deriving DecidableEq

namespace Phase

/-- The number of frames that have taken their commands and are not counted yet. -/
@[simp] def uncounted : Phase → ℕ
  | advance => 1
  | _ => 0

/-- Nothing is left of what the last frame took. -/
def Idle (φ : Phase) : Prop := φ = swap ∨ φ = rebuild

end Phase

/-- A step of one of the parties, with what it gives. -/
inductive Event where
  | pushed (producer : ℕ) (record : Record)
  | observed (producer count : ℕ)
  /-- The frame of that number takes a batch. -/
  | swapped (frame : ℕ) (batch : List Record)
  | advanced (count : ℕ)
  | drained (batch : List Record)
  | rebuilt

namespace Event

@[simp] def pushes : Event → List Record
  | pushed _ r => [r]
  | _ => []

@[simp] def takes : Event → List Record
  | swapped _ batch => batch
  | _ => []

@[simp] def drains : Event → List Record
  | drained batch => batch
  | _ => []

/-- The number of the frame that takes its commands, if one does. -/
@[simp] def frames : Event → List ℕ
  | swapped frame _ => [frame]
  | _ => []

/-- What the counter is advanced to, if it is. -/
@[simp] def counts : Event → List ℕ
  | advanced count => [count]
  | _ => []

/-- What becomes of the scene and of the readbacks: the records of a batch are carried out one by
one, and a rebuild brings matrices and batches up to date. -/
@[simp] def perform [Mat4.Arithmetic] (t : Stage) : Event → Stage
  | drained batch => (batch.map Record.pushed).foldl Stage.next t
  | rebuilt => { t with scene := t.scene.rebuildAllMatrices.1.rebuildStaleGeometries.2 }
  | _ => t

end Event

/-- The steps of the parties. Whatever the graphics side does next, any producer may come first. A
frame has the number that it advances the counter to. -/
inductive Move [Mat4.Arithmetic] : Phase → Session → Event → Phase → Session → Prop
  | push (φ : Phase) (s : Session) (producer : ℕ) (kind : UInt32) (parts : List Bytes)
      (hfits : (s.commands.push kind parts).2.pending < UInt64.size) :
      Move φ s (.pushed producer ⟨kind, (s.commands.push kind parts).1,
        (s.commands.push kind parts).1 + 24 + parts.flatten.length, parts.flatten⟩) φ
        { s with commands := (s.commands.push kind parts).2 }
  | look (φ : Phase) (s : Session) (producer : ℕ) :
      Move φ s (.observed producer s.frames.current) φ s
  | wait (φ : Phase) (s : Session) (producer seen count : ℕ)
      (hpassed : s.frames.passed? seen = some count) : Move φ s (.observed producer count) φ s
  | swap (s : Session) :
      Move .swap s (.swapped (s.frames.current + 1) s.takeCommands.2.commands.records) .advance
        s.takeCommands.2
  | advance (s : Session) : Move .advance s (.advanced s.advance.frames.current) .drain s.advance
  | drain (s : Session) : Move .drain s (.drained s.commands.records) .rebuild s.drain.2
  | rebuild (s : Session) :
      Move .rebuild s .rebuilt .swap s.rebuildMatrices.2.rebuildGeometries.2

/-- The steps of all parties in the order in which they happened, from a new session on. -/
inductive Interleaving [Mat4.Arithmetic] (config : SessionConfig) :
    List Event → Phase → Session → Prop
  | new : Interleaving config [] .swap (new config)
  | move {es : List Event} {φ φ' : Phase} {s s' : Session} {e : Event}
      (h : Interleaving config es φ s) (hmove : Move φ s e φ' s') :
      Interleaving config (es ++ [e]) φ' s'

variable {config : SessionConfig} {es front back start : List Event} {e : Event} {φ φ' : Phase}
  {s s' : Session} {r r' : Record} {batch : List Record} {i k k' a b : ℕ}

@[simp] theorem current_advance (s : Session) :
    s.advance.frames.current = s.frames.current + 1 := rfl

@[simp] theorem frames_drain (s : Session) : s.drain.2.frames = s.frames := rfl

/-- A drain carries out the records of its batch, in their order. -/
@[simp] theorem stage_drain (s : Session) : s.drain.2.stage =
    (s.commands.records.map Record.pushed).foldl Stage.next s.stage := by
  change (Stage.drain s.stage s.commands).1 = _
  rw [Stage.drain_eq, Stage.foldl_tally_fst]

@[simp] theorem frames_rebuildMatrices [Mat4.Arithmetic] (s : Session) :
    s.rebuildMatrices.2.frames = s.frames := rfl

@[simp] theorem frames_rebuildGeometries (s : Session) :
    s.rebuildGeometries.2.frames = s.frames := rfl

/-- A frame that no producer interrupts carries out what it takes. -/
theorem Interleaving.frame [Mat4.Arithmetic] (h : Interleaving config es .swap s) :
    Interleaving config (es ++ [.swapped s.frame.1.frame s.takeCommands.2.commands.records] ++
      [.advanced s.frame.1.frame] ++ [.drained s.takeCommands.2.commands.records] ++ [.rebuilt])
      .swap s.frame.2 := by
  have htaken : s.takeCommands.2.frames = s.frames := by
    unfold takeCommands
    cases s.commands.swap <;> rfl
  have hnumber : s.takeCommands.2.advance.frames.current = s.frames.current + 1 := by
    rw [advance, htaken]
    rfl
  have hrebuilt := (((h.move (.swap s)).move (.advance _)).move (.drain _)).move (.rebuild _)
  rw [← hnumber] at hrebuilt
  exact hrebuilt

/-- What is kept while the parties take their steps. The counter shows how many frames have advanced
it, frames take their commands one by one, and the two sides of the queue hold what is between the
pushes and the drains. -/
structure Synced (es : List Event) (φ : Phase) (s : Session) (waiting batch : List Record) :
    Prop where
  counts : es.flatMap Event.counts = List.range' 1 s.frames.current
  frames : es.flatMap Event.frames = List.range' 1 (s.frames.current + φ.uncounted)
  write : s.commands.write.Holds waiting
  read : s.commands.read.Holds batch
  pushed : es.flatMap Event.pushes = es.flatMap Event.takes ++ waiting
  taken : es.flatMap Event.takes = es.flatMap Event.drains ++ batch
  idle : φ.Idle → batch = []

namespace Synced

variable {waiting : List Record}

/-- With nothing left of the last batch, a frame takes all that waits. -/
theorem takeCommands_eq (h : Synced es φ s waiting []) : s.takeCommands.2 =
    { s with commands := ⟨s.commands.read, s.commands.write, s.commands.swaps + 1⟩ } := by
  have hreadable : s.commands.readable = 0 := h.read.adjacent.symm
  rw [takeCommands_drained hreadable]

/-- A step of any party. -/
theorem move [Mat4.Arithmetic] (h : Synced es φ s waiting batch) (hm : Move φ s e φ' s') :
    ∃ waiting' batch', Synced (es ++ [e]) φ' s' waiting' batch' := by
  cases hm with
  | push _ _ _ kind parts hfits =>
    refine ⟨_, batch, by simpa using h.counts, by simpa using h.frames,
      Queue.holds_push h.write kind parts hfits, h.read, ?_, by simpa using h.taken, h.idle⟩
    simp [h.pushed]
  | look | wait =>
    exact ⟨waiting, batch, by simpa using h.counts, by simpa using h.frames, h.write, h.read,
      by simpa using h.pushed, by simpa using h.taken, h.idle⟩
  | swap =>
    obtain rfl := h.idle (.inl rfl)
    have hrecords : s.takeCommands.2.commands.records = waiting := by
      rw [h.takeCommands_eq]
      exact Queue.records_eq h.write
    rw [hrecords, h.takeCommands_eq]
    refine ⟨[], waiting, by simpa using h.counts, ?_, h.read, h.write, by simpa using h.pushed, ?_,
      nofun⟩
    · simp [h.frames, List.range'_1_concat, Nat.add_comm 1]
    · simp [h.taken]
  | advance =>
    refine ⟨waiting, batch, ?_, by simpa using h.frames, h.write, h.read, by simpa using h.pushed,
      by simpa using h.taken, nofun⟩
    simp [h.counts, List.range'_1_concat, Nat.add_comm 1]
  | drain =>
    rw [Queue.records_eq h.read]
    exact ⟨waiting, [], by simpa using h.counts, by simpa using h.frames, h.write,
      .nil s.commands.read.live_clear, by simpa using h.pushed, by simpa using h.taken,
      fun _ => rfl⟩
  | rebuild =>
    exact ⟨waiting, batch, by simpa using h.counts, by simpa using h.frames, h.write, h.read,
      by simpa using h.pushed, by simpa using h.taken, fun _ => h.idle (.inr rfl)⟩

end Synced

theorem takes_front (hes : es = front ++ .swapped k batch :: back) :
    front.flatMap Event.takes ++ batch <+: es.flatMap Event.takes := by
  simp [hes]

namespace Interleaving

variable [Mat4.Arithmetic]

theorem synced (h : Interleaving config es φ s) :
    ∃ waiting batch, Synced es φ s waiting batch := by
  induction h with
  | new => exact ⟨[], [], rfl, rfl, .nil rfl, .nil rfl, rfl, rfl, fun _ => rfl⟩
  | move h hmove ih =>
    obtain ⟨waiting, batch, hsynced⟩ := ih
    exact hsynced.move hmove

/-- Each event is a step from where the events before it led. -/
theorem split (h : Interleaving config es φ s) (hes : es = front ++ e :: back) :
    ∃ φ₀ s₀ φ₁ s₁, Interleaving config front φ₀ s₀ ∧ Move φ₀ s₀ e φ₁ s₁ := by
  induction h generalizing back with
  | new => simp at hes
  | @move es φ₀ φ₁ s₀ s₁ e' h hmove ih =>
    rcases back.eq_nil_or_concat with rfl | ⟨back, last, rfl⟩
    · obtain ⟨rfl, he⟩ := List.append_inj' hes rfl
      obtain rfl := List.singleton_inj.mp he
      exact ⟨φ₀, s₀, φ₁, s₁, h, hmove⟩
    · rw [List.concat_eq_append, ← List.cons_append, ← List.append_assoc] at hes
      exact ih (List.append_inj' hes rfl).1

theorem current_eq (h : Interleaving config es φ s) :
    s.frames.current = (es.flatMap Event.counts).length := by
  obtain ⟨waiting, batch, hsynced⟩ := h.synced
  rw [hsynced.counts, List.length_range']

theorem observed (h : Interleaving config es φ s) {producer : ℕ}
    (hes : es = front ++ .observed producer a :: back) :
    a = (front.flatMap Event.counts).length := by
  obtain ⟨φ₀, s₀, φ₁, s₁, h₀, hmove⟩ := h.split hes
  rw [← h₀.current_eq]
  cases hmove with
  | look => rfl
  | wait _ _ _ _ _ hpassed => exact FrameCounter.eq_current hpassed

/-- A frame takes all that was pushed and not taken before, when nothing of it is left to do. -/
theorem swapped (h : Interleaving config es φ s) (hes : es = front ++ .swapped k batch :: back) :
    k = (front.flatMap Event.counts).length + 1 ∧
      front.flatMap Event.takes ++ batch = front.flatMap Event.pushes ∧
      front.flatMap Event.drains = front.flatMap Event.takes := by
  obtain ⟨φ₀, s₀, φ₁, s₁, h₀, hmove⟩ := h.split hes
  obtain ⟨waiting, left, hsynced⟩ := h₀.synced
  rw [← h₀.current_eq]
  cases hmove
  obtain rfl := hsynced.idle (.inl rfl)
  refine ⟨rfl, ?_, ?_⟩
  · rw [hsynced.pushed, hsynced.takeCommands_eq]
    exact congrArg _ (Queue.records_eq hsynced.write)
  · rw [hsynced.taken, List.append_nil]

/-- A drain carries out all that was taken and not carried out before. -/
theorem drained (h : Interleaving config es φ s) (hes : es = front ++ .drained batch :: back) :
    front.flatMap Event.drains ++ batch = front.flatMap Event.takes ∧
      ∃ s₀, Interleaving config front .drain s₀ ∧
        Interleaving config (front ++ [.drained batch]) .rebuild s₀.drain.2 ∧
        s₀.drain.2.stage = (batch.map Record.pushed).foldl Stage.next s₀.stage := by
  obtain ⟨φ₀, s₀, φ₁, s₁, h₀, hmove⟩ := h.split hes
  obtain ⟨waiting, left, hsynced⟩ := h₀.synced
  have h₁ := h₀.move hmove
  cases hmove
  refine ⟨?_, s₀, h₀, h₁, stage_drain s₀⟩
  rw [hsynced.taken, Queue.records_eq hsynced.read]

/-- The scene and the readbacks are what the drains and the rebuilds have made of them. -/
theorem stage_eq (h : Interleaving config es φ s) :
    s.stage = es.foldl Event.perform (Session.new config).stage := by
  induction h with
  | new => rfl
  | move h hmove ih =>
    rw [List.foldl_append, ← ih, List.foldl_cons, List.foldl_nil]
    cases hmove with
    | swap => exact stage_takeCommands _
    | drain => exact stage_drain _
    | _ => rfl

theorem exists_swapped (h : Interleaving config es φ s) (hk : 1 ≤ k)
    (hcurrent : k ≤ s.frames.current) :
    ∃ front batch back, es = front ++ .swapped k batch :: back := by
  obtain ⟨waiting, left, hsynced⟩ := h.synced
  have hmem : k ∈ es.flatMap Event.frames := by
    rw [hsynced.frames, List.mem_range'_1]
    omega
  obtain ⟨e, he, hk⟩ := List.mem_flatMap.mp hmem
  obtain ⟨front, back, rfl⟩ := List.append_of_mem he
  cases e with
  | swapped frame batch =>
    obtain rfl : k = frame := List.mem_singleton.mp hk
    exact ⟨front, batch, back, rfl⟩
  | _ => cases hk

/-- What happened when the counter showed less came before. -/
theorem prefix_of_count (h : Interleaving config es φ s)
    (hes : es = front ++ .swapped k batch :: back) (hstart : start <+: es)
    (hcount : (start.flatMap Event.counts).length + 2 ≤ k) : start <+: front := by
  obtain ⟨hk, -, -⟩ := h.swapped hes
  rcases List.prefix_or_prefix_of_prefix hstart ⟨_, hes.symm⟩ with hle | hle
  · exact hle
  · have := (hle.flatMap Event.counts).length_le
    omega

/-- Two counts later, what was pushed is taken. -/
theorem taken_of_count (h : Interleaving config es φ s)
    (hes : es = front ++ .swapped k batch :: back) (hstart : start <+: es)
    (hcount : (start.flatMap Event.counts).length + 2 ≤ k) :
    start.flatMap Event.pushes <+: front.flatMap Event.takes ++ batch := by
  obtain ⟨-, htaken, -⟩ := h.swapped hes
  rw [htaken]
  exact (h.prefix_of_count hes hstart hcount).flatMap Event.pushes

/-- Three counts later, it is carried out. -/
theorem drained_of_count (h : Interleaving config es φ s) (hstart : start <+: es)
    (hcount : (start.flatMap Event.counts).length + 3 ≤ s.frames.current) :
    start.flatMap Event.pushes <+: es.flatMap Event.drains := by
  obtain ⟨front, batch, back, hes⟩ := h.exists_swapped (by omega) hcount
  obtain ⟨hk, -, hdrained⟩ := h.swapped hes
  obtain ⟨φ₀, s₀, -, -, h₀, -⟩ := h.split hes
  have hstart₀ := h.prefix_of_count hes hstart (by omega)
  have hcurrent : (start.flatMap Event.counts).length + 2 = s₀.frames.current := by
    rw [h₀.current_eq]
    omega
  -- the frame before has taken it, and when this one takes its own, nothing is left of that
  obtain ⟨front', batch', back', hfront⟩ := h₀.exists_swapped (by omega) hcurrent.le
  have htaken := (h₀.taken_of_count hfront hstart₀ le_rfl).trans (takes_front hfront)
  rw [← hdrained] at htaken
  have hbegun : front <+: es := ⟨_, hes.symm⟩
  exact htaken.trans (hbegun.flatMap Event.drains)

end Interleaving

/-- The frame takes the record, of that index among all that were taken. -/
def TakenBy (es : List Event) (i : ℕ) (r : Record) (k : ℕ) : Prop :=
  ∃ front batch back j, es = front ++ .swapped k batch :: back ∧
    i = (front.flatMap Event.takes).length + j ∧ batch[j]? = some r

/-- A producer observes `a`, pushes the record, which has that index among all that were pushed, and
observes `b`. -/
def PushedBetween (es : List Event) (a i : ℕ) (r : Record) (b : ℕ) : Prop :=
  ∃ producer start before after rest,
    es = start ++ .observed producer a :: before ++ .pushed producer r :: after ++
      .observed producer b :: rest ∧
    i = ((start ++ .observed producer a :: before).flatMap Event.pushes).length

theorem exists_takenBy (h : (es.flatMap Event.takes)[i]? = some r) : ∃ k, TakenBy es i r k := by
  induction es using List.reverseRecOn with
  | nil => cases h
  | append_singleton es e ih =>
    rw [List.flatMap_append, List.flatMap_singleton] at h
    by_cases hi : i < (es.flatMap Event.takes).length
    · rw [List.getElem?_append_left hi] at h
      obtain ⟨k, front, batch, back, j, rfl, hj⟩ := ih h
      exact ⟨k, front, batch, back ++ [e], j, by simp, hj⟩
    · rw [List.getElem?_append_right (by omega)] at h
      cases e with
      | swapped k batch => exact ⟨k, es, batch, [], _, rfl, by omega, h⟩
      | _ => cases h

namespace TakenBy

theorem taken_eq (h : TakenBy es i r k) : (es.flatMap Event.takes)[i]? = some r := by
  obtain ⟨front, batch, back, j, hes, rfl, hj⟩ := h
  apply getElem?_of_prefix (takes_front hes)
  rw [List.getElem?_append_right (Nat.le_add_right ..), Nat.add_sub_cancel_left, hj]

/-- What is among the first of the commands that were taken was taken by one of the first frames. -/
theorem le_of_lt [Mat4.Arithmetic] (h : TakenBy es i r k) (hrun : Interleaving config es φ s)
    (hes : es = front ++ .swapped k' batch :: back)
    (hi : i < (front.flatMap Event.takes ++ batch).length) : k ≤ k' := by
  obtain ⟨front', batch', back', j, hes', rfl, hj⟩ := h
  have hk := (hrun.swapped hes').1
  have hk' := (hrun.swapped hes).1
  rcases prefix_cases (hes'.symm.trans hes) with hle | hle | ⟨-, hsame⟩
  · have := (((List.prefix_append front' _).trans hle).flatMap Event.counts).length_le
    omega
  · have := (hle.flatMap Event.takes).length_le
    rw [List.flatMap_append, List.flatMap_singleton, Event.takes] at this
    omega
  · cases hsame
    rfl

/-- What a frame has taken is not there to be taken by another. -/
theorem unique [Mat4.Arithmetic] (h : TakenBy es i r k) (h' : TakenBy es i r' k')
    (hrun : Interleaving config es φ s) : r = r' ∧ k = k' := by
  have hr := h.taken_eq.symm.trans h'.taken_eq
  refine ⟨Option.some.inj hr, ?_⟩
  obtain ⟨front, batch, back, j, hes, hi, hj⟩ := id h
  obtain ⟨front', batch', back', j', hes', hi', hj'⟩ := id h'
  have hlt := lt_length hj
  have hlt' := lt_length hj'
  apply le_antisymm
  · exact h.le_of_lt hrun hes' (by rw [List.length_append]; omega)
  · exact h'.le_of_lt hrun hes (by rw [List.length_append]; omega)

end TakenBy

namespace PushedBetween

variable {config : SessionConfig}

theorem pushed_eq (h : PushedBetween es a i r b) : (es.flatMap Event.pushes)[i]? = some r := by
  obtain ⟨producer, start, before, after, rest, rfl, rfl⟩ := h
  simp

variable [Mat4.Arithmetic]

/-- The push is among those before the second count was seen. -/
theorem exists_start (h : PushedBetween es a i r b) (hrun : Interleaving config es φ s) :
    ∃ start, start <+: es ∧ (start.flatMap Event.counts).length = b ∧
      (start.flatMap Event.pushes)[i]? = some r := by
  obtain ⟨producer, start, before, after, rest, hes, rfl⟩ := h
  exact ⟨_, ⟨_, hes.symm⟩, (hrun.observed hes).symm, by simp⟩

/-- A frame that takes the push takes what was pushed by then, so it comes after the first count was
seen. -/
theorem le_of_takenBy (h : PushedBetween es a i r b) (hrun : Interleaving config es φ s)
    (htaken : TakenBy es i r' k) : a + 1 ≤ k := by
  obtain ⟨producer, start, before, after, rest, hes, hi⟩ := h
  obtain ⟨front, batch, back, j, hes', hi', hj⟩ := htaken
  obtain ⟨hk, hbatch, -⟩ := hrun.swapped hes'
  have hlt := lt_length hj
  have hlength := congrArg List.length hbatch
  rw [List.length_append] at hlength
  rw [List.append_assoc, List.cons_append] at hes
  rcases prefix_cases (hes.symm.trans hes') with hle | hle | ⟨-, hsame⟩
  · have ha := hrun.observed (hes.trans (List.append_assoc ..))
    have := (((List.prefix_append start _).trans
      ((List.prefix_append _ _).trans hle)).flatMap Event.counts).length_le
    omega
  · have := (((List.prefix_append front _).trans hle).flatMap Event.pushes).length_le
    omega
  · cases hsame

/-- Two counts after the second was seen, one of the frames counted by then has taken the push. -/
theorem exists_frame (h : PushedBetween es a i r b) (hrun : Interleaving config es φ s)
    (hcurrent : b + 2 ≤ s.frames.current) : ∃ k ≤ b + 2, TakenBy es i r k := by
  obtain ⟨start, hstart, hcount, hpush⟩ := h.exists_start hrun
  obtain ⟨front, batch, back, hes⟩ := hrun.exists_swapped (by omega) hcurrent
  have htaken := hrun.taken_of_count hes hstart (by omega)
  have hlt := lt_length hpush
  have hr : (es.flatMap Event.takes)[i]? = some r :=
    getElem?_of_prefix (htaken.trans (takes_front hes)) hpush
  obtain ⟨k, hk⟩ := exists_takenBy hr
  exact ⟨k, hk.le_of_lt hrun hes (hlt.trans_le htaken.length_le), hk⟩

/-- Three counts after the second was seen, the push has been carried out. -/
theorem drained_eq (h : PushedBetween es a i r b) (hrun : Interleaving config es φ s)
    (hcurrent : b + 3 ≤ s.frames.current) : (es.flatMap Event.drains)[i]? = some r := by
  obtain ⟨start, hstart, hcount, hpush⟩ := h.exists_start hrun
  exact getElem?_of_prefix (hrun.drained_of_count hstart (by omega)) hpush

end PushedBetween

/-- However the steps of the parties interleave, the frames are numbered in their order, and each
takes all that was pushed and not taken before, so that no command is taken by two of them. A
command that was pushed between two looks at the counter is not taken before the frame after the
first look. At the latest it is taken by the second frame that is begun after the other look, and
carried out before the third takes its own. A drain carries out, one by one, what was taken and not
carried out before, and nothing but drains and rebuilds changes the scene. -/
theorem Interleaving.paced [Mat4.Arithmetic] (h : Interleaving config es φ s) :
    es.flatMap Event.frames = List.range' 1 (s.frames.current + φ.uncounted) ∧
    es.flatMap Event.counts = List.range' 1 s.frames.current ∧
    (∀ front k batch back, es = front ++ .swapped k batch :: back →
      front.flatMap Event.takes ++ batch = front.flatMap Event.pushes) ∧
    es.flatMap Event.drains <+: es.flatMap Event.takes ∧
    (∀ front batch back, es = front ++ .drained batch :: back →
      front.flatMap Event.drains ++ batch = front.flatMap Event.takes ∧
      ∃ s₀, Interleaving config front .drain s₀ ∧
        Interleaving config (front ++ [.drained batch]) .rebuild s₀.drain.2 ∧
        s₀.drain.2.stage = (batch.map Record.pushed).foldl Stage.next s₀.stage) ∧
    s.stage = es.foldl Event.perform (Session.new config).stage ∧
    (∀ i r r' k k', TakenBy es i r k → TakenBy es i r' k' → r = r' ∧ k = k') ∧
    ∀ a i r b, PushedBetween es a i r b →
      (es.flatMap Event.pushes)[i]? = some r ∧
      (∀ r' k, TakenBy es i r' k → r' = r ∧ a + 1 ≤ k) ∧
      (b + 2 ≤ s.frames.current → ∃ k ≤ b + 2, TakenBy es i r k) ∧
      (b + 3 ≤ s.frames.current → (es.flatMap Event.drains)[i]? = some r) := by
  obtain ⟨waiting, batch, hsynced⟩ := h.synced
  have htaken : es.flatMap Event.takes <+: es.flatMap Event.pushes := ⟨waiting, hsynced.pushed.symm⟩
  have hdrained : es.flatMap Event.drains <+: es.flatMap Event.takes := ⟨batch, hsynced.taken.symm⟩
  refine ⟨hsynced.frames, hsynced.counts, fun front k batch back hes => (h.swapped hes).2.1,
    hdrained, fun front batch back hes => h.drained hes, h.stage_eq,
    fun i r r' k k' hk hk' => hk.unique hk' h, fun a i r b hpush => ?_⟩
  refine ⟨hpush.pushed_eq, fun r' k hk => ⟨?_, hpush.le_of_takenBy h hk⟩, hpush.exists_frame h,
    hpush.drained_eq h⟩
  have hr' := getElem?_of_prefix htaken hk.taken_eq
  exact Option.some.inj (hr'.symm.trans hpush.pushed_eq)

/-- A push between the exchange of the first frame and its advance. -/
def missed : List Event :=
  [.pushed 1 ⟨5, 0, 25, [1]⟩, .observed 2 0, .swapped 1 [⟨5, 0, 25, [1]⟩],
    .pushed 2 ⟨6, 0, 26, [2, 3]⟩, .observed 2 0, .advanced 1, .observed 2 1,
    .drained [⟨5, 0, 25, [1]⟩], .rebuilt,
    .swapped 2 [⟨6, 0, 26, [2, 3]⟩], .advanced 2, .drained [⟨6, 0, 26, [2, 3]⟩], .rebuilt,
    .swapped 3 [], .advanced 3]

/-- It waits for the second frame, although its producer still sees no frame counted, and three
frames have to be counted before it is sure to be carried out. -/
theorem Interleaving.paced_missed : ∃ φ s, Interleaving {} missed φ s ∧
    PushedBetween missed 0 1 ⟨6, 0, 26, [2, 3]⟩ 0 ∧
    (∀ r k, TakenBy missed 1 r k → r = ⟨6, 0, 26, [2, 3]⟩ ∧ k = 2) ∧
    (missed.flatMap Event.drains)[1]? = some ⟨6, 0, 26, [2, 3]⟩ := by
  have hnew : Interleaving {} _ _ _ := .new
  have hpushed := ((((hnew.move (.push _ _ 1 5 [[1]] (by decide))).move (.look _ _ 2)).move
    (.swap _)).move (.push _ _ 2 6 [[2, 3]] (by decide))).move (.look _ _ 2)
  have hfirst := (((hpushed.move (.advance _)).move (.wait _ _ 2 0 1 (by decide))).move
    (.drain _)).move (.rebuild _)
  have hsecond := (((hfirst.move (.swap _)).move (.advance _)).move (.drain _)).move (.rebuild _)
  have hrun : Interleaving {} missed _ _ := (hsecond.move (.swap _)).move (.advance _)
  have hpush : PushedBetween missed 0 1 ⟨6, 0, 26, [2, 3]⟩ 0 :=
    ⟨2, missed.take 1, (missed.drop 2).take 1, [], missed.drop 5, rfl, rfl⟩
  have htaken : TakenBy missed 1 ⟨6, 0, 26, [2, 3]⟩ 2 :=
    ⟨missed.take 9, _, missed.drop 10, 0, rfl, rfl, rfl⟩
  obtain ⟨-, -, -, -, -, -, honce, hpaced⟩ := hrun.paced
  refine ⟨_, _, hrun, hpush, fun r k hk => honce 1 _ _ _ _ hk htaken, ?_⟩
  exact (hpaced 0 1 _ 0 hpush).2.2.2 (by decide +kernel)

end Session

end SceneGraph
