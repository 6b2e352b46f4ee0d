import SceneGraph.Queue

/-!
# What an exchange hands over

Each side of a queue is a list of records laid end to end. A push adds to the list of the write
side, an exchange hands that list over, and clearing drops the list of the read side; a refused
exchange leaves both. So whatever the producers do meanwhile, the consumer finds the records pushed
between two exchanges, in the order of their pushes and at the offsets the pushes gave.
-/

namespace SceneGraph

/-- Bytes are found where they lie among the live ones. -/
theorem Arena.get?_eq_some {a : Arena} {before bs after : Bytes}
    (h : a.live = before ++ (bs ++ after)) (hword : a.top < UInt64.size) :
    a.get? before.length bs.length = some bs := by
  have htop : a.top = before.length + (bs.length + after.length) := by
    rw [← a.length_live, h, List.length_append, List.length_append]
  have hle : before.length + bs.length ≤ a.top := by omega
  rw [get?, if_pos ((within_iff hword ..).2 hle), h, List.drop_left, List.take_left]

namespace Record

/-- A record as it lies in an arena: its header, then its payload. -/
def bytes (r : Record) : Bytes :=
  header.write (r.kind, UInt64.ofNat r.payload.length, UInt64.ofNat r.next) ++ r.payload

theorem length_bytes (r : Record) : r.bytes.length = 24 + r.payload.length := by
  rw [bytes, List.length_append, header.length_write, size_header]

/-- The records lie end to end, the first of them at `start`, and the last one's successor is
`stop`. -/
def Adjacent : (start : Nat) → List Record → (stop : Nat) → Prop
  | start, [], stop => start = stop
  | start, r :: rs, stop =>
    r.offset = start ∧ r.next = r.offset + 24 + r.payload.length ∧ Adjacent r.next rs stop

namespace Adjacent

variable {start mid stop : Nat} {rs ss : List Record} {r : Record}

theorem stop_eq (h : Adjacent start rs stop) : stop = start + (rs.flatMap bytes).length := by
  induction rs generalizing start with
  | nil => exact h.symm
  | cons r rs ih =>
    obtain ⟨hoffset, hnext, hrest⟩ := h
    have hstop := ih hrest
    rw [List.flatMap_cons, List.length_append, length_bytes]
    omega

theorem append (h : Adjacent start rs mid) (h' : Adjacent mid ss stop) :
    Adjacent start (rs ++ ss) stop := by
  induction rs generalizing start with
  | nil => exact h ▸ h'
  | cons r rs ih => exact ⟨h.1, h.2.1, ih h.2.2⟩

theorem split (h : Adjacent start (rs ++ ss) stop) :
    ∃ mid, Adjacent start rs mid ∧ Adjacent mid ss stop := by
  induction rs generalizing start with
  | nil => exact ⟨start, rfl, h⟩
  | cons r rs ih =>
    obtain ⟨mid, hleft, hright⟩ := ih h.2.2
    exact ⟨mid, ⟨h.1, h.2.1, hleft⟩, hright⟩

/-- Where the records end is where the last of them says that the next one starts. -/
theorem getLast? (h : Adjacent start rs stop) :
    stop = match rs.getLast? with
      | none => start
      | some r => r.next := by
  rcases rs.eq_nil_or_concat with rfl | ⟨front, r, rfl⟩
  · exact h.symm
  · rw [List.concat_eq_append] at h ⊢
    obtain ⟨mid, -, hlast⟩ := h.split
    rw [List.getLast?_concat]
    exact hlast.2.2.symm

/-- Each record takes at least its header. -/
theorem length_le (h : Adjacent start rs stop) : start + rs.length ≤ stop := by
  induction rs generalizing start with
  | nil => exact Nat.le_of_eq h
  | cons r rs ih =>
    have hrest := ih h.2.2
    have hnext := h.2.1
    have hoffset := h.1
    rw [List.length_cons]
    omega

end Adjacent

/-- A record is read as it was written, whatever lies before and after it. -/
theorem at?_offset {a : Arena} {r : Record} {before after : Bytes}
    (hlive : a.live = before ++ (r.bytes ++ after)) (hoffset : before.length = r.offset)
    (hnext : r.next = r.offset + 24 + r.payload.length) (htop : a.top < UInt64.size) :
    at? a r.offset = .ok (some r) := by
  have hend : a.top = r.next + after.length := by
    rw [← a.length_live, hlive, List.length_append, List.length_append, length_bytes]
    omega
  have hlength : (UInt64.ofNat r.payload.length).toNat = r.payload.length :=
    UInt64.toNat_ofNat_of_lt' (by omega)
  have hnext' : (UInt64.ofNat r.next).toNat = r.next := UInt64.toNat_ofNat_of_lt' (by omega)
  rw [bytes] at hlive
  generalize hhead : header.write
    (r.kind, UInt64.ofNat r.payload.length, UInt64.ofNat r.next) = head at hlive
  have hsize : head.length = header.size := hhead ▸ header.length_write _
  have hread : header.read head =
      (r.kind, UInt64.ofNat r.payload.length, UInt64.ofNat r.next) := by
    rw [← List.append_nil head, ← hhead, header.read_write]
  have hgetHead : a.get? r.offset header.size = some head := by
    rw [← hoffset, ← hsize]
    exact Arena.get?_eq_some (by simpa using hlive) htop
  have hgetPayload : a.get? (r.offset + header.size) r.payload.length = some r.payload := by
    rw [← hoffset, ← hsize, ← List.length_append]
    exact Arena.get?_eq_some (by simpa using hlive) htop
  have hbefore : ¬ a.top ≤ r.offset := by omega
  have hbounds : r.offset + header.size + r.payload.length = r.next ∧ r.next ≤ a.top := by
    rw [size_header]
    omega
  simp only [at?, if_neg hbefore, hgetHead, hread, hlength, hnext', if_pos hbounds, hgetPayload]

end Record

/-- The live bytes are these records, end to end from the start. -/
structure Arena.Holds (a : Arena) (rs : List Record) : Prop where
  live : a.live = rs.flatMap Record.bytes
  adjacent : Record.Adjacent 0 rs a.top
  top_lt : a.top < UInt64.size

namespace Arena.Holds

variable {a : Arena} {rs front back : List Record} {offset : Nat}

theorem nil (h : a.live = []) : a.Holds [] := by
  have htop : a.top = 0 := by rw [← a.length_live, h, List.length_nil]
  refine ⟨h, htop.symm, ?_⟩
  rw [htop]
  decide

/-- Where some of the records end, the first of the others is found. -/
theorem at?_eq (h : a.Holds (front ++ back)) (hfront : Record.Adjacent 0 front offset) :
    Record.at? a offset = .ok back.head? := by
  obtain ⟨mid, hmid, hback⟩ := h.adjacent.split
  obtain rfl : mid = offset := by rw [hmid.stop_eq, hfront.stop_eq]
  cases back with
  | nil =>
    have hend : a.top ≤ mid := Nat.le_of_eq hback.symm
    rw [Record.at?, if_pos hend]
    rfl
  | cons r rest =>
    obtain ⟨rfl, hnext, -⟩ := hback
    have hlive : a.live = front.flatMap Record.bytes ++ (r.bytes ++ rest.flatMap Record.bytes) := by
      rw [h.live, List.flatMap_append, List.flatMap_cons]
    have hoffset : (front.flatMap Record.bytes).length = r.offset := by
      rw [hmid.stop_eq, Nat.zero_add]
    exact Record.at?_offset hlive hoffset hnext h.top_lt

/-- The front of a walk grows by the record that is found next. -/
theorem snoc {r : Record} (h : a.Holds (front ++ r :: back))
    (hfront : Record.Adjacent 0 front offset) : Record.Adjacent 0 (front ++ [r]) r.next := by
  obtain ⟨mid, hmid, hback⟩ := h.adjacent.split
  obtain rfl : mid = offset := by rw [hmid.stop_eq, hfront.stop_eq]
  exact hfront.append ⟨hback.1, hback.2.1, rfl⟩

end Arena.Holds

namespace Queue

section Reading

variable {q : Queue} {rs front back : List Record} {offset : Nat}

theorem walk_eq (h : q.read.Holds (front ++ back)) (hfront : Record.Adjacent 0 front offset)
    {fuel : Nat} (hfuel : back.length ≤ fuel) : q.walk fuel offset = back := by
  induction back generalizing front offset fuel with
  | nil =>
    cases fuel with
    | zero => rfl
    | succ fuel => simp only [walk, step, h.at?_eq hfront, List.head?_nil]
  | cons r back ih =>
    cases fuel with
    | zero => simp at hfuel
    | succ fuel =>
      have hrest : q.walk fuel r.next = back :=
        ih (by rwa [List.append_assoc]) (h.snoc hfront) (Nat.le_of_succ_le_succ hfuel)
      simp only [walk, step, h.at?_eq hfront, List.head?_cons, hrest]

theorem countFrom_eq (h : q.read.Holds (front ++ back)) (hfront : Record.Adjacent 0 front offset)
    {fuel count : Nat} (hfuel : back.length ≤ fuel) :
    q.countFrom fuel offset count = .ok (count + back.length) := by
  induction back generalizing front offset fuel count with
  | nil =>
    cases fuel with
    | zero => rfl
    | succ fuel => simp only [countFrom, h.at?_eq hfront, List.head?_nil]; rfl
  | cons r back ih =>
    cases fuel with
    | zero => simp at hfuel
    | succ fuel =>
      have hrest : q.countFrom fuel r.next (count + 1) = .ok (count + 1 + back.length) :=
        ih (by rwa [List.append_assoc]) (h.snoc hfront) (Nat.le_of_succ_le_succ hfuel)
      simp only [countFrom, h.at?_eq hfront, List.head?_cons, hrest, List.length_cons]
      rw [Nat.add_right_comm, Nat.add_assoc]

theorem records_eq (h : q.read.Holds rs) : q.records = rs := by
  have hlength : rs.length ≤ q.read.top := by
    have := h.adjacent.length_le
    omega
  exact walk_eq (show q.read.Holds ([] ++ rs) from h) rfl hlength

theorem validate_eq (h : q.read.Holds rs) : q.validate = .ok rs.length := by
  have hlength : rs.length ≤ q.read.top + 1 := by
    have := h.adjacent.length_le
    omega
  rw [validate, countFrom_eq (show q.read.Holds ([] ++ rs) from h) rfl hlength, Nat.zero_add]

theorem next?_getLast? (h : q.read.Holds (front ++ back)) :
    q.next? front.getLast? = back.head? := by
  obtain ⟨mid, hfront, -⟩ := h.adjacent.split
  have hmid := hfront.getLast?
  have hat := h.at?_eq hfront
  unfold next? recordAt?
  cases hlast : front.getLast? with
  | none =>
    obtain rfl : mid = 0 := by rwa [hlast] at hmid
    rw [hat]
  | some r =>
    obtain rfl : mid = r.next := by rwa [hlast] at hmid
    simp only [hat]

/-- Asking for the record after the one before visits all of them. -/
theorem next?_take (h : q.read.Holds rs) (i : Nat) :
    q.next? (rs.take i).getLast? = rs[i]? := by
  rw [← List.take_append_drop i rs] at h
  rw [next?_getLast? h, List.head?_drop]

end Reading

/-! ## Histories -/

/-- A call that changes a queue. The consumer exchanges and clears, and any number of producers
push. -/
inductive Call where
  | push (producer : Nat) (kind : UInt32) (parts : List Bytes)
  | swap
  | clear

/-- A call that was made, with what it answered. -/
inductive Event where
  | pushed (producer : Nat) (kind : UInt32) (parts : List Bytes) (offset : Nat)
  | swapped (readable : Nat)
  | refused (e : QueueError)
  | cleared

/-- Makes a call: what is seen of it, and the queue afterwards. -/
def perform (q : Queue) : Call → Event × Queue
  | .push producer kind parts =>
    (.pushed producer kind parts (q.push kind parts).1, (q.push kind parts).2)
  | .swap => match q.swap with
    | .ok (readable, q) => (.swapped readable, q)
    | .error e => (.refused e, q)
  | .clear => (.cleared, q.clear)

theorem swap_drained {q : Queue} (h : q.readable = 0) :
    q.swap = .ok (q.pending, ⟨q.read, q.write, q.swaps + 1⟩) := by
  have hempty : q.read.isEmpty := beq_iff_eq.2 h
  rw [swap, if_pos hempty]
  rfl

theorem perform_swap_drained {q : Queue} (h : q.readable = 0) :
    q.perform .swap = (.swapped q.pending, ⟨q.read, q.write, q.swaps + 1⟩) := by
  simp only [perform, swap_drained h]

theorem perform_swap_undrained {q : Queue} (h : q.readable ≠ 0) :
    q.perform .swap = (.refused (.notDrained q.readable), q) := by
  have hempty : ¬ q.read.isEmpty := fun he => h (beq_iff_eq.1 he)
  simp only [perform, swap, if_neg hempty]
  rfl

theorem readable_of_swapped {q : Queue} {c : Call} {readable : Nat}
    (h : (q.perform c).1 = .swapped readable) : (q.perform c).2.readable = readable := by
  cases c with
  | push | clear => nomatch h
  | swap =>
    by_cases hdrained : q.readable = 0
    · rw [perform_swap_drained hdrained] at h ⊢
      injection h
    · rw [perform_swap_undrained hdrained] at h
      nomatch h

/-- The calls made on a new queue so far, whichever hands they came from, and the queue that they
left. The bytes that wait never outgrow a word. -/
inductive History (capacity : Nat) : List Event → Queue → Prop
  | new : History capacity [] (ofCapacity capacity)
  | call {es : List Event} {q : Queue} (h : History capacity es q) (c : Call)
      (hfits : (q.perform c).2.pending < UInt64.size) :
      History capacity (es ++ [(q.perform c).1]) (q.perform c).2

namespace Event

/-- The record that a push appended, at the offset that it answered. -/
def record? : Event → Option Record
  | pushed _ kind parts offset =>
    some ⟨kind, offset, offset + 24 + parts.flatten.length, parts.flatten⟩
  | _ => none

def isSwap : Event → Bool
  | swapped _ => true
  | _ => false

def isClear : Event → Bool
  | cleared => true
  | _ => false

/-- What waits for the next exchange, and what is on the read side, after an event. -/
def advance (sides : List Record × List Record) : Event → List Record × List Record
  | swapped _ => ([], sides.1)
  | cleared => (sides.1, [])
  | e => (sides.1 ++ e.record?.toList, sides.2)

variable {sides : List Record × List Record} {es : List Event}

theorem foldl_advance_fst (hes : ∀ e ∈ es, ¬ e.isSwap) :
    (es.foldl advance sides).1 = sides.1 ++ es.filterMap record? := by
  induction es generalizing sides with
  | nil => simp
  | cons e es ih =>
    have hrest := fun sides => @ih sides fun e' he' => hes e' (List.mem_cons_of_mem e he')
    have he := hes e List.mem_cons_self
    cases e with
    | swapped => exact absurd rfl he
    | pushed | refused | cleared => simp [advance, hrest, record?, List.filterMap_cons]

/-- Between exchanges the read side stays as it is, unless it is cleared. -/
theorem foldl_advance_snd (hes : ∀ e ∈ es, ¬ e.isSwap) :
    (es.foldl advance sides).2 = if es.any isClear then [] else sides.2 := by
  induction es generalizing sides with
  | nil => rfl
  | cons e es ih =>
    have hrest := fun sides => @ih sides fun e' he' => hes e' (List.mem_cons_of_mem e he')
    cases e with
    | swapped => exact absurd rfl (hes _ List.mem_cons_self)
    | pushed | refused | cleared => simp [advance, hrest, isClear]

end Event

/-- The records that wait and those on the read side, after these events. -/
def sides (es : List Event) : List Record × List Record := es.foldl Event.advance ([], [])

theorem sides_concat (es : List Event) (e : Event) :
    sides (es ++ [e]) = e.advance (sides es) := by
  rw [sides, List.foldl_append]
  rfl

theorem sides_fst_eq_nil {es : List Event} (h : ∀ e ∈ es.getLast?, e.isSwap) :
    (sides es).1 = [] := by
  rcases es.eq_nil_or_concat with rfl | ⟨front, e, rfl⟩
  · rfl
  · rw [List.concat_eq_append] at h ⊢
    have he : e.isSwap := h e (by rw [List.getLast?_concat]; rfl)
    rw [sides_concat]
    cases e with
    | swapped => rfl
    | pushed | refused | cleared => exact absurd he Bool.false_ne_true

/-- The read side has what was pushed between the last two exchanges. -/
theorem sides_snd {before batch after : List Event} (readable : Nat)
    (hbefore : ∀ e ∈ before.getLast?, e.isSwap) (hbatch : ∀ e ∈ batch, ¬ e.isSwap)
    (hswap : ∀ e ∈ after, ¬ e.isSwap) (hclear : ∀ e ∈ after, ¬ e.isClear) :
    (sides (before ++ (batch ++ .swapped readable :: after))).2 =
      batch.filterMap Event.record? := by
  rw [sides, List.foldl_append, List.foldl_append, List.foldl_cons, ← sides,
    Event.foldl_advance_snd hswap, if_neg (by simpa using hclear)]
  change (batch.foldl Event.advance (sides before)).1 = _
  rw [Event.foldl_advance_fst hbatch, sides_fst_eq_nil hbefore, List.nil_append]

/-! ## What every history keeps -/

variable {capacity : Nat} {es : List Event} {q : Queue}

theorem holds_push {waiting : List Record} (h : q.write.Holds waiting) (kind : UInt32)
    (parts : List Bytes) (hfits : (q.push kind parts).2.pending < UInt64.size) :
    (q.push kind parts).2.write.Holds (waiting ++ [⟨kind, (q.push kind parts).1,
      (q.push kind parts).1 + 24 + parts.flatten.length, parts.flatten⟩]) := by
  have htop : (q.push kind parts).2.write.top = q.write.top + 24 + parts.flatten.length :=
    q.pending_push kind parts
  refine ⟨?_, ?_, hfits⟩
  · simp only [push, Arena.live_foldl_append, Arena.live_append, h.live, List.flatMap_append,
      List.flatMap_cons, List.flatMap_nil, List.append_nil, Record.bytes, List.append_assoc,
      Record.size_header]
  · rw [htop]
    exact h.adjacent.append ⟨rfl, rfl, rfl⟩

/-- A call moves the records on both sides as its event says. -/
theorem holds_perform {c : Call} {sides : List Record × List Record}
    (hwrite : q.write.Holds sides.1) (hread : q.read.Holds sides.2)
    (hfits : (q.perform c).2.pending < UInt64.size) :
    (q.perform c).2.write.Holds ((q.perform c).1.advance sides).1 ∧
      (q.perform c).2.read.Holds ((q.perform c).1.advance sides).2 := by
  cases c with
  | push producer kind parts => exact ⟨holds_push hwrite kind parts hfits, hread⟩
  | clear => exact ⟨hwrite, .nil q.read.live_clear⟩
  | swap =>
    by_cases hdrained : q.readable = 0
    · have hlive : q.read.live = [] := by
        rw [← List.length_eq_zero_iff, q.read.length_live]
        exact hdrained
      rw [perform_swap_drained hdrained]
      exact ⟨.nil hlive, hwrite⟩
    · rw [perform_swap_undrained hdrained]
      simpa [Event.advance, Event.record?] using And.intro hwrite hread

namespace History

theorem holds (h : History capacity es q) :
    q.write.Holds (sides es).1 ∧ q.read.Holds (sides es).2 := by
  induction h with
  | new => exact ⟨.nil rfl, .nil rfl⟩
  | call h c hfits ih =>
    rw [sides_concat]
    exact holds_perform ih.1 ih.2 hfits

/-- Unless it is empty, what was handed over stays until it is cleared, since no exchange succeeds
before. -/
theorem readable_eq {front after : List Event} {readable : Nat} (h : History capacity es q)
    (hes : es = front ++ .swapped readable :: after) (hclear : ∀ e ∈ after, ¬ e.isClear)
    (hempty : readable = 0 → ∀ e ∈ after, ¬ e.isSwap) :
    q.readable = readable ∧ ∀ e ∈ after, ¬ e.isSwap := by
  induction h generalizing after with
  | new => simp at hes
  | @call es q h c hfits ih =>
    rcases after.eq_nil_or_concat with rfl | ⟨after, e, rfl⟩
    · obtain ⟨-, he⟩ := List.append_inj' hes rfl
      exact ⟨readable_of_swapped (List.singleton_inj.1 he), by simp⟩
    · rw [List.concat_eq_append] at hes hclear hempty ⊢
      rw [← List.cons_append, ← List.append_assoc] at hes
      obtain ⟨rfl, he⟩ := List.append_inj' hes rfl
      obtain rfl : (q.perform c).1 = e := List.singleton_inj.1 he
      obtain ⟨hreadable, hswap⟩ := ih rfl (fun e he => hclear e (List.mem_append_left _ he))
        (fun h0 e he => hempty h0 e (List.mem_append_left _ he))
      have hlast : (q.perform c).1 ∈ after ++ [(q.perform c).1] := by simp
      have hstays : (q.perform c).2.readable = readable ∧ ¬ (q.perform c).1.isSwap := by
        cases c with
        | push => exact ⟨hreadable, Bool.false_ne_true⟩
        | clear => exact absurd rfl (hclear _ hlast)
        | swap =>
          by_cases hdrained : q.readable = 0
          · have := hempty (hreadable.symm.trans hdrained) _ hlast
            rw [perform_swap_drained hdrained] at this
            exact absurd rfl this
          · rw [perform_swap_undrained hdrained]
            exact ⟨hreadable, Bool.false_ne_true⟩
      refine ⟨hstays.1, fun e he => ?_⟩
      rcases List.mem_append.1 he with he | he
      · exact hswap e he
      · rw [List.mem_singleton.1 he]
        exact hstays.2

/-- What was cleared is gone until the next exchange, which nothing stands in the way of. -/
theorem cleared {before after : List Event} (h : History capacity es q)
    (hes : es = before ++ .cleared :: after) (hswap : ∀ e ∈ after, ¬ e.isSwap) :
    q.records = [] ∧ q.readable = 0 := by
  have hread := h.holds.2
  have hnone : (sides es).2 = [] := by
    rw [hes, sides, List.foldl_append, List.foldl_cons, Event.foldl_advance_snd hswap]
    exact ite_self []
  rw [hnone] at hread
  exact ⟨records_eq hread, hread.adjacent.symm⟩

/-- The consumer finds what was pushed between the last two exchanges, end to end from offset 0 on,
until it clears it or exchanges it, empty, for another batch. After it has cleared it, it finds
nothing until an exchange, and the next one succeeds. An exchange is refused if and only if
something is left, and then it changes nothing. All ways to read agree. -/
theorem handed_over (h : History capacity es q) :
    (∀ (before batch : List Event) (readable : Nat) (after : List Event),
      es = before ++ (batch ++ .swapped readable :: after) →
      (∀ e ∈ before.getLast?, e.isSwap) → (∀ e ∈ batch, ¬ e.isSwap) →
      (∀ e ∈ after, ¬ e.isClear) → (readable = 0 → ∀ e ∈ after, ¬ e.isSwap) →
      q.records = batch.filterMap Event.record? ∧ Record.Adjacent 0 q.records readable) ∧
    (∀ before after : List Event, es = before ++ .cleared :: after → (∀ e ∈ after, ¬ e.isSwap) →
      q.records = [] ∧ q.readable = 0 ∧ (q.perform .swap).1 = .swapped q.pending) ∧
    (∀ e, (q.perform .swap).1 = .refused e ↔ q.readable ≠ 0 ∧ e = .notDrained q.readable) ∧
    (q.readable ≠ 0 → (q.perform .swap).2 = q) ∧
    (∀ i, q.next? (q.records.take i).getLast? = q.records[i]?) ∧
    q.validate = .ok q.records.length := by
  have hread := h.holds.2
  have hrecords : q.records = (sides es).2 := records_eq hread
  refine ⟨?_, ?_, ?_, ?_, ?_, ?_⟩
  · intro before batch readable after hes hbefore hbatch hclear hempty
    obtain ⟨hreadable, hswap⟩ := h.readable_eq (by rw [hes, List.append_assoc]) hclear hempty
    refine ⟨?_, ?_⟩
    · rw [hrecords, hes, sides_snd readable hbefore hbatch hswap hclear]
    · rw [hrecords, ← hreadable]
      exact hread.adjacent
  · intro before after hes hswap
    obtain ⟨hnone, hdrained⟩ := h.cleared hes hswap
    refine ⟨hnone, hdrained, ?_⟩
    rw [perform_swap_drained hdrained]
  · intro e
    by_cases hdrained : q.readable = 0
    · simp [perform_swap_drained hdrained, hdrained]
    · simp [perform_swap_undrained hdrained, hdrained, eq_comm]
  · intro hleft
    rw [perform_swap_undrained hleft]
  · intro i
    rw [hrecords]
    exact next?_take hread i
  · rw [hrecords]
    exact validate_eq hread

/-- A push while a batch is read, and an exchange that comes too early. -/
def early : List Event :=
  [.pushed 1 5 [[1], [2, 3]] 0, .pushed 2 6 [] 27, .swapped 51, .pushed 1 7 [[4]] 0,
    .refused (.notDrained 51)]

/-- The batch stays until it is cleared, and the next exchange hands over what was pushed
meanwhile. -/
theorem handed_over_early : ∃ q q' q'',
    History 0 early q ∧ q.records = [⟨5, 0, 27, [1, 2, 3]⟩, ⟨6, 27, 51, []⟩] ∧
    q.next? (some ⟨5, 0, 27, [1, 2, 3]⟩) = some ⟨6, 27, 51, []⟩ ∧ q.validate = .ok 2 ∧
    History 0 (early ++ [.cleared]) q' ∧ q'.records = [] ∧
    History 0 (early ++ [.cleared, .swapped 25]) q'' ∧ q''.records = [⟨7, 0, 25, [4]⟩] := by
  have h : History 0 early _ := ((((History.new.call (.push 1 5 [[1], [2, 3]]) (by decide)).call
    (.push 2 6 []) (by decide)).call .swap (by decide)).call (.push 1 7 [[4]]) (by decide)).call
    .swap (by decide)
  have hcleared := h.call .clear (by decide)
  have hsecond : History 0 (early ++ [.cleared, .swapped 25]) _ := hcleared.call .swap (by decide)
  obtain ⟨hbatch, -, -, -, hnext, hcount⟩ := handed_over h
  have hrecords := (hbatch [] [.pushed 1 5 [[1], [2, 3]] 0, .pushed 2 6 [] 27] 51
    [.pushed 1 7 [[4]] 0, .refused (.notDrained 51)] rfl (by simp) (by simp [Event.isSwap])
    (by simp [Event.isClear]) (by simp)).1
  have hfollowing := hnext 1
  rw [hrecords] at hfollowing hcount
  obtain ⟨-, hnone, -⟩ := handed_over hcleared
  obtain ⟨hlast, -⟩ := handed_over hsecond
  refine ⟨_, _, _, h, hrecords, hfollowing, hcount, hcleared,
    (hnone early [] rfl (by simp)).1, hsecond, ?_⟩
  exact (hlast (early.take 3) [.pushed 1 7 [[4]] 0, .refused (.notDrained 51), .cleared] 25 [] rfl
    (by simp [early, Event.isSwap]) (by simp [Event.isSwap]) (by simp) (by simp)).1

end History

end Queue

end SceneGraph
