import SceneGraph.Proofs.Exchanges

/-!
# Reading from any cursor

Here the bytes on the read side are arbitrary: no push has to have written them, and a cursor may
point anywhere. A header is believed only as far as the live bytes bear it out, so a read looks at
live bytes alone, and a record that is found ends at least 24 bytes after its offset. This makes
every walk end, and the three ways to walk are one: the trail that is left by asking for the record
after the one before.
-/

namespace SceneGraph

namespace Arena

variable {a b : Arena} {offset n : Nat}

/-- Bytes that are given out are those between two offsets below the top. -/
theorem get?_eq_some_iff {bs : Bytes} :
    a.get? offset n = some bs ↔ a.Within offset n ∧ a.live.extract offset (offset + n) = bs := by
  rw [get?, List.extract_eq_take_drop, Nat.add_sub_cancel_left]
  split <;> simp [*]

/-- Only the bytes that are given out matter, and how many are live. -/
theorem get?_congr (htop : b.top = a.top)
    (h : a.Within offset n → ∀ i, offset ≤ i → i < offset + n → b.written[i]? = a.written[i]?) :
    b.get? offset n = a.get? offset n := by
  have hwithin : b.Within offset n ↔ a.Within offset n := by rw [Within, Within, htop]
  by_cases hw : a.Within offset n
  · rw [get?, get?, if_pos hw, if_pos (hwithin.2 hw), live, live, htop]
    congr 1
    refine List.ext_getElem? fun i => ?_
    have hle := hw.2
    by_cases hi : i < n
    · have hbyte := h hw (offset + i) (by omega) (by omega)
      simp only [List.getElem?_take, List.getElem?_drop, if_pos hi]
      rw [if_pos (by omega), if_pos (by omega), hbyte]
    · simp only [List.getElem?_take, if_neg hi]
  · rw [get?, get?, if_neg hw, if_neg (fun hw' => hw (hwithin.1 hw'))]

end Arena

namespace Record

/-- The live bytes have this record: header and payload lie where it says, and the header says so
too. -/
structure Lies (a : Arena) (r : Record) : Prop where
  next_eq : r.next = r.offset + 24 + r.payload.length
  next_le : r.next ≤ a.top
  next_lt : r.next < UInt64.size
  payload_eq : r.payload = a.live.extract (r.offset + 24) r.next
  header_eq : header.read (a.live.extract r.offset (r.offset + 24)) =
    (r.kind, UInt64.ofNat r.payload.length, UInt64.ofNat r.next)

/-- The byte at position `i` is read to find the record at `offset`: it is one of the header, which
is read if all of it is live, or one of the payload of the record that is found. -/
def Reads (a : Arena) (offset i : Nat) : Prop :=
  a.Within offset 24 ∧ offset ≤ i ∧ i < offset + 24 ∨
    ∃ r, at? a offset = .ok (some r) ∧ offset + 24 ≤ i ∧ i < r.next

variable {a b : Arena} {offset i : Nat} {r : Record}

theorem at?_eq_none_iff : at? a offset = .ok none ↔ a.top ≤ offset := by
  unfold at?
  grind

/-- Nothing but the header at the cursor is ever blamed. -/
theorem eq_corrupt {e : QueueError} (h : at? a offset = .error e) : e = .corrupt offset := by
  unfold at? at h
  grind

/-- What a header says has been checked before the record is given out. -/
theorem lies_of_at? (h : at? a offset = .ok (some r)) : r.offset = offset ∧ r.Lies a := by
  unfold at? at h
  split at h
  · nomatch h
  split at h
  · nomatch h
  next head hhead =>
    obtain ⟨-, rfl⟩ := Arena.get?_eq_some_iff.1 hhead
    rcases hfields : header.read (a.live.extract offset (offset + header.size)) with
      ⟨kind, length, next⟩
    simp only [hfields] at h
    split at h
    · next hbounds =>
      split at h
      · nomatch h
      next payload hpayload =>
        obtain ⟨hwithin, hbytes⟩ := Arena.get?_eq_some_iff.1 hpayload
        cases h
        rw [hbounds.1] at hbytes
        have hlength : payload.length = length.toNat := by
          rw [← hbytes, List.extract_eq_take_drop, List.length_take, List.length_drop,
            a.length_live]
          omega
        refine ⟨rfl, ⟨?_, hbounds.2, next.toNat_lt, hbytes.symm, ?_⟩⟩
        · rw [hlength]
          exact hbounds.1.symm
        · rw [hlength, UInt64.ofNat_toNat, UInt64.ofNat_toNat]
          exact hfields
    · nomatch h

theorem Lies.at?_eq (h : r.Lies a) : at? a r.offset = .ok (some r) := by
  have hnext := h.next_eq
  have hle := h.next_le
  have hlt := h.next_lt
  have hlength : (UInt64.ofNat r.payload.length).toNat = r.payload.length :=
    UInt64.toNat_ofNat_of_lt' (by omega)
  have hnext' : (UInt64.ofNat r.next).toNat = r.next := UInt64.toNat_ofNat_of_lt' hlt
  have hhead : a.get? r.offset header.size = some (a.live.extract r.offset (r.offset + 24)) :=
    Arena.get?_eq_some_iff.2 ⟨⟨by rw [size_header]; omega, by rw [size_header]; omega⟩, rfl⟩
  have hpayload : a.get? (r.offset + header.size) r.payload.length = some r.payload := by
    rw [size_header]
    refine Arena.get?_eq_some_iff.2 ⟨⟨by omega, by omega⟩, ?_⟩
    rw [← hnext, ← h.payload_eq]
  have hbefore : ¬ a.top ≤ r.offset := by omega
  have hbounds : r.offset + header.size + r.payload.length = r.next ∧ r.next ≤ a.top := by
    rw [size_header]
    omega
  simp only [at?, if_neg hbefore, hhead, h.header_eq, hlength, hnext', if_pos hbounds, hpayload]

/-- A record is found where the live bytes have one, and nowhere else. -/
theorem at?_eq_some_iff : at? a offset = .ok (some r) ↔ r.offset = offset ∧ r.Lies a := by
  refine ⟨lies_of_at?, ?_⟩
  rintro ⟨rfl, h⟩
  exact h.at?_eq

/-- No byte above the top is read. -/
theorem Reads.lt_top (h : Reads a offset i) : i < a.top := by
  rcases h with ⟨hwithin, -, hi⟩ | ⟨r, hr, -, hi⟩
  · have := hwithin.2
    omega
  · have := (lies_of_at? hr).2.next_le
    omega

/-- The bytes that are read are all that matters, and how many are live. -/
theorem at?_congr (htop : b.top = a.top)
    (h : ∀ i, Reads a offset i → b.written[i]? = a.written[i]?) : at? b offset = at? a offset := by
  have hhead : b.get? offset header.size = a.get? offset header.size :=
    Arena.get?_congr htop fun hwithin i hle hlt => h i (.inl ⟨hwithin, hle, hlt⟩)
  by_cases hbefore : a.top ≤ offset
  · rw [at?_eq_none_iff.2 hbefore, at?_eq_none_iff.2 (htop ▸ hbefore)]
  cases hhead' : a.get? offset header.size with
  | none => simp only [at?, htop, hhead, hhead']
  | some head =>
    simp only [at?, htop, hhead, hhead', if_neg hbefore]
    split
    · next hbounds =>
      have hpayload : b.get? (offset + header.size) (header.read head).2.1.toNat =
          a.get? (offset + header.size) (header.read head).2.1.toNat := by
        refine Arena.get?_congr htop fun hwithin i hle hlt => h i (.inr ?_)
        have hfound : at? a offset = .ok (some ⟨(header.read head).1, offset,
            (header.read head).2.2.toNat, a.live.extract (offset + header.size)
              (offset + header.size + (header.read head).2.1.toNat)⟩) := by
          simp only [at?, if_neg hbefore, hhead', if_pos hbounds,
            Arena.get?_eq_some_iff.2 ⟨hwithin, rfl⟩]
        refine ⟨_, hfound, hle, ?_⟩
        rw [← hbounds.1]
        exact hlt
      rw [hpayload]
    · rfl

end Record

namespace Queue

/-- Where the record after `previous` would lie. -/
def cursor (previous : Option Record) : Nat := previous.elim 0 Record.next

/-- The records that are found one after the other by asking, each time, for the record after the
one before; at the last of them there is none. -/
inductive Trail (q : Queue) : (previous : Option Record) → List Record → Prop
  | stop {previous : Option Record} (h : q.next? previous = none) : Trail q previous []
  | step {previous : Option Record} {r : Record} {rs : List Record}
      (h : q.next? previous = some r) (hrest : Trail q (some r) rs) : Trail q previous (r :: rs)

/-- Where an iteration that starts at `offset` stands after `k` calls. -/
def position (q : Queue) : (k offset : Nat) → Nat
  | 0, offset => offset
  | k + 1, offset => q.position k (q.step offset).2

/-- What such an iteration answers to the call after the first `k`. -/
def answer (q : Queue) (k offset : Nat) : Option Record := (q.step (q.position k offset)).1

variable {q : Queue} {previous : Option Record} {r : Record} {rs : List Record} {offset : Nat}

/-! ## One step -/

theorem next?_eq_step (q : Queue) (previous : Option Record) :
    q.next? previous = (q.step (cursor previous)).1 := by
  have hcursor : q.next? previous = q.recordAt? (cursor previous) := by
    cases previous with
    | none | some => rfl
  rw [hcursor, recordAt?, step]
  cases Record.at? q.read (cursor previous) with
  | ok found => cases found <;> rfl
  | error => rfl

theorem step_eq_some_iff : (q.step offset).1 = some r ↔ r.offset = offset ∧ r.Lies q.read := by
  rw [← Record.at?_eq_some_iff, step]
  cases Record.at? q.read offset with
  | ok found => cases found <;> simp
  | error => simp

theorem step_of_some (h : (q.step offset).1 = some r) : q.step offset = (some r, r.next) := by
  have hat := Record.at?_eq_some_iff.2 (step_eq_some_iff.1 h)
  rw [step, hat]

/-- A record that is found takes at least its header, so the walk moves on, within the live
bytes. -/
theorem next_of_some (h : (q.step offset).1 = some r) :
    offset + 24 ≤ r.next ∧ r.next ≤ q.readable := by
  obtain ⟨hoffset, hlies⟩ := step_eq_some_iff.1 h
  have hnext := hlies.next_eq
  have hle : r.next ≤ q.readable := hlies.next_le
  omega

theorem step_of_le (h : q.readable ≤ offset) : (q.step offset).1 = none := by
  have hat : Record.at? q.read offset = .ok none := Record.at?_eq_none_iff.2 h
  rw [step, hat]

/-- Where a walk stopped it stays stopped. -/
theorem step_step_of_none (h : (q.step offset).1 = none) :
    (q.step (q.step offset).2).1 = none := by
  cases hat : Record.at? q.read offset with
  | ok found =>
    cases found with
    | some r => simp [step, hat] at h
    | none =>
      have hstay : (q.step offset).2 = offset := by rw [step, hat]
      rwa [hstay]
  | error =>
    have hend : (q.step offset).2 = q.read.top := by rw [step, hat]
    rw [hend]
    exact step_of_le (Nat.le_refl _)

theorem step_le (h : offset ≤ q.readable) : (q.step offset).2 ≤ q.readable := by
  cases hat : Record.at? q.read offset with
  | ok found =>
    cases found with
    | some r =>
      rw [step, hat]
      exact (Record.lies_of_at? hat).2.next_le
    | none => rwa [step, hat]
  | error =>
    rw [step, hat]
    exact Nat.le_refl _

/-! ## The three ways to walk -/

namespace Trail

theorem length_le (h : q.Trail previous rs) : 24 * rs.length ≤ q.readable - cursor previous := by
  induction h with
  | stop => exact Nat.zero_le _
  | step h hrest ih =>
    have hmoved := next_of_some (next?_eq_step q _ ▸ h)
    change _ ≤ _ - Record.next _ at ih
    rw [List.length_cons]
    omega

/-- There is only one way to go on. -/
theorem unique {ss : List Record} (h : q.Trail previous rs) (h' : q.Trail previous ss) :
    rs = ss := by
  induction h generalizing ss with
  | stop h =>
    cases h' with
    | stop => rfl
    | step hfound => nomatch h.symm.trans hfound
  | step h hrest ih =>
    cases h' with
    | stop hnone => nomatch hnone.symm.trans h
    | step hfound hrest' =>
      obtain rfl := Option.some.inj (h.symm.trans hfound)
      rw [ih hrest']

end Trail

theorem walk_of_none {fuel : Nat} (h : (q.step offset).1 = none) : q.walk fuel offset = [] := by
  cases fuel with
  | zero => rfl
  | succ fuel =>
    have hstep : q.step offset = (none, (q.step offset).2) := Prod.ext h rfl
    rw [walk, hstep]

theorem walk_of_some {fuel : Nat} (h : (q.step offset).1 = some r) :
    q.walk (fuel + 1) offset = r :: q.walk fuel r.next := by
  rw [walk, step_of_some h]

/-- A walk with a step for each live byte ahead of it leaves the trail. -/
theorem trail_walk {fuel : Nat} (hfuel : q.readable ≤ cursor previous + fuel) :
    q.Trail previous (q.walk fuel (cursor previous)) := by
  induction fuel generalizing previous with
  | zero =>
    have hend : (q.step (cursor previous)).1 = none := step_of_le hfuel
    rw [walk_of_none hend]
    exact .stop (next?_eq_step q previous ▸ hend)
  | succ fuel ih =>
    cases hstep : (q.step (cursor previous)).1 with
    | none =>
      rw [walk_of_none hstep]
      exact .stop (next?_eq_step q previous ▸ hstep)
    | some r =>
      have hmoved := next_of_some hstep
      have hrest : q.Trail (some r) (q.walk fuel r.next) :=
        ih (show q.readable ≤ r.next + fuel by omega)
      rw [walk_of_some hstep]
      exact .step (next?_eq_step q previous ▸ hstep) hrest

theorem answer_of_none (h : (q.step offset).1 = none) (k : Nat) : q.answer k offset = none := by
  induction k generalizing offset with
  | zero => exact h
  | succ k ih => exact ih (step_step_of_none h)

/-- The calls answer what a walk finds, one by one, and nothing after that. -/
theorem answer_eq {fuel : Nat} (hfuel : q.readable ≤ offset + fuel) (k : Nat) :
    q.answer k offset = (q.walk fuel offset)[k]? := by
  induction fuel generalizing offset k with
  | zero =>
    have hend : (q.step offset).1 = none := step_of_le hfuel
    rw [walk_of_none hend, answer_of_none hend, List.getElem?_nil]
  | succ fuel ih =>
    cases hstep : (q.step offset).1 with
    | none => rw [walk_of_none hstep, answer_of_none hstep, List.getElem?_nil]
    | some r =>
      have hmoved := next_of_some hstep
      rw [walk_of_some hstep]
      cases k with
      | zero => exact hstep
      | succ k =>
        rw [List.getElem?_cons_succ, ← ih (by omega) k]
        change q.answer k (q.step offset).2 = _
        rw [step_of_some hstep]

theorem position_le (h : offset ≤ q.readable) (k : Nat) : q.position k offset ≤ q.readable := by
  induction k generalizing offset with
  | zero => exact h
  | succ k ih => exact ih (step_le h)

/-- A count comes to the same place as a walk, and complains if that is not the end. -/
theorem countFrom_walk {fuel : Nat} (hfuel : q.readable ≤ offset + fuel) (count : Nat) :
    q.countFrom (fuel + 1) offset count =
      match Record.at? q.read (q.position (q.walk fuel offset).length offset) with
      | .ok _ => .ok (count + (q.walk fuel offset).length)
      | .error e => .error e := by
  induction fuel generalizing offset count with
  | zero =>
    have hat : Record.at? q.read offset = .ok none := Record.at?_eq_none_iff.2 hfuel
    simp only [countFrom, walk, List.length_nil, position, hat, Nat.add_zero]
  | succ fuel ih =>
    cases hstep : (q.step offset).1 with
    | none =>
      rw [walk_of_none hstep, List.length_nil, position, countFrom]
      cases hat : Record.at? q.read offset with
      | ok found =>
        cases found with
        | none => rfl
        | some r => simp [step, hat] at hstep
      | error => rfl
    | some r =>
      have hmoved := next_of_some hstep
      have hat := Record.at?_eq_some_iff.2 (step_eq_some_iff.1 hstep)
      rw [walk_of_some hstep, List.length_cons, position, step_of_some hstep, countFrom, hat]
      simp only
      rw [ih (by omega)]
      cases Record.at? q.read (q.position (q.walk fuel r.next).length r.next) with
      | ok found => rw [Nat.add_assoc, Nat.add_comm 1]
      | error => rfl

/-- A validation counts the records, or blames the header at which the iteration over them
stopped, if that is not where the live bytes end. -/
theorem validate_eq_ite (q : Queue) :
    q.validate = if q.position q.records.length 0 = q.readable then .ok q.records.length
      else .error (.corrupt (q.position q.records.length 0)) := by
  have hfuel : q.readable ≤ 0 + q.read.top := by rw [Nat.zero_add]; exact Nat.le_refl _
  have hcount : q.validate = _ := countFrom_walk hfuel 0
  have hstopped : q.answer q.records.length 0 = none := by
    rw [answer_eq hfuel]
    exact List.getElem?_eq_none (Nat.le_refl _)
  change q.validate = match Record.at? q.read (q.position q.records.length 0) with
    | .ok _ => .ok (0 + q.records.length)
    | .error e => .error e at hcount
  rw [hcount, Nat.zero_add]
  cases hat : Record.at? q.read (q.position q.records.length 0) with
  | ok found =>
    cases found with
    | some r => simp [answer, step, hat] at hstopped
    | none =>
      have hend : q.readable ≤ q.position q.records.length 0 := Record.at?_eq_none_iff.1 hat
      rw [if_pos (Nat.le_antisymm (position_le (Nat.zero_le _) _) hend)]
  | error e =>
    have hshort : q.position q.records.length 0 ≠ q.readable := by
      intro hend
      rw [Record.at?_eq_none_iff.2 (Nat.le_of_eq hend.symm)] at hat
      cases hat
    rw [if_neg hshort, Record.eq_corrupt hat]

/-- Whatever the live bytes are and wherever the cursor points, a read looks at live bytes alone and
finds a record that lies there in full, or none. So asking for the next record comes to an end, with
a record for each 24 live bytes at most. An iteration answers these records and nothing ever after,
and a validation counts them or blames the header at which the iteration stopped. -/
theorem reading_ends (q : Queue) :
    (∀ previous : Option Record,
      (∀ i, Record.Reads q.read (cursor previous) i → i < q.readable) ∧
      (∀ q' : Queue, q'.readable = q.readable →
        (∀ i, Record.Reads q.read (cursor previous) i → q'.read.written[i]? = q.read.written[i]?) →
        q'.next? previous = q.next? previous) ∧
      (∀ r, q.next? previous = some r →
        r.offset = cursor previous ∧ r.next = r.offset + 24 + r.payload.length ∧
        r.next ≤ q.readable ∧ r.payload = q.read.live.extract (r.offset + 24) r.next) ∧
      ∃ rs, q.Trail previous rs ∧ rs.length ≤ q.readable / 24) ∧
    q.Trail none q.records ∧ q.records.length ≤ q.readable / 24 ∧
    (∀ k, q.answer k 0 = q.records[k]?) ∧
    q.validate = if q.position q.records.length 0 = q.readable then .ok q.records.length
      else .error (.corrupt (q.position q.records.length 0)) := by
  have hfuel : q.readable ≤ 0 + q.read.top := by rw [Nat.zero_add]; exact Nat.le_refl _
  have hrecords : q.Trail none q.records := trail_walk hfuel
  have hlength := hrecords.length_le
  refine ⟨fun previous => ⟨?_, ?_, ?_, ?_⟩, hrecords, by omega, ?_, ?_⟩
  · exact fun i hread => hread.lt_top
  · intro q' htop hbytes
    rw [next?_eq_step, next?_eq_step, step, step, Record.at?_congr htop hbytes]
    cases Record.at? q.read (cursor previous) with
    | ok found => cases found <;> rfl
    | error => rfl
  · intro r hfound
    rw [next?_eq_step] at hfound
    obtain ⟨hoffset, hlies⟩ := step_eq_some_iff.1 hfound
    exact ⟨hoffset, hlies.next_eq, hlies.next_le, hlies.payload_eq⟩
  · have htrail : q.Trail previous (q.walk q.readable (cursor previous)) :=
      trail_walk (Nat.le_add_left _ _)
    have hlength := htrail.length_le
    exact ⟨_, htrail, by omega⟩
  · exact answer_eq hfuel
  · exact validate_eq_ite q

/-- A record, and then a header whose successor is itself. -/
def looping : Queue where
  write := .empty
  read := Arena.empty.append (Record.bytes ⟨5, 0, 26, [7, 8]⟩ ++ Record.bytes ⟨6, 26, 26, []⟩)
  swaps := 1

/-- The second header is blamed, and a cursor into the first one finds nothing. -/
theorem reading_ends_looping : ∃ q : Queue, q.readable = 50 ∧
    q.records = [⟨5, 0, 26, [7, 8]⟩] ∧ (∀ k, q.answer (k + 1) 0 = none) ∧
    q.validate = .error (.corrupt 26) ∧ q.Trail (some ⟨0, 0, 4, []⟩) [] := by
  have hrecords : looping.records = [⟨5, 0, 26, [7, 8]⟩] := by decide
  obtain ⟨hcursors, -, -, hanswer, hvalidate⟩ := reading_ends looping
  obtain ⟨-, -, -, rs, htrail, -⟩ := hcursors (some ⟨0, 0, 4, []⟩)
  have hrs : rs = [] := htrail.unique (.stop (by decide))
  refine ⟨looping, by decide, hrecords, fun k => ?_, ?_, hrs ▸ htrail⟩
  · rw [hanswer, hrecords]
    rfl
  · rw [hvalidate, hrecords]
    rfl

end Queue

end SceneGraph
