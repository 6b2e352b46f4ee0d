import SceneGraph.Memory.Arena

/-!
# An arena is a byte list

Whatever is left above the top, however the buffer grew and whichever offsets were handed out
before, an arena answers each call as a plain list of its live bytes would. On the list a push
appends, a write replaces in place, `pop` drops from the end and offsets are numbers without an
upper end. The proof is a step by cases of the call, and an induction over the calls.
-/

namespace SceneGraph

namespace Arena

/-- A call on an arena. A word is given by its width in bytes and its value. -/
inductive Call where
  | push (n : Nat)
  | pushBytes (bs : Bytes)
  | pushWord (w value : Nat)
  | pushWords (w : Nat) (values : List Nat)
  | get (offset n : Nat)
  | write (offset : Nat) (bs : Bytes)
  | readWord (w offset : Nat)
  | writeWord (w offset value : Nat)
  | pop (n : Nat)
  | clear

/-- What a call answers: where a push put its bytes, or the bytes or the word that were found. A
write through a borrowed slice answers what it found there. -/
inductive Reply where
  | offset (n : Nat)
  | slice (found : Option Bytes)
  | word (found : Option Nat)
  | done
  | refused (e : ArenaError)
deriving DecidableEq

def Reply.isRefusal : Reply → Bool
  | .slice none | .word none | .refused _ => true
  | _ => false

def ofPush : Nat × Arena → Reply × Arena := Prod.map Reply.offset id

/-- The answer of an edit that may be refused. A refused one leaves the arena. -/
def ofEdit (a : Arena) : Except ArenaError Arena → Reply × Arena
  | .ok a => (.done, a)
  | .error e => (.refused e, a)

/-- Makes a call: what it answers, and the arena afterwards. -/
def perform (a : Arena) : Call → Reply × Arena
  | .push n => ofPush (a.pushZeros n)
  | .pushBytes bs => ofPush (a.push bs)
  | .pushWord w value => ofPush (a.push (Bytes.ofNat w value))
  | .pushWords w values => ofPush (a.push (values.flatMap (Bytes.ofNat w)))
  | .get offset n => (.slice (a.get? offset n), a)
  | .write offset bs => (.slice (a.get? offset bs.length), (a.write? offset bs).getD a)
  | .readWord w offset => (.word (a.word? w offset), a)
  | .writeWord w offset value => a.ofEdit (a.setWord w offset value)
  | .pop n => a.ofEdit (a.pop n)
  | .clear => (.done, a.clear)

/-- Makes the calls one after the other: all answers, and the arena in the end. -/
def run (a : Arena) : List Call → List Reply × Arena
  | [] => ([], a)
  | call :: calls =>
    ((a.perform call).1 :: (run (a.perform call).2 calls).1, (run (a.perform call).2 calls).2)

namespace Call

/-- The bytes that a call appends. -/
def pushed : Call → Bytes
  | push n => List.replicate n 0
  | pushBytes bs => bs
  | pushWord w value => Bytes.ofNat w value
  | pushWords w values => values.flatMap (Bytes.ofNat w)
  | _ => []

/-- The `n` bytes of a list from `offset` on. -/
def slice? (l : Bytes) (offset n : Nat) : Option Bytes :=
  if offset + n ≤ l.length then some ((l.drop offset).take n) else none

/-- A list with `bs` in place of the bytes from `offset` on. -/
def patch (l : Bytes) (offset : Nat) (bs : Bytes) : Bytes :=
  l.take offset ++ (bs ++ l.drop (offset + bs.length))

/-- The same call on a list of bytes. -/
def onList (l : Bytes) : Call → Reply × Bytes
  | push n => (.offset l.length, l ++ List.replicate n 0)
  | pushBytes bs => (.offset l.length, l ++ bs)
  | pushWord w value => (.offset l.length, l ++ Bytes.ofNat w value)
  | pushWords w values => (.offset l.length, l ++ values.flatMap (Bytes.ofNat w))
  | get offset n => (.slice (slice? l offset n), l)
  | write offset bs =>
    (.slice (slice? l offset bs.length),
      if offset + bs.length ≤ l.length then patch l offset bs else l)
  | readWord w offset => (.word ((slice? l offset w).map Bytes.toNat), l)
  | writeWord w offset value =>
    if offset + w ≤ l.length then (.done, patch l offset (Bytes.ofNat w value))
    else (.refused (.outOfBounds offset w l.length), l)
  | pop n =>
    if n ≤ l.length then (.done, l.take (l.length - n))
    else (.refused (.underflow n l.length), l)
  | clear => (.done, [])

def allOnList (l : Bytes) : List Call → List Reply × Bytes
  | [] => ([], l)
  | call :: calls =>
    ((call.onList l).1 :: (allOnList (call.onList l).2 calls).1,
      (allOnList (call.onList l).2 calls).2)

/-- An offset can say how long the list is after each of the calls. -/
def Fit : Bytes → List Call → Prop
  | _, [] => True
  | l, call :: calls => (call.onList l).2.length < UInt64.size ∧ Fit (call.onList l).2 calls

def decidableFit : (l : Bytes) → (calls : List Call) → Decidable (Fit l calls)
  | _, [] => .isTrue trivial
  | l, call :: calls =>
    have := decidableFit (call.onList l).2 calls
    inferInstanceAs (Decidable (_ ∧ _))

instance (l : Bytes) (calls : List Call) : Decidable (Fit l calls) := decidableFit l calls

end Call

/-! ## One call -/

variable {a : Arena}

theorem write?_of_lt {offset : Nat} {bs : Bytes} (hlt : ¬ offset + bs.length ≤ a.top) :
    a.write? offset bs = none :=
  dif_neg fun hw => hlt hw.2

section Bounded

variable (h : a.top < UInt64.size)

include h

theorem get?_eq_slice? (offset n : Nat) : a.get? offset n = Call.slice? a.live offset n := by
  simp only [get?, Call.slice?, within_iff h, length_live]

theorem write?_of_le {offset : Nat} {bs : Bytes} (hle : offset + bs.length ≤ a.top) :
    a.write? offset bs = some (a.overwrite offset bs hle) :=
  dif_pos ((within_iff h ..).2 hle)

/-- A call on the arena answers what the call on its live bytes does, and leaves the live bytes as
that leaves the list. -/
theorem perform_eq (call : Call) :
    (a.perform call).1 = (call.onList a.live).1 ∧
      (a.perform call).2.live = (call.onList a.live).2 := by
  cases call with
  | push n => simp [perform, ofPush, pushZeros, Arena.push, Call.onList]
  | pushBytes bs => simp [perform, ofPush, Arena.push, Call.onList]
  | pushWord w value => simp [perform, ofPush, Arena.push, Call.onList]
  | pushWords w values => simp [perform, ofPush, Arena.push, Call.onList]
  | get offset n => exact ⟨congrArg Reply.slice (get?_eq_slice? h offset n), rfl⟩
  | write offset bs =>
    refine ⟨congrArg Reply.slice (get?_eq_slice? h offset bs.length), ?_⟩
    simp only [perform, Call.onList, length_live]
    split
    · next hle => rw [write?_of_le h hle, Option.getD_some, live_overwrite, Call.patch]
    · next hlt => rw [write?_of_lt hlt, Option.getD_none]
  | readWord w offset =>
    exact ⟨congrArg (fun found => Reply.word (Option.map Bytes.toNat found))
      (get?_eq_slice? h offset w), rfl⟩
  | writeWord w offset value =>
    have hlength : (Bytes.ofNat w value).length = w := Bytes.length_ofNat w value
    simp only [perform, setWord, Call.onList, length_live]
    by_cases hle : offset + w ≤ a.top
    · have hle' : offset + (Bytes.ofNat w value).length ≤ a.top := by rwa [hlength]
      rw [if_pos hle, write?_of_le h hle']
      exact ⟨rfl, live_overwrite _ _ _ hle'⟩
    · rw [if_neg hle, write?_of_lt (by rwa [hlength])]
      exact ⟨rfl, rfl⟩
  | pop n =>
    simp only [perform, Arena.pop, Call.onList, length_live]
    split
    · refine ⟨rfl, ?_⟩
      simp only [ofEdit, live, List.take_take]
      rw [Nat.min_eq_left (Nat.sub_le ..)]
    · exact ⟨rfl, rfl⟩
  | clear => exact ⟨rfl, a.live_clear⟩

end Bounded

theorem capacity_write? {b : Arena} {offset : Nat} {bs : Bytes}
    (h : a.write? offset bs = some b) : b.capacity = a.capacity := by
  rw [write?] at h
  split at h
  · rw [← Option.some.inj h]
    rfl
  · nomatch h

/-- Only a push changes the capacity, to what holds the old and the new bytes. -/
theorem capacity_perform (call : Call) :
    (a.perform call).2.capacity = grown a.capacity (a.top + call.pushed.length) := by
  have hsame : grown a.capacity a.top = a.capacity :=
    if_pos (Nat.le_trans a.top_le a.length_le)
  cases call with
  | push | pushBytes | pushWord | pushWords => rfl
  | get | readWord | clear => exact hsame.symm
  | write offset bs =>
    refine Eq.trans ?_ hsame.symm
    cases hw : a.write? offset bs with
    | none => simp only [perform, hw, Option.getD_none]
    | some b => simpa only [perform, hw, Option.getD_some] using capacity_write? hw
  | writeWord w offset value =>
    refine Eq.trans ?_ hsame.symm
    cases hw : a.write? offset (Bytes.ofNat w value) with
    | none => simp only [perform, setWord, hw, ofEdit]
    | some b => simpa only [perform, setWord, hw, ofEdit] using capacity_write? hw
  | pop n =>
    refine Eq.trans ?_ hsame.symm
    simp only [perform, Arena.pop]
    split <;> rfl

/-- A refused call leaves even the bytes above the top. -/
theorem perform_of_refusal {call : Call} (h : (a.perform call).1.isRefusal) :
    (a.perform call).2 = a := by
  cases call with
  | push | pushBytes | pushWord | pushWords | clear => exact absurd h Bool.false_ne_true
  | get | readWord => rfl
  | write offset bs =>
    simp only [perform, get?, write?] at h ⊢
    split
    · next hw =>
      rw [if_pos hw] at h
      exact absurd h Bool.false_ne_true
    · rfl
  | writeWord w offset value =>
    simp only [perform, setWord] at h ⊢
    split
    · next heq =>
      rw [heq] at h
      exact absurd h Bool.false_ne_true
    · rfl
  | pop n =>
    simp only [perform, Arena.pop] at h ⊢
    split
    · next hle =>
      rw [if_pos hle] at h
      exact absurd h Bool.false_ne_true
    · rfl

/-! ## Any number of calls -/

theorem run_eq {calls : List Call} (h : a.top < UInt64.size) (hfit : Call.Fit a.live calls) :
    (a.run calls).1 = (Call.allOnList a.live calls).1 ∧
      (a.run calls).2.live = (Call.allOnList a.live calls).2 := by
  induction calls generalizing a with
  | nil => exact ⟨rfl, rfl⟩
  | cons call calls ih =>
    obtain ⟨hreply, hlive⟩ := perform_eq h call
    obtain ⟨hfits, hrest⟩ := hfit
    rw [← hlive] at hfits hrest
    obtain ⟨hreplies, hend⟩ := ih (by rwa [length_live] at hfits) hrest
    rw [hlive] at hreplies hend
    exact ⟨by simp only [run, Call.allOnList, hreply, hreplies], hend⟩

/-- Whatever capacity an arena starts with, and whatever calls are made on it: all answers and the
live bytes are those of a list. There is always room for the live bytes; the capacity never falls,
and it rises only for a push that does not fit; and a refused call changes nothing. -/
theorem run_as_list (capacity : Nat) (calls : List Call) (hfit : Call.Fit [] calls) :
    ∃ a, (ofCapacity capacity).run calls = ((Call.allOnList [] calls).1, a) ∧
      a.live = (Call.allOnList [] calls).2 ∧ a.live.length ≤ a.capacity ∧
      ∀ call : Call,
        (a.perform call).2.capacity =
          (if a.live.length + call.pushed.length ≤ a.capacity then a.capacity
          else max (a.live.length + call.pushed.length)
            (if a.capacity < 8 then 8 else 2 * a.capacity)) ∧
        a.capacity ≤ (a.perform call).2.capacity ∧
        ((a.perform call).1.isRefusal → (a.perform call).2 = a) := by
  obtain ⟨hreplies, hlive⟩ := run_eq (a := ofCapacity capacity) (Nat.zero_lt_succ _) hfit
  refine ⟨((ofCapacity capacity).run calls).2, Prod.ext hreplies rfl, hlive, ?_, fun call => ?_⟩
  · rw [length_live]
    exact Nat.le_trans (top_le _) (length_le _)
  · rw [length_live]
    refine ⟨capacity_perform call, ?_, perform_of_refusal⟩
    rw [capacity_perform]
    exact le_grown ..

/-- Zeros are pushed over what was cleared, and an end that no offset can hold is out of bounds. -/
theorem run_as_list_reused : ∃ a, (ofCapacity 2).run [.pushWord 4 258, .write 1 [7, 8], .clear,
      .push 3, .get 0 3, .get (UInt64.size - 1) 2, .writeWord 2 2 5, .pop 4] =
    ([.offset 0, .slice (some [1, 0]), .done, .offset 0, .slice (some [0, 0, 0]), .slice none,
      .refused (.outOfBounds 2 2 3), .refused (.underflow 4 3)], a) ∧
    a.live = [0, 0, 0] ∧ a.capacity = 8 ∧ (a.perform (.push 6)).2.capacity = 16 := by
  obtain ⟨a, hrun, hlive, -, hcall⟩ := run_as_list 2 [.pushWord 4 258, .write 1 [7, 8], .clear,
    .push 3, .get 0 3, .get (UInt64.size - 1) 2, .writeWord 2 2 5, .pop 4] (by decide)
  have hcapacity : a.capacity = 8 := (congrArg (fun end' => end'.2.capacity) hrun).symm
  refine ⟨a, hrun, hlive, hcapacity, ?_⟩
  rw [(hcall (.push 6)).1, hlive, hcapacity]
  rfl

end Arena

end SceneGraph
