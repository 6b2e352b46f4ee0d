import Mathlib.Algebra.Group.Nat.Defs
import SceneGraph.Proofs.Reachable

/-!
# Identifiers given out

The source of a scene gives identifiers out, and identifiers that were chosen elsewhere are reserved
or entered, in any order. As long as the chosen ones leave the counter room for the calls, what it
gives out is new: it is not null, and it was neither given out nor reserved nor entered before.
Without that room the counter comes round. The largest identifier cannot be reserved, and is given
out all the same when the counter gets there.
-/

namespace SceneGraph

namespace Operation

/-- The operations that give out, reserve or enter an identifier, and do nothing else. -/
inductive Names : Operation → Prop
  | allocate : Names .allocate
  | reserve (id : ComponentId) : Names (.reserve id)
  | insert (kind : ComponentKind) (id : ComponentId) (name : String) : Names (.insert kind id name)
  | create (kind : ComponentKind) (name : String) : Names (.create kind name)

/-- The identifier that an operation takes: the one given out, reserved or entered. A refused entry
takes none. -/
def taken? (s : Scene) : Operation → Option ComponentId
  | allocate | create .. => some s.allocate.1
  | reserve id => some id
  | insert kind id name => match Scene.insert kind id name s with
    | .ok .. => some id
    | .error .. => none
  | _ => none

/-- The identifier that an operation brings along. -/
def chosen? : Operation → Option ComponentId
  | reserve id | insert _ id _ => some id
  | _ => none

end Operation

namespace Scene

variable {s : Scene} {calls : List Operation} {taken : List ComponentId} {id : ComponentId}
  {op : Operation}

/-- A run of calls on an empty scene, with the identifiers that they took. -/
inductive Taking [Mat4.Arithmetic] : List Operation → List ComponentId → Scene → Prop
  | start : Taking [] [] {}
  | call {calls : List Operation} {taken : List ComponentId} {s : Scene} (h : Taking calls taken s)
      {op : Operation} (hop : op.Names) :
      Taking (calls ++ [op]) (taken ++ (op.taken? s).toList) (op.run s)

/-- The counter stays below the end of the word for that many calls, whichever of the identifiers
`chosen` it is moved past. The largest one does not move it. -/
structure Roomy (calls : Nat) (chosen : List ComponentId) : Prop where
  length : calls < 2 ^ 63
  chosen : ∀ id ∈ chosen, id.raw + 1 ≠ 0 → id.raw.toNat + calls < UInt64.size - 1

/-- Where the counter can be: past the calls made, or past one of the identifiers chosen. -/
def Bounded (s : Scene) (calls : Nat) (chosen : List ComponentId) : Prop :=
  s.ids.next.toNat ≤ 1 + calls ∨
    ∃ id ∈ chosen, id.raw + 1 ≠ 0 ∧ s.ids.next.toNat ≤ id.raw.toNat + calls

theorem Roomy.next_lt {n : Nat} {chosen : List ComponentId} (h : Roomy n chosen)
    (hb : s.Bounded n chosen) : s.ids.next.toNat < UInt64.size - 1 := by
  have hsize : UInt64.size = 2 ^ 64 := rfl
  have hlength := h.length
  rcases hb with hb | ⟨id, hid, hne, hb⟩
  · omega
  · have := h.chosen id hid hne
    omega

/-- A shorter run with fewer choices needs no more room. -/
theorem Roomy.front {n : Nat} {chosen more : List ComponentId}
    (h : Roomy (n + 1) (chosen ++ more)) : Roomy n chosen where
  length := by
    have := h.length
    omega
  chosen id hid hne := by
    have := h.chosen id (List.mem_append_left _ hid) hne
    omega

section Calls

theorem toNat_next_reserve_le (i : IdSource) (h : id.raw + 1 ≠ 0) :
    (i.reserve id).next.toNat ≤ max i.next.toNat (id.raw.toNat + 1) := by
  have hsucc : (id.raw + 1).toNat = id.raw.toNat + 1 := by
    have hlt := id.raw.toNat_lt
    have hne : (id.raw + 1).toNat ≠ 0 := fun he => h (UInt64.toNat_inj.mp he)
    rw [UInt64.toNat_add] at hne ⊢
    simp only [UInt64.toNat_one] at hne ⊢
    omega
  rw [i.next_reserve h]
  split
  · rw [hsucc]
    exact Nat.le_max_right _ _
  · exact Nat.le_max_left _ _

/-- What a call does not move stays where it can be. -/
theorem Bounded.later {n : Nat} {chosen : List ComponentId} (hb : s.Bounded n chosen) (k : Nat)
    (more : List ComponentId) : s.Bounded (n + k) (chosen ++ more) := by
  rcases hb with hb | ⟨id, hid, hne, hb⟩
  · exact Or.inl (by omega)
  · exact Or.inr ⟨id, List.mem_append_left _ hid, hne, by omega⟩

/-- A reserved identifier moves the counter no further than it has to. -/
theorem bounded_reserve {n : Nat} {chosen : List ComponentId} (hb : s.Bounded n chosen)
    (id : ComponentId) : (s.reserve id).Bounded (n + 1) (chosen ++ [id]) := by
  have hkept : s.Bounded (n + 1) (chosen ++ [id]) := hb.later 1 [id]
  by_cases h : id.raw + 1 = 0
  · have hsame : s.reserve id = s := by rw [Scene.reserve, IdSource.reserve, if_pos h]
    rwa [hsame]
  · have hnext := toNat_next_reserve_le s.ids h
    rcases Nat.le_total s.ids.next.toNat (id.raw.toNat + 1) with hle | hle
    · refine Or.inr ⟨id, List.mem_append_right _ (List.mem_singleton.mpr rfl), h, ?_⟩
      rw [Nat.max_eq_right hle] at hnext
      exact Nat.le_trans hnext (by omega)
    · rw [Nat.max_eq_left hle] at hnext
      rcases hkept with hb | ⟨x, hx, hne, hb⟩
      · exact Or.inl (Nat.le_trans hnext hb)
      · exact Or.inr ⟨x, hx, hne, Nat.le_trans hnext hb⟩

theorem bounded_allocate {n : Nat} {chosen : List ComponentId} (hb : s.Bounded n chosen)
    (hi : s.ids.next.toNat < UInt64.size - 1) : s.allocate.2.Bounded (n + 1) chosen := by
  have hnext : s.allocate.2.ids.next.toNat = s.ids.next.toNat + 1 := IdSource.toNat_next_succ hi
  rcases hb with hb | ⟨id, hid, hne, hb⟩
  · exact Or.inl (by omega)
  · exact Or.inr ⟨id, hid, hne, by omega⟩

theorem Bounded.of_ids {s' : Scene} {n : Nat} {chosen : List ComponentId} (hb : s.Bounded n chosen)
    (h : s'.ids = s.ids) : s'.Bounded n chosen := by
  rw [Bounded, h]
  exact hb

theorem Covered.reserve (hc : Covered s) (id : ComponentId) : Covered (s.reserve id) :=
  ⟨fun hx => (hc.live hx).reserve id, hc.null.reserve id⟩

theorem Covered.allocate (hc : Covered s) (hi : s.ids.next.toNat < UInt64.size - 1) :
    Covered s.allocate.2 :=
  ⟨fun hx => (hc.live hx).allocate hi, hc.null.allocate hi⟩

end Calls

/-- What a run keeps: the source has passed what is in use and what was taken, and its counter is
where the calls can have moved it. -/
structure Kept (calls : List Operation) (taken : List ComponentId) (s : Scene) : Prop where
  covered : Covered s
  taken : ∀ id ∈ taken, s.ids.Covers id
  bounded : s.Bounded calls.length (calls.filterMap Operation.chosen?)

namespace Kept

theorem allocate (h : Kept calls taken s) (hi : s.ids.next.toNat < UInt64.size - 1) :
    Kept (calls ++ [.allocate]) (taken ++ [s.allocate.1]) s.allocate.2 where
  covered := h.covered.allocate hi
  taken := by
    intro id hid
    rcases List.mem_append.mp hid with hid | hid
    · exact (h.taken id hid).allocate hi
    · rw [List.mem_singleton.mp hid]
      exact IdSource.covers_allocated hi
  bounded := by
    rw [List.length_append, List.filterMap_append]
    exact (List.append_nil _).symm ▸ bounded_allocate h.bounded hi

theorem reserve (h : Kept calls taken s) (id : ComponentId) :
    Kept (calls ++ [.reserve id]) (taken ++ [id]) (s.reserve id) where
  covered := h.covered.reserve id
  taken := by
    intro x hx
    rcases List.mem_append.mp hx with hx | hx
    · exact (h.taken x hx).reserve id
    · rw [List.mem_singleton.mp hx]
      exact s.ids.covers_reserve id
  bounded := by
    rw [List.length_append, List.filterMap_append]
    exact bounded_reserve h.bounded id

/-- A component is added under an identifier that has been taken. -/
theorem add (h : Kept calls (taken ++ [id]) s) (kind : ComponentKind) (name : String) :
    Kept calls (taken ++ [id]) (s.add kind id name) where
  covered := h.covered.add (h.taken id (by simp))
  taken x hx := by
    rw [ids_add]
    exact h.taken x hx
  bounded := h.bounded.of_ids ids_add

/-- Another call that brings along the same identifier, if any. -/
theorem relabel {o : Operation} (h : Kept (calls ++ [o]) taken s)
    (ho : op.chosen? = o.chosen?) : Kept (calls ++ [op]) taken s where
  covered := h.covered
  taken := h.taken
  bounded := by
    have hb := h.bounded
    simp only [List.length_append, List.filterMap_append, List.filterMap_cons, ho] at hb ⊢
    exact hb

theorem insert (h : Kept calls taken s) (kind : ComponentKind) (id : ComponentId) (name : String) :
    Kept (calls ++ [.insert kind id name])
      (taken ++ ((Operation.insert kind id name).taken? s).toList)
      (s.after (Scene.insert kind id name)) := by
  rcases insert_cases (s := s) kind id name with ⟨e, he⟩ | ⟨-, -, ht⟩
  · simp only [Operation.taken?, after, he, Option.toList_none, List.append_nil]
    refine ⟨h.covered, h.taken, ?_⟩
    rw [List.length_append, List.filterMap_append]
    exact h.bounded.later 1 _
  · simp only [Operation.taken?, after, ht]
    exact ((h.reserve id).add kind name).relabel rfl

end Kept

theorem Taking.kept [Mat4.Arithmetic] (h : Taking calls taken s)
    (hroom : Roomy calls.length (calls.filterMap Operation.chosen?)) : Kept calls taken s := by
  induction h with
  | start => exact ⟨covered_empty, by simp, Or.inl (by decide)⟩
  | @call calls taken s h op hop ih =>
    rw [List.length_append, List.filterMap_append] at hroom
    have hkept := ih hroom.front
    have hi := hroom.front.next_lt hkept.bounded
    cases hop with
    | allocate => exact hkept.allocate hi
    | reserve id => exact hkept.reserve id
    | insert kind id name => exact hkept.insert kind id name
    | create kind name => exact ((hkept.allocate hi).add kind name).relabel rfl

/-- An identifier that is given out is new, and adding a component under it leaves all others
where they are. -/
theorem Taking.given_out [Mat4.Arithmetic] (h : Taking calls taken s)
    (hroom : Roomy calls.length (calls.filterMap Operation.chosen?)) :
    s.allocate.1 ≠ .null ∧ s.allocate.1 ∉ taken ∧ s.contains s.allocate.1 = false ∧
      ∀ kind name, (s.create kind name).1 = s.allocate.1 ∧
        ∀ id slot, s.slot? id = some slot → (s.create kind name).2.slot? id = some slot := by
  have hkept := h.kept hroom
  have hnew := IdSource.not_covers_allocated (hroom.next_lt hkept.bounded)
  have hfree : s.slots.get? s.allocate.1 = none := by
    cases hslot : s.slots.get? s.allocate.1 with
    | none => rfl
    | some slot => exact absurd (hkept.covered.live hslot) hnew
  refine ⟨?_, fun ht => hnew (hkept.taken _ ht), ?_,
    fun kind name => ⟨rfl, fun id slot hslot => ?_⟩⟩
  · intro he
    exact hnew (he ▸ hkept.covered.null)
  · rw [contains, IdMap.contains, hfree]
    rfl
  · obtain ⟨i, hi⟩ := slots_add s.allocate.2 kind s.allocate.1 name
    have hne : id ≠ s.allocate.1 := by
      rintro rfl
      rw [slot?, hfree] at hslot
      cases hslot
    change (s.allocate.2.add kind s.allocate.1 name).slots.get? id = some slot
    rw [hi, IdMap.get?_insert, if_neg hne]
    exact hslot

/-- An entry far up, a lower identifier that is reserved, and one that is given out and then
entered. -/
theorem given_out_far : ∃ taken s,
    Taking [.insert .geometry ⟨18446744073709551600⟩ "cube", .reserve ⟨7⟩, .allocate,
      .insert .mesh ⟨18446744073709551601⟩ "wheel", .create .texture "sky"] taken s ∧
    taken = [⟨18446744073709551600⟩, ⟨7⟩, ⟨18446744073709551601⟩, ⟨18446744073709551601⟩,
      ⟨18446744073709551602⟩] ∧
    s.allocate.1 = ⟨18446744073709551603⟩ ∧ s.allocate.1 ∉ taken := by
  have h : Taking _ _ _ := ((((Taking.start.call
    (.insert .geometry ⟨18446744073709551600⟩ "cube")).call (.reserve ⟨7⟩)).call .allocate).call
    (.insert .mesh ⟨18446744073709551601⟩ "wheel")).call (.create .texture "sky")
  have hroom : Roomy 5 [⟨18446744073709551600⟩, ⟨7⟩, ⟨18446744073709551601⟩] :=
    ⟨by decide, by decide⟩
  exact ⟨_, _, h, by decide +kernel, by decide +kernel, (h.given_out hroom).2.1⟩

/-- Without room the largest identifier is given out though it is in use, and replaces what it
names; the next one is null. -/
theorem given_out_again : ∃ calls taken s, Taking calls taken s ∧ calls.length < 2 ^ 63 ∧
    s.allocate.1 ∈ taken ∧ s.slot? s.allocate.1 = some ⟨.shader, 0⟩ ∧
    (s.create .texture "sky").2.slot? s.allocate.1 = some ⟨.texture, 0⟩ ∧
    s.allocate.2.allocate.1 = .null := by
  have h : Taking _ _ _ := (Taking.start.call
    (.insert .shader ⟨18446744073709551615⟩ "first")).call
    (.insert .shader ⟨18446744073709551614⟩ "second")
  exact ⟨_, _, _, h, by decide, by decide +kernel, by decide +kernel, by decide +kernel,
    by decide +kernel⟩

end Scene

end SceneGraph
