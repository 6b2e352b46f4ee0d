import Mathlib.Data.List.Nodup
import Mathlib.Data.List.Perm.Basic
import SceneGraph.Scene.Basic

/-!
# Slots and rows

A map of slots and a table belong together if the slots for the role of the table and its rows
correspond: a slot leads to the row with its identifier, and every row has its slot. This depends on
the identifiers of the rows only, so that an edit of rows that keeps them keeps the correspondence.
Then the row that a slot leads to is the one row with that identifier, whatever was moved by swap
removals before.
-/

namespace SceneGraph

section SwapErase

variable {α : Type} {l : List α} {x y : α}

/-- Up to the order, removing by a swap is removing. -/
theorem swapEraseIdx_perm {i : ℕ} (h : i < l.length) : (swapEraseIdx l i).Perm (l.eraseIdx i) := by
  unfold swapEraseIdx
  cases hl : l.getLast? with
  | none => simp [List.getLast?_eq_none_iff.mp hl] at h
  | some z =>
    have hne : l.set i z ≠ [] := by
      intro he
      have := congrArg List.length he
      simp at this
      simp [this] at h
    have hz : (l.set i z).getLast hne = z := by
      rw [List.getLast?_eq_getElem?] at hl
      rw [List.getLast_eq_getElem]
      simp only [List.length_set, List.getElem_set]
      split
      · rfl
      · exact (List.getElem?_eq_some_iff.mp hl).2
    have hp := List.set_perm_cons_eraseIdx h z
    rw [← List.dropLast_append_getLast hne, hz] at hp
    have hp := (List.perm_append_comm.trans hp)
    simpa [h] using hp

theorem swapErase_perm [DecidableEq α] (l : List α) (x : α) :
    (swapErase l x).Perm (l.erase x) := by
  by_cases h : x ∈ l
  · rw [List.erase_eq_eraseIdx_of_idxOf rfl]
    exact swapEraseIdx_perm (List.idxOf_lt_length_of_mem h)
  · rw [swapErase_of_not_mem h, List.erase_of_not_mem h]

theorem nodup_swapErase [DecidableEq α] (h : l.Nodup) : (swapErase l x).Nodup :=
  (swapErase_perm l x).nodup_iff.mpr (h.erase x)

theorem mem_swapErase [DecidableEq α] (h : l.Nodup) : y ∈ swapErase l x ↔ y ≠ x ∧ y ∈ l := by
  rw [(swapErase_perm l x).mem_iff, h.mem_erase_iff]

theorem map_swapEraseIdx {β : Type} (f : α → β) (l : List α) (i : ℕ) :
    (swapEraseIdx l i).map f = swapEraseIdx (l.map f) i := by
  unfold swapEraseIdx
  cases hl : l.getLast? with
  | none => simp [hl]
  | some z =>
    simp only [List.getLast?_map, hl, Option.map_some, List.length_map]
    split
    · rw [List.map_dropLast, List.map_set]
    · rfl

end SwapErase

/-- The identifiers of the rows, in storage order. -/
def Table.ids {α : Type} [Row α] (t : Table α) : List ComponentId := t.rows.map Row.id

/-- The row that the slot of `id` leads to, if the slot is one for `role`. -/
def rowAt {α : Type} (slots : IdMap Slot) (role : Role) (t : Table α) (id : ComponentId) :
    Option α :=
  match slots.get? id with
  | none => none
  | some slot => if role.accepts slot.kind then t.get? slot.index else none

/-- The slots for `role` are those of the rows with the given identifiers. -/
def Placed (slots : IdMap Slot) (role : Role) (ids : List ComponentId) : Prop :=
  ∀ id i, (∃ kind, slots.get? id = some ⟨kind, i⟩ ∧ role.accepts kind) ↔ ids[i]? = some id

theorem placed_empty (role : Role) : Placed .empty role [] := by
  intro id i
  simp [IdMap.empty, IdMap.get?]

/-- The map without `id`, whose row had the index `i`, if the row of `moved` went there. -/
def slotsWithout (slots : IdMap Slot) (id : ComponentId) (i : ℕ) (moved : Option ComponentId) :
    IdMap Slot :=
  match moved with
  | none => slots.erase id
  | some other => (slots.erase id).modify other fun o => { o with index := i }

/-- The slots after a removal: that of `id` is gone, and the others keep their kinds. -/
theorem get?_slotsWithout {slots : IdMap Slot} {id : ComponentId} {i : ℕ}
    {moved : Option ComponentId} (hm : moved ≠ some id) (x : ComponentId) :
    (slotsWithout slots id i moved).get? x =
      if x = id then none
      else (slots.get? x).map fun o => if moved = some x then { o with index := i } else o := by
  unfold slotsWithout
  cases moved with
  | none =>
    rw [IdMap.get?_erase]
    simp
  | some z =>
    rw [IdMap.get?_modify, IdMap.get?_erase]
    by_cases hx : x = id
    · subst hx
      simp [show x ≠ z from fun he => hm (congrArg some he.symm)]
    · by_cases hz : x = z
      · subst hz
        simp [hx]
      · simp [hx, hz, Ne.symm hz]

theorem exists_slotsWithout {slots : IdMap Slot} {id x : ComponentId} {i j : ℕ}
    {moved : Option ComponentId} (hm : moved ≠ some id) (hx : x ≠ id) (p : ComponentKind → Prop) :
    (∃ kind, (slotsWithout slots id i moved).get? x = some ⟨kind, j⟩ ∧ p kind) ↔
      ∃ kind k, slots.get? x = some ⟨kind, k⟩ ∧ p kind ∧ j = if moved = some x then i else k := by
  simp only [get?_slotsWithout hm, if_neg hx]
  cases hs : slots.get? x with
  | none => simp
  | some o =>
    obtain ⟨kx, k⟩ := o
    simp only [Option.map_some, Option.some.injEq]
    constructor
    · rintro ⟨kind, he, hp⟩
      split at he <;> cases he
      · next hc => exact ⟨_, _, rfl, hp, (if_pos hc).symm⟩
      · next hc => exact ⟨_, _, rfl, hp, (if_neg hc).symm⟩
    · rintro ⟨kind, _, ⟨rfl, rfl⟩, hp, rfl⟩
      refine ⟨kx, ?_, hp⟩
      split <;> rfl

section Look

variable {α : Type} {slots : IdMap Slot} {role other : Role} {t : Table α} {id x : ComponentId}
  {a : α} {i : ℕ} {kind : ComponentKind}

theorem rowAt_eq_some : rowAt slots role t id = some a ↔
    ∃ kind i, slots.get? id = some ⟨kind, i⟩ ∧ role.accepts kind ∧ t.get? i = some a := by
  unfold rowAt
  cases slots.get? id with
  | none => simp
  | some slot =>
    obtain ⟨kind, i⟩ := slot
    by_cases h : role.accepts kind <;> simp [h]

theorem rowAt_of_slot (h : slots.get? id = some ⟨kind, i⟩) (hk : role.accepts kind) :
    rowAt slots role t id = t.get? i := by
  simp [rowAt, h, hk]

theorem rowAt_of_not_accepts (h : slots.get? id = some ⟨kind, i⟩) (hk : ¬ role.accepts kind) :
    rowAt slots role t id = none := by
  simp [rowAt, h, hk]

theorem rowAt_of_free (h : slots.get? id = none) : rowAt slots role t id = none := by
  simp [rowAt, h]

theorem rowAt_map (f : α → α) : rowAt slots role (t.map f) x = (rowAt slots role t x).map f := by
  unfold rowAt
  cases slots.get? x with
  | none => rfl
  | some slot =>
    by_cases h : role.accepts slot.kind <;> simp [h]

theorem rowAt_insert_other (hf : slots.get? id = none) (hk : ¬ role.accepts kind) (i : ℕ)
    (x : ComponentId) :
    rowAt (slots.insert id ⟨kind, i⟩) role t x = rowAt slots role t x := by
  unfold rowAt
  rw [IdMap.get?_insert]
  by_cases hx : x = id
  · simp [hx, hf, hk]
  · rw [if_neg hx]

end Look

namespace Placed

variable {α : Type} [Row α] {slots : IdMap Slot} {role other : Role} {t : Table α}
  {ids : List ComponentId} {id x : ComponentId} {a : α} {i : ℕ} {kind : ComponentKind}

theorem get?_ids (t : Table α) (i : ℕ) : t.ids[i]? = (t.get? i).map Row.id := by
  simp [Table.ids, Table.get?]

theorem row_id (h : Placed slots role t.ids) (ha : rowAt slots role t id = some a) :
    Row.id a = id := by
  obtain ⟨kind, i, hs, hk, hg⟩ := rowAt_eq_some.mp ha
  have hi := (h id i).mp ⟨kind, hs, hk⟩
  rw [get?_ids, hg] at hi
  exact Option.some.inj hi

/-- What a look-up finds is the stored row with that identifier. -/
theorem rowAt_iff (h : Placed slots role t.ids) :
    rowAt slots role t id = some a ↔ a ∈ t.rows ∧ Row.id a = id := by
  constructor
  · intro ha
    obtain ⟨kind, i, hs, hk, hg⟩ := rowAt_eq_some.mp ha
    exact ⟨List.mem_of_getElem? hg, h.row_id ha⟩
  · rintro ⟨hm, rfl⟩
    obtain ⟨i, hi⟩ := List.mem_iff_getElem?.mp hm
    have hid : t.ids[i]? = some (Row.id a) := by
      rw [get?_ids, Table.get?, hi]
      rfl
    obtain ⟨kind, hs, hk⟩ := (h (Row.id a) i).mpr hid
    exact rowAt_eq_some.mpr ⟨kind, i, hs, hk, hi⟩

theorem slot_iff (h : Placed slots role t.ids) :
    (∃ kind i, slots.get? id = some ⟨kind, i⟩ ∧ role.accepts kind) ↔
      ∃ a, rowAt slots role t id = some a := by
  constructor
  · rintro ⟨kind, i, hs, hk⟩
    have hi := (h id i).mp ⟨kind, hs, hk⟩
    rw [get?_ids] at hi
    obtain ⟨a, ha, -⟩ := Option.map_eq_some_iff.mp hi
    exact ⟨a, rowAt_eq_some.mpr ⟨kind, i, hs, hk, ha⟩⟩
  · rintro ⟨a, ha⟩
    obtain ⟨kind, i, hs, hk, -⟩ := rowAt_eq_some.mp ha
    exact ⟨kind, i, hs, hk⟩

theorem index_unique (h : Placed slots role ids) {j : ℕ} (hi : ids[i]? = some id)
    (hj : ids[j]? = some id) : i = j := by
  obtain ⟨kind, hs, -⟩ := (h id i).mpr hi
  obtain ⟨kind', hs', -⟩ := (h id j).mpr hj
  rw [hs] at hs'
  exact congrArg Slot.index (Option.some.inj hs')

/-- No two rows have one identifier. -/
theorem ids_nodup (h : Placed slots role ids) : ids.Nodup := by
  rw [List.nodup_iff_injective_getElem]
  intro i j hij
  have hi : ids[i.val]? = some ids[i.val] := by simp
  have hj : ids[j.val]? = some ids[i.val] := by
    rw [show ids[i.val] = ids[j.val] from hij]
    simp
  exact Fin.ext (h.index_unique hi hj)

/-- A change of one row shows at its identifier only. -/
theorem rowAt_modify (h : Placed slots role t.ids) (hs : slots.get? id = some ⟨kind, i⟩)
    (hk : role.accepts kind) (f : α → α) (x : ComponentId) :
    rowAt slots role (t.modify i f) x =
      if x = id then (rowAt slots role t x).map f else rowAt slots role t x := by
  by_cases hx : x = id
  · subst hx
    rw [if_pos rfl, rowAt_of_slot hs hk, rowAt_of_slot hs hk]
    simp
  · rw [if_neg hx]
    unfold rowAt
    cases hsx : slots.get? x with
    | none => rfl
    | some slot =>
      by_cases ha : role.accepts slot.kind
      · have hne : i ≠ slot.index := by
          intro he
          have hi := (h id i).mp ⟨kind, hs, hk⟩
          have hj := (h x slot.index).mp ⟨slot.kind, hsx, ha⟩
          rw [← he, hi] at hj
          exact hx (Option.some.inj hj).symm
        simp [ha, hne]
      · simp [ha]

theorem ids_modify {f : α → α} (hf : ∀ a, Row.id (f a) = Row.id a) (t : Table α) (i : ℕ) :
    (t.modify i f).ids = t.ids := by
  apply List.ext_getElem?
  intro j
  rw [get?_ids, get?_ids, Table.get?_modify]
  split
  · simp [Function.comp_def, hf]
  · rfl

theorem ids_map {f : α → α} (hf : ∀ a, Row.id (f a) = Row.id a) (t : Table α) :
    (t.map f).ids = t.ids := by
  simp [Table.ids, Table.map, Function.comp_def, hf]

/-- A new row at the end, under a free identifier. -/
theorem insert (h : Placed slots role ids) (hf : slots.get? id = none) (hk : role.accepts kind) :
    Placed (slots.insert id ⟨kind, ids.length⟩) role (ids ++ [id]) := by
  intro x j
  rw [IdMap.get?_insert]
  have hx := h x j
  have hid := h id j
  rw [hf] at hid
  by_cases he : x = id
  · subst he
    simp only [if_true, Option.some.injEq, Slot.mk.injEq, List.getElem?_append]
    constructor
    · rintro ⟨_, ⟨rfl, rfl⟩, -⟩
      simp
    · intro hj
      split at hj
      · exact absurd (hid.mpr hj) (by simp)
      · rw [List.getElem?_singleton] at hj
        split at hj
        · exact ⟨kind, ⟨rfl, by omega⟩, hk⟩
        · cases hj
  · rw [if_neg he, hx, List.getElem?_append]
    split
    · rfl
    · rw [List.getElem?_singleton, List.getElem?_eq_none (by omega)]
      split <;> simp [Ne.symm he]

theorem push (h : Placed slots role t.ids) (hf : slots.get? id = none) (hk : role.accepts kind)
    (ha : Row.id a = id) : Placed (slots.insert id ⟨kind, t.size⟩) role (t.push a).2.ids := by
  simpa [Table.ids, Table.size, Table.push, ha] using h.insert hf hk

/-- A new row elsewhere. -/
theorem insert_other (h : Placed slots role ids) (hf : slots.get? id = none)
    (hk : ¬ role.accepts kind) (i : ℕ) : Placed (slots.insert id ⟨kind, i⟩) role ids := by
  intro x j
  rw [IdMap.get?_insert, ← h x j]
  by_cases he : x = id
  · subst he
    simp [hf, hk]
  · rw [if_neg he]

/-- A new row shows at its identifier only. -/
theorem rowAt_push (h : Placed slots role t.ids)
    (hk : role.accepts kind) (a : α) (x : ComponentId) :
    rowAt (slots.insert id ⟨kind, t.size⟩) role (t.push a).2 x =
      if x = id then some a else rowAt slots role t x := by
  unfold rowAt
  rw [IdMap.get?_insert]
  by_cases hx : x = id
  · simp [hx, hk, Table.get?_push]
  · rw [if_neg hx, if_neg hx]
    cases hs : slots.get? x with
    | none => rfl
    | some o =>
      by_cases ha : role.accepts o.kind
      · have hi := (h x o.index).mp ⟨o.kind, hs, ha⟩
        have hlt := (List.getElem?_eq_some_iff.mp hi).1
        simp only [Table.ids, List.length_map] at hlt
        have hne : o.index ≠ t.size := Nat.ne_of_lt hlt
        simp [ha, Table.get?_push, hne]
      · simp [ha]

/-- The identifier that a swap removal moves, and where it was. -/
theorem moved_iff (h : Placed slots role ids) (hi : ids[i]? = some id) :
    (swapEraseIdx ids i)[i]? = some x ↔ x ≠ id ∧ ids[ids.length - 1]? = some x := by
  have hlt : i < ids.length := (List.getElem?_eq_some_iff.mp hi).1
  rw [getElem?_swapEraseIdx hlt i, if_pos rfl, List.getLast?_eq_getElem?]
  constructor
  · intro hx
    split at hx
    · refine ⟨?_, hx⟩
      rintro rfl
      have := h.index_unique hi hx
      omega
    · cases hx
  · rintro ⟨hne, hx⟩
    rw [if_pos ?_, hx]
    by_contra he
    rw [show ids.length - 1 = i by omega, hi] at hx
    exact hne (Option.some.inj hx).symm

/-- The place of an identifier after a swap removal. -/
theorem getElem?_swapErase_iff (h : Placed slots role ids) (hi : ids[i]? = some id) (j : ℕ) :
    (swapEraseIdx ids i)[j]? = some x ↔
      x ≠ id ∧ ∃ k, ids[k]? = some x ∧ j = if k = ids.length - 1 then i else k := by
  have hlt : i < ids.length := (List.getElem?_eq_some_iff.mp hi).1
  by_cases hji : j = i
  · subst hji
    rw [h.moved_iff hi]
    constructor
    · rintro ⟨hne, hx⟩
      exact ⟨hne, _, hx, by rw [if_pos rfl]⟩
    · rintro ⟨hne, k, hk, hj⟩
      split at hj
      · next hl => exact ⟨hne, hl ▸ hk⟩
      · subst hj
        exact absurd (Option.some.inj (hk.symm.trans hi)) hne
  · rw [getElem?_swapEraseIdx hlt j, if_neg hji]
    constructor
    · intro hx
      split at hx
      · refine ⟨?_, j, hx, by rw [if_neg (by omega)]⟩
        rintro rfl
        exact hji (h.index_unique hx hi)
      · cases hx
    · rintro ⟨-, k, hk, hj⟩
      have hklt := (List.getElem?_eq_some_iff.mp hk).1
      split at hj
      · exact absurd hj hji
      · subst hj
        rw [if_pos (by omega), hk]

/-- Removing a row by a swap, and sending the slot of the row that moved after it. -/
theorem swapErase (h : Placed slots role ids) (hs : slots.get? id = some ⟨kind, i⟩)
    (hk : role.accepts kind) :
    Placed (slotsWithout slots id i (swapEraseIdx ids i)[i]?) role (swapEraseIdx ids i) := by
  have hi : ids[i]? = some id := (h id i).mp ⟨kind, hs, hk⟩
  have hm : (swapEraseIdx ids i)[i]? ≠ some id := fun he => ((h.moved_iff hi).mp he).1 rfl
  intro x j
  rw [h.getElem?_swapErase_iff hi j]
  by_cases hx : x = id
  · simp [get?_slotsWithout hm, hx]
  · have hidx : ∀ {k}, ids[k]? = some x →
        ((swapEraseIdx ids i)[i]? = some x ↔ k = ids.length - 1) := by
      intro k hk
      rw [h.moved_iff hi]
      exact ⟨fun hl => h.index_unique hk hl.2, fun hl => ⟨hx, hl ▸ hk⟩⟩
    rw [exists_slotsWithout hm hx]
    constructor
    · rintro ⟨kx, k, hsx, ha, rfl⟩
      have hk := (h x k).mp ⟨kx, hsx, ha⟩
      exact ⟨hx, k, hk, if_congr (hidx hk) rfl rfl⟩
    · rintro ⟨-, k, hk, rfl⟩
      obtain ⟨kx, hsx, ha⟩ := (h x k).mpr hk
      exact ⟨kx, k, hsx, ha, (if_congr (hidx hk) rfl rfl).symm⟩

/-- The rows in storage order are given by the slots and the look-up. -/
theorem table_eq {t' : Table α} (h : Placed slots role t.ids) (hids : t'.ids = t.ids)
    (hrow : rowAt slots role t = rowAt slots role t') : t = t' := by
  suffices hrows : t.rows = t'.rows by cases t; cases t'; exact congrArg Table.mk hrows
  refine List.ext_getElem? fun i => ?_
  change t.get? i = t'.get? i
  cases hi : t.ids[i]? with
  | none =>
    have hi' : t'.ids[i]? = none := by rw [hids, hi]
    rw [get?_ids, Option.map_eq_none_iff] at hi hi'
    rw [hi, hi']
  | some id =>
    obtain ⟨kind, hslot, hk⟩ := (h id i).mpr hi
    have hid := congrFun hrow id
    rwa [rowAt_of_slot hslot hk, rowAt_of_slot hslot hk] at hid

theorem ids_swapErase (t : Table α) (i : ℕ) :
    (⟨swapEraseIdx t.rows i⟩ : Table α).ids = swapEraseIdx t.ids i :=
  map_swapEraseIdx Row.id t.rows i

/-- A removal shows at its identifier only. -/
theorem rowAt_swapErase (h : Placed slots role t.ids) (hs : slots.get? id = some ⟨kind, i⟩)
    (hk : role.accepts kind) (x : ComponentId) :
    rowAt (slotsWithout slots id i (swapEraseIdx t.ids i)[i]?) role ⟨swapEraseIdx t.rows i⟩ x =
      if x = id then none else rowAt slots role t x := by
  have h' := h.swapErase hs hk
  have hi : t.ids[i]? = some id := (h id i).mp ⟨kind, hs, hk⟩
  have hlt : i < t.rows.length := by
    simpa [Table.ids] using (List.getElem?_eq_some_iff.mp hi).1
  rw [← ids_swapErase] at h'
  apply Option.ext
  intro a
  rw [← ids_swapErase, h'.rowAt_iff, (swapEraseIdx_perm hlt).mem_iff,
    List.mem_eraseIdx_iff_getElem?]
  constructor
  · rintro ⟨⟨j, hj, ha⟩, rfl⟩
    have hja : t.ids[j]? = some (Row.id a) := by
      rw [get?_ids, Table.get?, ha]
      rfl
    rw [if_neg, h.rowAt_iff]
    · exact ⟨List.mem_of_getElem? ha, rfl⟩
    · intro he
      exact hj (h.index_unique (he ▸ hja) hi)
  · intro ha
    split at ha
    · cases ha
    · next hx =>
      obtain ⟨hm, rfl⟩ := h.rowAt_iff.mp ha
      obtain ⟨j, hj⟩ := List.mem_iff_getElem?.mp hm
      refine ⟨⟨j, ?_, hj⟩, rfl⟩
      rintro rfl
      rw [get?_ids, Table.get?, hj] at hi
      exact hx (Option.some.inj hi)

/-- What moves in one table has no slot for the role of another. -/
theorem moved_ne {ids' : List ComponentId} (h' : Placed slots other ids') (hi : ids'[i]? = some id)
    (hne : ∀ k, other.accepts k → ¬ role.accepts k) {o : Slot} (hs : slots.get? x = some o)
    (ha : role.accepts o.kind) : (swapEraseIdx ids' i)[i]? ≠ some x := by
  intro hc
  obtain ⟨kz, hsz, hkz⟩ := (h' x _).mpr ((h'.moved_iff hi).mp hc).2
  obtain rfl := Option.some.inj (hs.symm.trans hsz)
  exact hne kz hkz ha

/-- A removal from another table. -/
theorem swapErase_other {ids' : List ComponentId} (h : Placed slots role ids)
    (h' : Placed slots other ids') (hs : slots.get? id = some ⟨kind, i⟩) (hk : other.accepts kind)
    (hne : ∀ k, other.accepts k → ¬ role.accepts k) :
    Placed (slotsWithout slots id i (swapEraseIdx ids' i)[i]?) role ids := by
  have hi : ids'[i]? = some id := (h' id i).mp ⟨kind, hs, hk⟩
  have hm : (swapEraseIdx ids' i)[i]? ≠ some id := fun he => ((h'.moved_iff hi).mp he).1 rfl
  intro x j
  rw [← h x j]
  by_cases hx : x = id
  · subst hx
    simp [get?_slotsWithout hm, hs, hne kind hk]
  · rw [exists_slotsWithout hm hx]
    constructor
    · rintro ⟨kx, k, hsx, ha, rfl⟩
      rw [if_neg (h'.moved_ne hi hne hsx ha)]
      exact ⟨kx, hsx, ha⟩
    · rintro ⟨kx, hsx, ha⟩
      exact ⟨kx, j, hsx, ha, (if_neg (h'.moved_ne hi hne hsx ha)).symm⟩

omit [Row α] in
theorem rowAt_swapErase_other {ids' : List ComponentId} (h' : Placed slots other ids')
    (hs : slots.get? id = some ⟨kind, i⟩) (hk : other.accepts kind)
    (hne : ∀ k, other.accepts k → ¬ role.accepts k) (x : ComponentId) :
    rowAt (slotsWithout slots id i (swapEraseIdx ids' i)[i]?) role t x =
      if x = id then none else rowAt slots role t x := by
  have hi : ids'[i]? = some id := (h' id i).mp ⟨kind, hs, hk⟩
  have hm : (swapEraseIdx ids' i)[i]? ≠ some id := fun he => ((h'.moved_iff hi).mp he).1 rfl
  rw [rowAt, get?_slotsWithout hm]
  by_cases hx : x = id
  · simp [hx]
  · rw [if_neg hx, if_neg hx, rowAt]
    cases hsx : slots.get? x with
    | none => rfl
    | some o =>
      by_cases ha : role.accepts o.kind
      · simp [h'.moved_ne hi hne hsx ha]
      · simp only [Option.map_some]
        split <;> simp

end Placed

end SceneGraph
