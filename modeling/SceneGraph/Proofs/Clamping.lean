import Mathlib.Data.List.Infix
import SceneGraph.Name

/-!
# Names as the longest beginnings that fit

A text is cut where a search stops that goes back from the limit, byte by byte, to a place that no
character goes across. There is such a place at the first byte at the latest. As a character takes
four bytes at most, the search does not go that far: it goes back three bytes at most. What comes
before that place is the longest beginning of the text that fits, and there is only one.
-/

namespace SceneGraph.Name

/-- `t` is the longest beginning of `s`, in whole characters, that takes at most `n` bytes. -/
structure LongestFit (n : ℕ) (s t : String) : Prop where
  fits : t.utf8ByteSize ≤ n
  begins : t.toList <+: s.toList
  longest : ∀ u : String, u.toList <+: s.toList → u.utf8ByteSize ≤ n → u.toList <+: t.toList

/-- Where a search stops that goes back from byte `n` to the first place that no character of the
text goes across; nowhere, if it were to go on below the first byte. -/
def stop? (s : String) : ℕ → Option ℕ
  | 0 => if (0 : String.Pos.Raw).IsValid s then some 0 else none
  | n + 1 => if (⟨n + 1⟩ : String.Pos.Raw).IsValid s then some (n + 1) else stop? s n

variable {s t u : String} {cs ds : List Char} {m n : ℕ}

section Beginnings

theorem utf8ByteSize_ofList_cons (c : Char) (cs : List Char) :
    (String.ofList (c :: cs)).utf8ByteSize = c.utf8Size + (String.ofList cs).utf8ByteSize := by
  rw [String.ofList_cons, String.utf8ByteSize_append, String.utf8ByteSize_singleton]

theorem eq_append_of_begins (h : t.toList <+: s.toList) : ∃ rest, s = t ++ String.ofList rest := by
  obtain ⟨rest, hrest⟩ := h
  refine ⟨rest, String.toList_injective ?_⟩
  rw [String.toList_append, String.toList_ofList, hrest]

/-- The bytes of a beginning are the first ones of the text. -/
theorem toByteArray_of_begins (h : t.toList <+: s.toList) :
    t.toByteArray = s.toByteArray.extract 0 t.utf8ByteSize := by
  obtain ⟨rest, rfl⟩ := eq_append_of_begins h
  rw [String.toByteArray_append, ByteArray.extract_append_eq_left String.size_toByteArray.symm]

/-- A beginning that takes no more bytes than another is a beginning of that one. -/
theorem begins_of_le (ht : t.toList <+: s.toList) (hu : u.toList <+: s.toList)
    (hle : u.utf8ByteSize ≤ t.utf8ByteSize) : u.toList <+: t.toList := by
  rcases List.prefix_or_prefix_of_prefix hu ht with h | h
  · exact h
  · obtain ⟨rest, rfl⟩ := eq_append_of_begins h
    have hrest : (String.ofList rest).utf8ByteSize = 0 := by
      rw [String.utf8ByteSize_append] at hle
      omega
    rw [String.utf8ByteSize_eq_zero_iff.mp hrest, String.append_empty]

/-- Characters that take a number of bytes are found if the text begins with such. -/
theorem takeBytes?_eq_some : takeBytes? cs n = some ds ↔
    ds <+: cs ∧ (String.ofList ds).utf8ByteSize = n := by
  fun_induction takeBytes? cs n generalizing ds with
  | case1 cs =>
    rw [String.utf8ByteSize_eq_zero_iff, String.ofList_eq_empty_iff, Option.some.injEq, eq_comm]
    exact ⟨fun h => ⟨h ▸ List.nil_prefix, h⟩, And.right⟩
  | case2 n =>
    refine ⟨fun h => ?_, fun ⟨hds, hsize⟩ => ?_⟩
    · cases h
    · rw [List.prefix_nil.mp hds] at hsize
      cases hsize
  | case3 c cs n hc ih =>
    cases ds with
    | nil => simp
    | cons d ds =>
      rw [Option.map_eq_some_iff, List.cons_prefix_cons, utf8ByteSize_ofList_cons]
      constructor
      · rintro ⟨es, hes, he⟩
        obtain ⟨rfl, rfl⟩ := List.cons.inj he
        obtain ⟨hbegins, hsize⟩ := ih.mp hes
        exact ⟨⟨rfl, hbegins⟩, by omega⟩
      · rintro ⟨⟨rfl, hbegins⟩, hsize⟩
        exact ⟨ds, ih.mpr ⟨hbegins, by omega⟩, rfl⟩
  | case4 c cs n hc =>
    refine ⟨fun h => ?_, fun ⟨hds, hsize⟩ => ?_⟩
    · cases h
    · cases ds with
      | nil => cases hsize
      | cons d ds =>
        obtain ⟨rfl, -⟩ := List.cons_prefix_cons.mp hds
        rw [utf8ByteSize_ofList_cons] at hsize
        omega

/-- No character goes across the byte `n` if the text has a beginning of so many bytes. -/
theorem isValid_iff_begins : (⟨n⟩ : String.Pos.Raw).IsValid s ↔
    ∃ t : String, t.toList <+: s.toList ∧ t.utf8ByteSize = n := by
  rw [String.Pos.Raw.isValid_iff_exists_take_toList]
  constructor
  · rintro ⟨i, hi⟩
    refine ⟨.ofList (s.toList.take i), ?_, hi.symm⟩
    rw [String.toList_ofList]
    exact List.take_prefix ..
  · rintro ⟨t, ht, hsize⟩
    refine ⟨t.toList.length, ?_⟩
    rw [← List.prefix_iff_eq_take.mp ht, String.ofList_toList, hsize]

theorem isValid_iff_takeBytes? : (⟨n⟩ : String.Pos.Raw).IsValid s ↔
    ∃ ds, takeBytes? s.toList n = some ds := by
  rw [isValid_iff_begins]
  constructor
  · rintro ⟨t, ht, hsize⟩
    exact ⟨t.toList, takeBytes?_eq_some.mpr ⟨ht, by rwa [String.ofList_toList]⟩⟩
  · rintro ⟨ds, hds⟩
    obtain ⟨hbegins, hsize⟩ := takeBytes?_eq_some.mp hds
    exact ⟨.ofList ds, by rwa [String.toList_ofList], hsize⟩

end Beginnings

section Searches

/-- The search never goes below the first byte. -/
theorem exists_stop? (s : String) (n : ℕ) : ∃ m, stop? s n = some m := by
  induction n with
  | zero => exact ⟨0, if_pos String.Pos.Raw.isValid_zero⟩
  | succ n ih =>
    rw [stop?]
    split
    · exact ⟨n + 1, rfl⟩
    · exact ih

/-- Where the search stops, it takes what comes before. -/
theorem takeBytes?_stop? (h : stop? s n = some m) :
    takeBytes? s.toList m = some (takeUpTo s.toList n) := by
  induction n with
  | zero =>
    obtain rfl : m = 0 := by simpa [stop?, eq_comm] using h
    rw [takeBytes?, takeUpTo]
  | succ n ih =>
    rw [stop?] at h
    split at h
    · next hvalid =>
      obtain ⟨ds, hds⟩ := isValid_iff_takeBytes?.mp hvalid
      obtain rfl := Option.some.inj h
      rw [takeUpTo, hds, Option.getD_some]
    · next hcross =>
      have hnone : takeBytes? s.toList (n + 1) = none := by
        rw [Option.eq_none_iff_forall_ne_some]
        exact fun ds hds => hcross (isValid_iff_takeBytes?.mpr ⟨ds, hds⟩)
      rw [takeUpTo, hnone, Option.getD_none]
      exact ih h

/-- The search stops at the last place that it may stop at. -/
theorem le_of_stop? (h : stop? s n = some m) :
    m ≤ n ∧ ∀ k ≤ n, (⟨k⟩ : String.Pos.Raw).IsValid s → k ≤ m := by
  induction n with
  | zero =>
    obtain rfl : m = 0 := by simpa [stop?, eq_comm] using h
    exact ⟨le_rfl, fun k hk _ => hk⟩
  | succ n ih =>
    rw [stop?] at h
    split at h
    · obtain rfl := Option.some.inj h
      exact ⟨le_rfl, fun k hk _ => hk⟩
    · next hcross =>
      obtain ⟨hle, hlast⟩ := ih h
      refine ⟨by omega, fun k hk hvalid => hlast k ?_ hvalid⟩
      have hne : k ≠ n + 1 := by
        rintro rfl
        exact hcross hvalid
      omega

end Searches

section Fits

/-- What is taken takes so many bytes as the search stops at. -/
theorem utf8ByteSize_takeUpTo (h : stop? s n = some m) :
    (String.ofList (takeUpTo s.toList n)).utf8ByteSize = m :=
  (takeBytes?_eq_some.mp (takeBytes?_stop? h)).2

theorem longestFit_takeUpTo (s : String) (n : ℕ) :
    LongestFit n s (.ofList (takeUpTo s.toList n)) := by
  obtain ⟨m, hstop⟩ := exists_stop? s n
  obtain ⟨hle, hlast⟩ := le_of_stop? hstop
  have hsize := utf8ByteSize_takeUpTo hstop
  have hbegins : (String.ofList (takeUpTo s.toList n)).toList <+: s.toList := by
    rw [String.toList_ofList]
    exact (takeBytes?_eq_some.mp (takeBytes?_stop? hstop)).1
  refine ⟨hsize ▸ hle, hbegins, fun u hu hfits => begins_of_le hbegins hu ?_⟩
  rw [hsize]
  exact hlast _ hfits (isValid_iff_begins.mpr ⟨u, hu, rfl⟩)

theorem longestFit_self (h : s.utf8ByteSize ≤ n) : LongestFit n s s :=
  ⟨h, List.prefix_rfl, fun _ hu _ => hu⟩

namespace LongestFit

theorem unique (h : LongestFit n s t) (h' : LongestFit n s u) : t = u :=
  String.toList_injective <|
    (h'.longest t h.begins h.fits).eq_of_length_le (h.longest u h'.begins h'.fits).length_le

/-- Less than one more character is left out of what there is room for. -/
theorem lt_add_four (h : LongestFit n s t) (hs : n < s.utf8ByteSize) : n < t.utf8ByteSize + 4 := by
  obtain ⟨rest, hrest⟩ := eq_append_of_begins h.begins
  cases rest with
  | nil =>
    obtain rfl : s = t := by simpa using hrest
    exact absurd h.fits (Nat.not_le.mpr hs)
  | cons c rest =>
    -- with one more character it would not fit any more
    have hmore : n < (t ++ String.singleton c).utf8ByteSize := by
      by_contra hfits
      have hbegins : (t ++ String.singleton c).toList <+: s.toList := by
        rw [hrest]
        simp
      have hlonger := (h.longest _ hbegins (Nat.not_lt.mp hfits)).length_le
      rw [String.toList_append, String.toList_singleton, List.length_append,
        List.length_singleton] at hlonger
      omega
    have hwidth := c.utf8Size_le_four
    rw [String.utf8ByteSize_append, String.utf8ByteSize_singleton] at hmore
    omega

end LongestFit

theorem clamp_longestFit (s : String) : LongestFit limit s (clamp s) := by
  unfold clamp
  split
  · next hfits => exact longestFit_self hfits
  · exact longestFit_takeUpTo s limit

/-- A longer text is cut where the search stops. -/
theorem toByteArray_clamp (hs : limit < s.utf8ByteSize) (h : stop? s limit = some n) :
    (clamp s).toByteArray = s.toByteArray.extract 0 n := by
  have hcut : clamp s = .ofList (takeUpTo s.toList limit) := if_neg (Nat.not_le.mpr hs)
  rw [toByteArray_of_begins (clamp_longestFit s).begins, hcut, utf8ByteSize_takeUpTo h]

theorem clamp_clamp (s : String) : clamp (clamp s) = clamp s :=
  clamp_of_le (clamp_longestFit s).fits

end Fits

end SceneGraph.Name
