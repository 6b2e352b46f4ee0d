import SceneGraph.Memory.Bytes

/-!
# Text as bytes

Text travels in UTF-8. Not every byte string is text; those that are stand for one text each.
-/

namespace SceneGraph.Bytes

def ofString (s : String) : Bytes := s.toByteArray.data.toList

/-- The text that a byte string encodes, if it is valid UTF-8. -/
def toString? (bs : Bytes) : Option String := String.fromUTF8? ⟨bs.toArray⟩

@[simp] theorem length_ofString (s : String) : (ofString s).length = s.utf8ByteSize := by
  simp [ofString]

@[simp] theorem toString?_ofString (s : String) : toString? (ofString s) = some s := by
  have h : s.toByteArray.IsValidUTF8 := s.isValidUTF8
  simp [toString?, ofString, String.fromUTF8?, h, String.fromUTF8]

theorem eq_ofString_of_toString? {bs : Bytes} {s : String} (h : toString? bs = some s) :
    bs = ofString s := by
  unfold toString? String.fromUTF8? at h
  split at h
  · cases h; simp [ofString, String.fromUTF8]
  · cases h

/-- Reading accepts exactly what writing produces. -/
theorem toString?_eq_some_iff {bs : Bytes} {s : String} : toString? bs = some s ↔ bs = ofString s :=
  ⟨eq_ofString_of_toString?, fun h => h ▸ toString?_ofString s⟩

end SceneGraph.Bytes
