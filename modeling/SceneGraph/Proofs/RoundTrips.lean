import SceneGraph.Command.Codec
import SceneGraph.Readback

/-!
# Reading what was written

A payload that was written for a command or a readback, and is read under the tag of its kind,
stands for that command or readback again. A fixed part gives its values back whatever follows it,
so each kind is settled by what its tails are. Only the texts of a shader are told apart by lengths
that travel with them, which have to fit into a word each.
-/

namespace SceneGraph

namespace Payload

variable {α : Type}

/-- A payload without a tail. -/
theorem split_write (kind : String) (layout : Layout α) (x : α) :
    split kind layout (layout.write x) = .ok (x, []) := by
  have h := split_write_append kind layout x []
  rwa [List.append_nil] at h

end Payload

theorem CommandKind.read_tag (k : CommandKind) : read k.tag = .ok k := by
  rw [read, ofTag?_tag]

namespace Command

/-- The lengths of a shader's texts fit into the words that carry them. -/
def TextsFit : Command → Prop
  | createShader _ vertex fragment =>
    vertex.utf8ByteSize < UInt32.size ∧ fragment.utf8ByteSize < UInt32.size
  | _ => True

theorem toNat_lengthWord_eq_min (s : String) :
    (lengthWord s).toNat = min s.utf8ByteSize 0xffffffff := by
  rw [lengthWord, UInt32.toNat_ofNat']
  omega

theorem toNat_lengthWord {s : String} (h : s.utf8ByteSize < UInt32.size) :
    (lengthWord s).toNat = s.utf8ByteSize := by
  have hsize : UInt32.size = 4294967296 := rfl
  rw [toNat_lengthWord_eq_min]
  omega

/-- The two texts of a shader are cut apart where they were joined. -/
theorem shaderTexts_ofString {vertex fragment : String} (kind : String)
    (hv : vertex.utf8ByteSize < UInt32.size) (hf : fragment.utf8ByteSize < UInt32.size) :
    shaderTexts kind (lengthWord vertex).toNat (lengthWord fragment).toNat
      (Bytes.ofString vertex ++ Bytes.ofString fragment) = .ok (vertex, fragment) := by
  have hvertex : (lengthWord vertex).toNat = (Bytes.ofString vertex).length := by
    rw [toNat_lengthWord hv, Bytes.length_ofString]
  have hfragment : (lengthWord fragment).toNat = (Bytes.ofString fragment).length := by
    rw [toNat_lengthWord hf, Bytes.length_ofString]
  have hlong : ¬ (Bytes.ofString vertex ++ Bytes.ofString fragment).length <
      (Bytes.ofString vertex).length + (Bytes.ofString fragment).length := by
    rw [List.length_append]
    exact Nat.lt_irrefl _
  rw [shaderTexts, hvertex, hfragment, if_neg hlong, List.take_left, List.drop_left,
    List.take_length, Payload.text_ofString, Payload.text_ofString]
  rfl

theorem map_mk_bits (xs : List Scalar) : (xs.map Scalar.bits).map Scalar.mk = xs := by
  simp [Function.comp_def]

theorem ofPayload_payload (c : Command) (h : c.TextsFit) :
    ofPayload c.kind c.payload = .ok c := by
  cases c <;>
    simp only [payload, parts, List.flatten_cons, List.flatten_nil, List.append_nil, kind,
      ofPayload, Payload.split_write_append, Payload.split_write]
  -- the fixed parts are read; what is left depends on the tail
  case createTransform id name | setName id name | createGeometry id name
      | createMaterial id shader name | createMesh id geometry material name
      | createTexture id width height name =>
    exact congrArg (Except.map _) (Payload.text_ofString _ name)
  case setVertexAttribute geometry location components data =>
    refine (congrArg (Except.map _) (Payload.words_ofWords _ (data.map Scalar.bits))).trans ?_
    rw [Except.map, map_mk_bits]
  case setIndices geometry indices =>
    exact congrArg (Except.map _) (Payload.words_ofWords _ indices)
  case createShader id vertex fragment =>
    exact congrArg (Except.map _) (shaderTexts_ofString _ h.1 h.2)
  all_goals rfl

theorem decode_parts (c : Command) (h : c.TextsFit) :
    decode c.kind.tag c.parts.flatten = .ok c := by
  rw [decode, CommandKind.read_tag]
  exact ofPayload_payload c h

end Command

theorem Readback.decode_parts (r : Readback) : decode r.kind.tag r.parts.flatten = .ok r := by
  cases r with
  | textureData texture width height pixels =>
    have hparts : (textureData texture width height pixels).parts.flatten =
        header.write (texture, width, height) ++ pixels := by
      simp [parts]
    have hkind : ReadbackKind.read (textureData texture width height pixels).kind.tag =
        .ok .textureData := rfl
    rw [decode, hkind, hparts]
    simp only [bind, Except.bind, Payload.split_write_append]
    rfl

/-- What was written for a command or a readback reads as that command or readback. -/
theorem decode_written :
    (∀ c : Command, c.TextsFit → Command.decode c.kind.tag c.parts.flatten = .ok c) ∧
    ∀ r : Readback, Readback.decode r.kind.tag r.parts.flatten = .ok r :=
  ⟨Command.decode_parts, Readback.decode_parts⟩

/-- A text with a null character and one with a character of two bytes. -/
theorem decode_written_shader :
    (Command.createShader ⟨2⟩ "a\x00" "é").TextsFit ∧
      Command.decode 16 (Command.createShader ⟨2⟩ "a\x00" "é").parts.flatten =
        .ok (.createShader ⟨2⟩ "a\x00" "é") ∧
      Readback.decode 1 (Readback.textureData ⟨7⟩ 1 1 [1, 2, 3, 4]).parts.flatten =
        .ok (.textureData ⟨7⟩ 1 1 [1, 2, 3, 4]) := by
  have hfit : (Command.createShader ⟨2⟩ "a\x00" "é").TextsFit := by
    unfold Command.TextsFit
    decide
  exact ⟨hfit, decode_written.1 _ hfit, decode_written.2 _⟩

end SceneGraph
