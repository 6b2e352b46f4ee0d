import SceneGraph.Proofs.RoundTrips

/-!
# The format of commands

For each kind of command the format says how long the fixed part of its payload is, where in it the
padding lies and what has to follow. Reading accepts the payloads of that format and no others, and
otherwise tells what is wrong first. What was read is written as it stood, but for the padding,
which is zero again, and for the bytes that no part claims, which are gone.
-/

namespace SceneGraph

namespace Bytes

variable {bs : Bytes} {s : String}

/-- The bytes are valid UTF-8. -/
def IsText (bs : Bytes) : Prop := ∃ s : String, bs = ofString s

theorem isText_iff : IsText bs ↔ (toString? bs).isSome := by
  rw [Option.isSome_iff_exists]
  exact exists_congr fun _ => toString?_eq_some_iff.symm

instance (bs : Bytes) : Decidable (IsText bs) := decidable_of_iff _ isText_iff.symm

/-- Whole words are written as they were read. -/
theorem ofWords_toWords (bs : Bytes) (h : bs.length % 4 = 0) : ofWords (toWords bs) = bs := by
  induction bs using toWords.induct with
  | case1 a b c d rest ih =>
    have hrest : rest.length % 4 = 0 := by
      simp only [List.length_cons] at h
      omega
    have hword : (UInt32.ofNat (toNat [a, b, c, d])).toNat = toNat [a, b, c, d] :=
      UInt32.toNat_ofNat_of_lt' (toNat_lt [a, b, c, d])
    have hhead : ofNat 4 (toNat [a, b, c, d]) = [a, b, c, d] := ofNat_toNat [a, b, c, d]
    rw [toWords, ofWords, List.flatMap_cons, hword, hhead, ← ofWords, ih hrest]
    rfl
  | case2 bs hshort =>
    have hnil : bs = [] := by
      rcases bs with _ | ⟨a, _ | ⟨b, _ | ⟨c, _ | ⟨d, rest⟩⟩⟩⟩
      · rfl
      · simp at h
      · simp at h
      · simp at h
      · exact absurd rfl (hshort a b c d rest)
    rw [hnil]
    rfl

/-- The bytes with the four from `i` on set to zero. -/
def blank (bs : Bytes) (i : Nat) : Bytes := bs.take i ++ (List.replicate 4 0 ++ bs.drop (i + 4))

theorem blank_take_add (bs : Bytes) (i n : Nat) : blank (bs.take (i + 4 + n)) i =
    bs.take i ++ (List.replicate 4 0 ++ (bs.drop (i + 4)).take n) := by
  have hfront : min i (i + 4 + n) = i := by omega
  have hback : i + 4 + n - (i + 4) = n := by omega
  rw [blank, List.take_take, hfront, List.drop_take, hback]

end Bytes

namespace Layout

variable {α β : Type} {a : Layout α} {b : Layout β} {bs : Bytes}

/-- What is read is written as it stood. -/
def Faithful (a : Layout α) : Prop :=
  ∀ bs : Bytes, a.size ≤ bs.length → a.write (a.read bs) = bs.take a.size

theorem faithful_word64 : word64.Faithful := by
  intro bs h
  have hlength : (bs.take 8).length = 8 := List.length_take_of_le h
  have hlt : Bytes.toNat (bs.take 8) < UInt64.size := by
    have := Bytes.toNat_lt (bs.take 8)
    rwa [hlength] at this
  have hdigits := Bytes.ofNat_toNat (bs.take 8)
  rw [hlength] at hdigits
  change Bytes.ofNat 8 (UInt64.ofNat (Bytes.toNat (bs.take 8))).toNat = bs.take 8
  rw [UInt64.toNat_ofNat_of_lt' hlt, hdigits]

theorem toNat_read_word32 (h : 4 ≤ bs.length) :
    (word32.read bs).toNat = Bytes.toNat (bs.take 4) := by
  have hlt := Bytes.toNat_lt (bs.take 4)
  rw [List.length_take_of_le h] at hlt
  exact UInt32.toNat_ofNat_of_lt' hlt

theorem faithful_word32 : word32.Faithful := by
  intro bs h
  have hlength : (bs.take 4).length = 4 := List.length_take_of_le h
  have hdigits := Bytes.ofNat_toNat (bs.take 4)
  rw [hlength] at hdigits
  change Bytes.ofNat 4 (word32.read bs).toNat = bs.take 4
  rw [toNat_read_word32 h, hdigits]

namespace Faithful

theorem pair (ha : a.Faithful) (hb : b.Faithful) : (a.pair b).Faithful := by
  intro bs h
  have hsize : a.size + b.size ≤ bs.length := h
  have hfirst := ha bs (by omega)
  have hsecond := hb (bs.drop a.size) (by rw [List.length_drop]; omega)
  change a.write (a.read bs) ++ b.write (b.read (bs.drop a.size)) = bs.take (a.size + b.size)
  rw [hfirst, hsecond, List.take_add]

theorem map (ha : a.Faithful) {make : α → β} {view : β → α} {h : ∀ y, make (view y) = y}
    (hview : ∀ x, view (make x) = x) : (a.map make view h).Faithful := by
  intro bs hsize
  change a.write (view (make (a.read bs))) = bs.take a.size
  rw [hview, ha bs hsize]

/-- Padding is not looked at, and is written as zeros. -/
theorem write_pad (ha : a.Faithful) (h : a.size + 4 ≤ bs.length) :
    (a.pad 4).write ((a.pad 4).read bs) = Bytes.blank (bs.take (a.size + 4)) a.size := by
  have hread := ha bs (by omega)
  have hblank := Bytes.blank_take_add bs a.size 0
  rw [List.take_zero, List.append_nil] at hblank
  exact (congrArg (· ++ List.replicate 4 0) hread).trans hblank.symm

/-- Padding between two values. -/
theorem write_pad_pair (ha : a.Faithful) (hb : b.Faithful) (h : a.size + 4 + b.size ≤ bs.length) :
    ((a.pad 4).pair b).write (((a.pad 4).pair b).read bs) =
      Bytes.blank (bs.take (a.size + 4 + b.size)) a.size := by
  have hfirst := ha bs (by omega)
  have hsecond := hb (bs.drop (a.size + 4)) (by rw [List.length_drop]; omega)
  change (a.write (a.read bs) ++ List.replicate 4 0) ++ b.write (b.read (bs.drop (a.size + 4))) = _
  rw [hfirst, hsecond, Bytes.blank_take_add, List.append_assoc]

end Faithful

theorem faithful_componentId : componentId.Faithful := faithful_word64.map fun _ => rfl

theorem faithful_scalar : scalar.Faithful := faithful_word32.map fun _ => rfl

theorem faithful_vec3 : vec3.Faithful :=
  (faithful_scalar.pair (faithful_scalar.pair faithful_scalar)).map fun _ => rfl

theorem faithful_vec4 : vec4.Faithful :=
  (faithful_scalar.pair (faithful_scalar.pair (faithful_scalar.pair faithful_scalar))).map
    fun _ => rfl

theorem faithful_quat : quat.Faithful :=
  (faithful_scalar.pair (faithful_scalar.pair (faithful_scalar.pair faithful_scalar))).map
    fun _ => rfl

end Layout

namespace CommandKind

/-- What follows the fixed part of a payload. -/
inductive Trailer where
  /-- Nothing that is looked at. -/
  | none
  | bytes
  | text
  | words
  /-- Two texts, whose lengths are in the fixed part. -/
  | texts
deriving DecidableEq, Repr

def trailer : CommandKind → Trailer
  | createTransform | setName | createGeometry | createMaterial | createMesh
  | createTexture => .text
  | setVertexAttribute | setIndices => .words
  | createShader => .texts
  | textureWrite => .bytes
  | _ => .none

/-- The number of bytes of the fixed part. -/
def fixedSize : CommandKind → Nat
  | createTransform | setName | destroy | removeAllChildren | createGeometry | setIndices
  | textureWrite | copyTextureToCpu => 8
  | addChild | removeChild | reparent | setVertexAttribute | setVertexCount | setIndicesCount
  | createShader | createMaterial | createTexture => 16
  | setPosition | setRotation | setScale | createMesh | updateMesh => 24
  | setMaterialUniform => 32

/-- Where in the fixed part the word of padding lies, if there is one. -/
def padding? : CommandKind → Option Nat
  | setPosition | setScale => some 20
  | setVertexCount | setIndicesCount | setMaterialUniform => some 12
  | _ => none

/-- The little-endian word at an offset of a payload. -/
def wordAt (p : Bytes) (offset : Nat) : Nat := Bytes.toNat ((p.drop offset).take 4)

/-- The lengths of the two texts of a shader. -/
def vertexLength (p : Bytes) : Nat := wordAt p 8

def fragmentLength (p : Bytes) : Nat := wordAt p 12

/-- What lies behind the fixed part. -/
def tail (k : CommandKind) (p : Bytes) : Bytes := p.drop k.fixedSize

/-- The trailer is one of this kind. -/
def TrailerFits (k : CommandKind) (p : Bytes) : Prop :=
  match k.trailer with
  | .none | .bytes => True
  | .text => (k.tail p).IsText
  | .words => (k.tail p).length % 4 = 0
  | .texts => vertexLength p + fragmentLength p ≤ (k.tail p).length ∧
      Bytes.IsText ((k.tail p).take (vertexLength p)) ∧
      Bytes.IsText (((k.tail p).drop (vertexLength p)).take (fragmentLength p))

/-- The payload is one of this kind. -/
structure Accepts (k : CommandKind) (p : Bytes) : Prop where
  fixed : k.fixedSize ≤ p.length
  trailer : k.TrailerFits p

/-- What is wrong first with a payload of this kind: too short for the fixed part, too short for the
texts that it announces, ragged words, bytes that are no text. -/
def fault? (k : CommandKind) (p : Bytes) : Option DecodeError :=
  if p.length < k.fixedSize then some (.truncated k.name k.fixedSize p.length)
  else match k.trailer with
    | .none | .bytes => none
    | .text => if (k.tail p).IsText then none else some (.invalidText k.name)
    | .words =>
      if (k.tail p).length % 4 = 0 then none else some (.misaligned k.name (k.tail p).length 4)
    | .texts =>
      if p.length < k.fixedSize + (vertexLength p + fragmentLength p) then
        some (.truncated k.name (k.fixedSize + (vertexLength p + fragmentLength p)) p.length)
      else if Bytes.IsText ((k.tail p).take (vertexLength p)) ∧
          Bytes.IsText (((k.tail p).drop (vertexLength p)).take (fragmentLength p)) then none
      else some (.invalidText k.name)

/-- The fixed part, with its padding set to zero. -/
def fixedPart (k : CommandKind) (p : Bytes) : Bytes :=
  match k.padding? with
  | none => p.take k.fixedSize
  | some i => Bytes.blank (p.take k.fixedSize) i

/-- The part of the trailer that is looked at. -/
def kept (k : CommandKind) (p : Bytes) : Bytes :=
  match k.trailer with
  | .none => []
  | .bytes | .text | .words => k.tail p
  | .texts => (k.tail p).take (vertexLength p + fragmentLength p)

/-- The payload as it is written. -/
def canonical (k : CommandKind) (p : Bytes) : Bytes := k.fixedPart p ++ k.kept p

theorem exists_tag_iff (tag : UInt32) : (∃ k : CommandKind, k.tag = tag) ↔ 1 ≤ tag ∧ tag ≤ 23 := by
  constructor
  · rintro ⟨k, rfl⟩
    cases k <;> decide
  · rintro ⟨hlow, hhigh⟩
    have hall : ∀ n : Fin 24, 1 ≤ n.val → ∃ k ∈ all, k.tag = UInt32.ofNat n.val := by decide
    rw [UInt32.le_iff_toNat_le] at hlow hhigh
    obtain ⟨k, -, hk⟩ := hall ⟨tag.toNat, Nat.lt_succ_of_le hhigh⟩ hlow
    exact ⟨k, by rw [hk, UInt32.ofNat_toNat]⟩

theorem read_eq_ok_iff {tag : UInt32} {k : CommandKind} : read tag = .ok k ↔ k.tag = tag := by
  constructor
  · intro h
    unfold read at h
    split at h
    · next k' hk' =>
      cases h
      exact tag_of_ofTag? hk'
    · cases h
  · rintro rfl
    exact read_tag k

theorem read_eq_error_iff {tag : UInt32} {e : DecodeError} :
    read tag = .error e ↔ (¬ ∃ k : CommandKind, k.tag = tag) ∧ e = .unknownKind tag := by
  have hnone : ofTag? tag = none ↔ ¬ ∃ k : CommandKind, k.tag = tag := by
    unfold ofTag?
    rw [List.find?_eq_none]
    constructor
    · rintro h ⟨k, rfl⟩
      exact h k (mem_all k) (beq_self_eq_true _)
    · intro h k _ hk
      exact h ⟨k, eq_of_beq hk⟩
  rw [← hnone, read]
  cases ofTag? tag with
  | some k => simp
  | none => simp [eq_comm]

/-- A payload is accepted when nothing is wrong with it. -/
theorem accepts_iff {k : CommandKind} {p : Bytes} : k.Accepts p ↔ k.fault? p = none := by
  unfold fault?
  by_cases hshort : p.length < k.fixedSize
  · rw [if_pos hshort]
    exact ⟨fun h => absurd h.fixed (Nat.not_le_of_lt hshort), fun h => by cases h⟩
  · have hfixed : k.fixedSize ≤ p.length := Nat.le_of_not_lt hshort
    have htail : (k.tail p).length = p.length - k.fixedSize := List.length_drop
    have htrailer : k.Accepts p ↔ k.TrailerFits p := ⟨Accepts.trailer, fun h => ⟨hfixed, h⟩⟩
    rw [if_neg hshort, htrailer, TrailerFits]
    cases k.trailer with
    | none | bytes => simp
    | text | words => simp
    | texts =>
      have hlong : vertexLength p + fragmentLength p ≤ (k.tail p).length ↔
          ¬ p.length < k.fixedSize + (vertexLength p + fragmentLength p) := by omega
      simp only [hlong]
      split <;> simp_all

end CommandKind

namespace Command

open CommandKind

variable {α : Type} {k : CommandKind} {p : Bytes}

theorem lengthWord_eq {s : String} {w : UInt32} (h : s.utf8ByteSize = w.toNat) :
    lengthWord s = w := by
  have hsize : s.utf8ByteSize < UInt32.size := h ▸ w.toNat_lt
  apply UInt32.toNat_inj.mp
  rw [toNat_lengthWord hsize, h]

/-- What reading a payload of this kind has to give: a command of the kind that is written as it
stood, or what is wrong first. -/
def Exact (k : CommandKind) (p : Bytes) : Except DecodeError Command → Prop
  | .ok c => k.Accepts p ∧ c.kind = k ∧ c.parts.flatten = k.canonical p
  | .error e => k.fault? p = some e

namespace Exact

theorem split (layout : Layout α) {rest : α × Bytes → Except DecodeError Command}
    (hsize : layout.size = k.fixedSize)
    (h : k.fixedSize ≤ p.length → Exact k p (rest (layout.read p, k.tail p))) :
    Exact k p (Payload.split k.name layout p >>= rest) := by
  unfold Payload.split
  rw [hsize]
  by_cases hshort : p.length < k.fixedSize
  · rw [if_pos hshort]
    exact if_pos hshort
  · rw [if_neg hshort]
    exact h (Nat.le_of_not_lt hshort)

variable (hlong : k.fixedSize ≤ p.length)
include hlong

/-- A payload whose trailer is not looked at. -/
theorem fixed {c : Command} (htrailer : k.trailer = .none) (hkind : c.kind = k)
    (hparts : c.parts = [k.fixedPart p]) : Exact k p (.ok c) := by
  refine ⟨⟨hlong, ?_⟩, hkind, ?_⟩
  · rw [TrailerFits, htrailer]
    trivial
  · rw [hparts, canonical, kept, htrailer]
    rfl

theorem bytes {c : Command} (htrailer : k.trailer = .bytes) (hkind : c.kind = k)
    (hparts : c.parts = [k.fixedPart p, k.tail p]) : Exact k p (.ok c) := by
  refine ⟨⟨hlong, ?_⟩, hkind, ?_⟩
  · rw [TrailerFits, htrailer]
    trivial
  · rw [hparts, canonical, kept, htrailer, List.flatten_cons, List.flatten_singleton]

theorem text {make : String → Command} (htrailer : k.trailer = .text)
    (hkind : ∀ s, (make s).kind = k)
    (hparts : ∀ s, (make s).parts = [k.fixedPart p, Bytes.ofString s]) :
    Exact k p (Payload.text k.name (k.tail p) >>= fun s => .ok (make s)) := by
  unfold Payload.text
  cases hread : Bytes.toString? (k.tail p) with
  | some s =>
    have htail : k.tail p = Bytes.ofString s := Bytes.eq_ofString_of_toString? hread
    refine ⟨⟨hlong, ?_⟩, hkind s, ?_⟩
    · rw [TrailerFits, htrailer]
      exact ⟨s, htail⟩
    · rw [hparts, canonical, kept, htrailer, List.flatten_cons, List.flatten_singleton, htail]
  | none =>
    have hno : ¬ (k.tail p).IsText := by simp [Bytes.isText_iff, hread]
    change k.fault? p = some (.invalidText k.name)
    rw [fault?, if_neg (Nat.not_lt_of_le hlong), htrailer]
    exact if_neg hno

theorem words (make : List UInt32 → Command) (htrailer : k.trailer = .words)
    (hkind : ∀ ws, (make ws).kind = k)
    (hparts : ∀ ws, (make ws).parts = [k.fixedPart p, Bytes.ofWords ws]) :
    Exact k p (Payload.words k.name (k.tail p) >>= fun ws => .ok (make ws)) := by
  unfold Payload.words
  by_cases hwhole : (k.tail p).length % 4 = 0
  · rw [if_pos hwhole]
    refine ⟨⟨hlong, ?_⟩, hkind _, ?_⟩
    · rw [TrailerFits, htrailer]
      exact hwhole
    · rw [hparts, canonical, kept, htrailer, List.flatten_cons, List.flatten_singleton,
        Bytes.ofWords_toWords _ hwhole]
  · rw [if_neg hwhole]
    change k.fault? p = some (.misaligned k.name (k.tail p).length 4)
    rw [fault?, if_neg (Nat.not_lt_of_le hlong), htrailer]
    exact if_neg hwhole

/-- The texts of a shader are as long as the words before them tell, so the same words are written
for them again. -/
theorem texts (make : String × String → Command) {v w : UInt32} {front : Bytes}
    (hsize : k.fixedSize = Fixed.shader.size) (htrailer : k.trailer = .texts)
    (hv : v.toNat = vertexLength p) (hw : w.toNat = fragmentLength p)
    (hfront : front ++ (Layout.word32.write v ++ Layout.word32.write w) = k.fixedPart p)
    (hkind : ∀ t, (make t).kind = k)
    (hparts : ∀ t, (make t).parts =
      [front ++ (Layout.word32.write (lengthWord t.1) ++ Layout.word32.write (lengthWord t.2)),
        Bytes.ofString t.1, Bytes.ofString t.2]) :
    Exact k p (shaderTexts k.name v.toNat w.toNat (k.tail p) >>= fun t => .ok (make t)) := by
  have hbehind : k.fixedSize + (k.tail p).length = p.length := by
    rw [tail, List.length_drop]
    omega
  have hfault : k.fault? p = _ := (if_neg (Nat.not_lt_of_le hlong)).trans (by rw [htrailer])
  unfold shaderTexts
  rw [hv, hw, ← hsize, hbehind]
  by_cases hshort : (k.tail p).length < vertexLength p + fragmentLength p
  · rw [if_pos hshort]
    exact hfault.trans (if_pos (by omega))
  rw [if_neg hshort]
  have hroom : ¬ p.length < k.fixedSize + (vertexLength p + fragmentLength p) := by omega
  have hlength : vertexLength p + fragmentLength p ≤ (k.tail p).length := Nat.le_of_not_lt hshort
  have hfault' : k.fault? p = _ := hfault.trans (if_neg hroom)
  unfold Payload.text
  cases hfirst : Bytes.toString? ((k.tail p).take (vertexLength p)) with
  | none =>
    have hno : ¬ Bytes.IsText ((k.tail p).take (vertexLength p)) := by
      simp [Bytes.isText_iff, hfirst]
    exact hfault'.trans (if_neg fun h => hno h.1)
  | some vertex =>
    cases hsecond :
        Bytes.toString? (((k.tail p).drop (vertexLength p)).take (fragmentLength p)) with
    | none =>
      have hno : ¬ Bytes.IsText (((k.tail p).drop (vertexLength p)).take (fragmentLength p)) := by
        simp [Bytes.isText_iff, hsecond]
      exact hfault'.trans (if_neg fun h => hno h.2)
    | some fragment =>
      have hvertex := Bytes.eq_ofString_of_toString? hfirst
      have hfragment := Bytes.eq_ofString_of_toString? hsecond
      have hvertexWord : lengthWord vertex = v := by
        apply lengthWord_eq
        rw [← Bytes.length_ofString, ← hvertex, List.length_take, hv]
        omega
      have hfragmentWord : lengthWord fragment = w := by
        apply lengthWord_eq
        rw [← Bytes.length_ofString, ← hfragment, List.length_take, List.length_drop, hw]
        omega
      refine ⟨⟨hlong, ?_⟩, hkind _, ?_⟩
      · rw [TrailerFits, htrailer]
        exact ⟨hlength, ⟨vertex, hvertex⟩, ⟨fragment, hfragment⟩⟩
      · rw [hparts, hvertexWord, hfragmentWord, hfront, canonical, kept, htrailer]
        simp only [List.flatten_cons, List.flatten_nil, List.append_nil]
        rw [← hvertex, ← hfragment, List.take_add]

end Exact

section Fixed

open Layout

theorem faithful_ids : Fixed.ids.Faithful := faithful_componentId.pair faithful_componentId

theorem faithful_rotation : Fixed.rotation.Faithful := faithful_componentId.pair faithful_quat

/-- An identifier and two words, as in the fixed parts of streams, shaders and textures. -/
theorem faithful_stream : Fixed.stream.Faithful :=
  faithful_componentId.pair (faithful_word32.pair faithful_word32)

theorem faithful_mesh : Fixed.mesh.Faithful := faithful_componentId.pair faithful_ids

theorem write_position (h : 24 ≤ p.length) :
    Fixed.position.write (Fixed.position.read p) = Bytes.blank (p.take 24) 20 :=
  (faithful_componentId.pair faithful_vec3).write_pad h

theorem write_count (h : 16 ≤ p.length) :
    Fixed.count.write (Fixed.count.read p) = Bytes.blank (p.take 16) 12 :=
  (faithful_componentId.pair (faithful_word32.map fun _ => rfl)).write_pad h

/-- The padding of a uniform lies between its slot and its value. -/
theorem write_uniform (h : 32 ≤ p.length) :
    Fixed.uniform.write (Fixed.uniform.read p) = Bytes.blank (p.take 32) 12 := by
  have hpadded := (faithful_componentId.pair faithful_word32).write_pad_pair faithful_vec4 h
  change componentId.write (componentId.read p) ++
    (word32.write (word32.read (p.drop 8)) ++ List.replicate 4 0 ++
      vec4.write (vec4.read ((p.drop 8).drop 8))) = _
  rw [List.drop_drop, ← List.append_assoc, ← List.append_assoc]
  exact hpadded

end Fixed

/-- Reading accepts what is of the format, and tells what is wrong with anything else. -/
theorem exact_ofPayload (k : CommandKind) (p : Bytes) : Exact k p (ofPayload k p) := by
  cases k with
  | createTransform | setName | createGeometry =>
    refine .split Fixed.id rfl fun h => .text h rfl (fun _ => rfl) fun s => ?_
    exact congrArg ([·, _]) (Layout.faithful_componentId p h)
  | destroy | removeAllChildren | copyTextureToCpu =>
    refine .split Fixed.id rfl fun h => .fixed h rfl rfl ?_
    exact congrArg ([·]) (Layout.faithful_componentId p h)
  | addChild | removeChild | reparent =>
    refine .split Fixed.ids rfl fun h => .fixed h rfl rfl ?_
    exact congrArg ([·]) (faithful_ids p h)
  | setPosition | setScale =>
    refine .split Fixed.position rfl fun h => .fixed h rfl rfl ?_
    exact congrArg ([·]) (write_position h)
  | setRotation =>
    refine .split Fixed.rotation rfl fun h => .fixed h rfl rfl ?_
    exact congrArg ([·]) (faithful_rotation p h)
  | setVertexAttribute =>
    refine .split Fixed.stream rfl fun h =>
      .words h (fun ws => setVertexAttribute _ _ _ (ws.map Scalar.mk)) rfl (fun _ => rfl)
        fun ws => ?_
    have hbits : (ws.map Scalar.mk).map Scalar.bits = ws := by simp [Function.comp_def]
    change [_, Bytes.ofWords ((ws.map Scalar.mk).map Scalar.bits)] = _
    rw [hbits]
    exact congrArg ([·, _]) (faithful_stream p h)
  | setIndices =>
    refine .split Fixed.id rfl fun h => .words h _ rfl (fun _ => rfl) fun ws => ?_
    exact congrArg ([·, _]) (Layout.faithful_componentId p h)
  | setVertexCount | setIndicesCount =>
    refine .split Fixed.count rfl fun h => .fixed h rfl rfl ?_
    exact congrArg ([·]) (write_count h)
  | createShader =>
    refine .split Fixed.shader rfl fun (h : 16 ≤ p.length) => ?_
    have hv : (Layout.word32.read (p.drop 8)).toNat = vertexLength p :=
      Layout.toNat_read_word32 (by rw [List.length_drop]; omega)
    have hw : (Layout.word32.read ((p.drop 8).drop 4)).toNat = fragmentLength p := by
      rw [Layout.toNat_read_word32 (by rw [List.length_drop, List.length_drop]; omega),
        List.drop_drop]
      rfl
    exact .texts (k := .createShader) h (fun t => createShader _ t.1 t.2) rfl rfl hv hw
      (faithful_stream p h) (fun _ => rfl) fun _ => rfl
  | createMaterial =>
    refine .split Fixed.ids rfl fun h => .text h rfl (fun _ => rfl) fun s => ?_
    exact congrArg ([·, _]) (faithful_ids p h)
  | setMaterialUniform =>
    refine .split Fixed.uniform rfl fun h => .fixed h rfl rfl ?_
    exact congrArg ([·]) (write_uniform h)
  | createMesh =>
    refine .split Fixed.mesh rfl fun h => .text h rfl (fun _ => rfl) fun s => ?_
    exact congrArg ([·, _]) (faithful_mesh p h)
  | updateMesh =>
    refine .split Fixed.mesh rfl fun h => .fixed h rfl rfl ?_
    exact congrArg ([·]) (faithful_mesh p h)
  | createTexture =>
    refine .split Fixed.texture rfl fun h => .text h rfl (fun _ => rfl) fun s => ?_
    exact congrArg ([·, _]) (faithful_stream p h)
  | textureWrite =>
    refine .split Fixed.id rfl fun h => .bytes h rfl rfl ?_
    exact congrArg ([·, _]) (Layout.faithful_componentId p h)

variable {tag : UInt32} {c : Command} {e : DecodeError}

theorem decode_tag (k : CommandKind) (p : Bytes) : decode k.tag p = ofPayload k p := by
  rw [decode, CommandKind.read_tag]
  rfl

theorem decode_eq_ok (h : decode tag p = .ok c) :
    c.kind.tag = tag ∧ c.kind.Accepts p ∧ c.parts.flatten = c.kind.canonical p := by
  cases hread : CommandKind.read tag with
  | error e =>
    rw [decode, hread] at h
    cases h
  | ok k =>
    obtain rfl := read_eq_ok_iff.mp hread
    have hexact := exact_ofPayload k p
    rw [← decode_tag, h] at hexact
    obtain ⟨haccepts, rfl, hparts⟩ := hexact
    exact ⟨rfl, haccepts, hparts⟩

theorem exists_decode_iff :
    (∃ c, decode tag p = .ok c) ↔ ∃ k : CommandKind, k.tag = tag ∧ k.Accepts p := by
  constructor
  · rintro ⟨c, hc⟩
    obtain ⟨htag, haccepts, -⟩ := decode_eq_ok hc
    exact ⟨c.kind, htag, haccepts⟩
  · rintro ⟨k, rfl, haccepts⟩
    rw [decode_tag]
    have hexact := exact_ofPayload k p
    cases hread : ofPayload k p with
    | ok c => exact ⟨c, rfl⟩
    | error e =>
      rw [hread] at hexact
      have hfault : k.fault? p = some e := hexact
      rw [accepts_iff.mp haccepts] at hfault
      cases hfault

theorem decode_eq_error_iff : decode tag p = .error e ↔
    ((¬ ∃ k : CommandKind, k.tag = tag) ∧ e = .unknownKind tag) ∨
      ∃ k : CommandKind, k.tag = tag ∧ k.fault? p = some e := by
  constructor
  · intro h
    cases hread : CommandKind.read tag with
    | error e' =>
      rw [decode, hread] at h
      cases h
      exact .inl (read_eq_error_iff.mp hread)
    | ok k =>
      obtain rfl := read_eq_ok_iff.mp hread
      have hexact := exact_ofPayload k p
      rw [← decode_tag, h] at hexact
      exact .inr ⟨k, rfl, hexact⟩
  · rintro (hunknown | ⟨k, rfl, hfault⟩)
    · rw [decode, read_eq_error_iff.mpr hunknown]
      rfl
    · have hexact := exact_ofPayload k p
      rw [decode_tag]
      cases hread : ofPayload k p with
      | error e' =>
        rw [hread] at hexact
        exact congrArg Except.error (Option.some.inj (Eq.trans (Eq.symm hexact) hfault))
      | ok c =>
        rw [hread] at hexact
        rw [accepts_iff.mp hexact.1] at hfault
        cases hfault

/-- The decoder accepts the payloads of the format and no others. It tells what is wrong first with
the others, and a command that it reads is written as it stood, with its padding zero and without
the bytes that no part claims. -/
theorem decode_exact (tag : UInt32) (p : Bytes) :
    ((∃ k : CommandKind, k.tag = tag) ↔ 1 ≤ tag ∧ tag ≤ 23) ∧
    ((∃ c, decode tag p = .ok c) ↔ ∃ k : CommandKind, k.tag = tag ∧ k.Accepts p) ∧
    (∀ e, decode tag p = .error e ↔
      (¬ (1 ≤ tag ∧ tag ≤ 23) ∧ e = .unknownKind tag) ∨
        ∃ k : CommandKind, k.tag = tag ∧ k.fault? p = some e) ∧
    ∀ c, decode tag p = .ok c → c.kind.tag = tag ∧ c.parts.flatten = c.kind.canonical p := by
  refine ⟨exists_tag_iff tag, exists_decode_iff, fun e => ?_, fun c hc => ?_⟩
  · rw [← exists_tag_iff]
    exact decode_eq_error_iff
  · obtain ⟨htag, -, hparts⟩ := decode_eq_ok hc
    exact ⟨htag, hparts⟩

/-- The cut between the texts of a shader falls into a character of two bytes. -/
example : fault? .createShader
    ([7, 0, 0, 0, 0, 0, 0, 0] ++ ([1, 0, 0, 0] ++ ([1, 0, 0, 0] ++ [0xc3, 0xa9]))) =
      some (.invalidText "CreateShader") := by
  decide

/-- The padding of a position is set to zero, and what lies behind it is dropped. -/
example : canonical .setPosition
    [7, 0, 0, 0, 0, 0, 0, 0, 1, 0, 0, 0, 2, 0, 0, 0, 3, 0, 0, 0, 9, 9, 9, 9, 5] =
      [7, 0, 0, 0, 0, 0, 0, 0, 1, 0, 0, 0, 2, 0, 0, 0, 3, 0, 0, 0, 0, 0, 0, 0] := by
  decide

end Command

end SceneGraph
