import SceneGraph.Memory.Layout
import SceneGraph.Memory.Text

/-!
# Payloads

A payload is a fixed part, in some layout, and a tail of text, words or plain bytes. This module
holds the ways in which reading one can fail, and the readers of the parts.
-/

namespace SceneGraph

/-- Why a payload cannot be read; `kind` is the name of what it should have held. -/
inductive DecodeError where
  | unknownKind (tag : UInt32)
  | truncated (kind : String) (needed actual : Nat)
  | misaligned (kind : String) (length element : Nat)
  | invalidText (kind : String)
deriving DecidableEq, Repr

namespace DecodeError

def message : DecodeError → String
  | unknownKind tag => s!"unknown command kind {tag}"
  | truncated kind needed actual =>
    s!"truncated {kind} payload: need {needed} bytes, got {actual}"
  | misaligned kind length element =>
    s!"{kind} trailing data of {length} bytes is not a multiple of {element}"
  | invalidText kind => s!"{kind} carries invalid UTF-8 text"

end DecodeError

namespace Payload

variable {α : Type}

/-- The fixed part in front, and the tail. -/
def split (kind : String) (layout : Layout α) (payload : Bytes) : Except DecodeError (α × Bytes) :=
  if payload.length < layout.size then .error (.truncated kind layout.size payload.length)
  else .ok (layout.read payload, payload.drop layout.size)

def text (kind : String) (tail : Bytes) : Except DecodeError String :=
  match Bytes.toString? tail with
  | some s => .ok s
  | none => .error (.invalidText kind)

def words (kind : String) (tail : Bytes) : Except DecodeError (List UInt32) :=
  if tail.length % 4 = 0 then .ok (Bytes.toWords tail)
  else .error (.misaligned kind tail.length 4)

theorem split_write_append (kind : String) (layout : Layout α) (x : α) (tail : Bytes) :
    split kind layout (layout.write x ++ tail) = .ok (x, tail) := by
  have h := layout.length_write x
  have hd : (layout.write x ++ tail).drop layout.size = tail := by rw [← h, List.drop_left]
  simp [split, h, hd, layout.read_write]

theorem text_ofString (kind s : String) : text kind (Bytes.ofString s) = .ok s := by simp [text]

theorem words_ofWords (kind : String) (ws : List UInt32) :
    words kind (Bytes.ofWords ws) = .ok ws := by
  simp [words]

end Payload

end SceneGraph
