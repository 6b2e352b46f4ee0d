import SceneGraph.Proofs.Reachable

/-!
# Refused commands change nothing

An edit keeps what it has changed before it is refused. On a reachable scene no command is refused
after it has changed something.
-/

namespace SceneGraph.Stage

variable {c : Command} {t t' : Stage} {e : SceneError}

/-- A refused command leaves the scene and the readbacks as they were. -/
theorem apply_error [Mat4.Arithmetic] (h : t.scene.Reachable) (he : apply c t = .error e t') :
    t' = t := by
  have hout := Scene.command_outcome h.valid c
  rw [Scene.run_apply] at he
  cases hc : c.edit t.scene with
  | ok u s =>
    simp only [hc] at he
    cases hr : c.reply? s with
    | none => simp [hr] at he
    | some r => simp [hr] at he
  | error err s =>
    rw [hc] at hout
    have hs : s = t.scene := hout
    simp only [hc, hs, EStateM.Result.error.injEq] at he
    exact he.2.symm

/-- A hub and, below it, a mesh that draws a cube. -/
def furnished [Mat4.Arithmetic] : Stage where
  scene := List.foldl Operation.run {}
    [.insert .transform ⟨5⟩ "hub", .apply (.createGeometry ⟨6⟩ "cube") default,
      .apply (.createMesh ⟨7⟩ ⟨6⟩ .null "wheel") default, .apply (.addChild ⟨5⟩ ⟨7⟩) default]
  readbacks := .ofCapacity 64

/-- The hub cannot be bound to the cube. -/
theorem apply_error_furnished :
    ∃ t', furnished.scene.Reachable ∧
      apply (.updateMesh ⟨5⟩ ⟨6⟩ .null) furnished = .error (.wrongKind ⟨5⟩ .mesh .transform) t' ∧
      t' = furnished := by
  have h : furnished.scene.Reachable := Scene.Reachable.empty.runs (by decide)
  have he : apply (.updateMesh ⟨5⟩ ⟨6⟩ .null) furnished =
      .error (.wrongKind ⟨5⟩ .mesh .transform) furnished := rfl
  exact ⟨furnished, h, he, apply_error h he⟩

end SceneGraph.Stage
