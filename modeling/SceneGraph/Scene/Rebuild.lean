import SceneGraph.Scene.Hierarchy

/-!
# Recomputing matrices

A rebuild goes down from a node and recomputes what is stale. Below a fresh node nothing is stale,
so it is passed over; below one that only has something stale under it, the children are looked at;
a stale one is recomputed together with everything under it, from the world matrix of its parent.
Geometries drawn by a recomputed mesh have to be batched anew.

The children of a node are visited last one first. No path downwards in a forest has more nodes
than there are, which bounds the depth of the descent.
-/

namespace SceneGraph

/-- What a rebuild has done. -/
structure RebuildStats where
  /-- Nodes looked at. -/
  visited : Nat := 0
  /-- Fresh nodes, passed over with all that is below them. -/
  pruned : Nat := 0
  localRecomputed : Nat := 0
  worldRecomputed : Nat := 0
  /-- Geometries that became stale. -/
  geometriesMarked : Nat := 0
deriving DecidableEq, Repr

instance : Add RebuildStats where
  add a b :=
    { visited := a.visited + b.visited
      pruned := a.pruned + b.pruned
      localRecomputed := a.localRecomputed + b.localRecomputed
      worldRecomputed := a.worldRecomputed + b.worldRecomputed
      geometriesMarked := a.geometriesMarked + b.geometriesMarked }

/-- A rebuild under way; `touched` are the geometries of the meshes recomputed so far. -/
structure Rebuild where
  scene : Scene
  stats : RebuildStats := {}
  touched : List ComponentId := []
deriving DecidableEq

/-- The world matrix of a node's parent; the identity at the top. -/
def Scene.worldAbove (s : Scene) (n : Node) : Mat4 :=
  match n.parent.nonNull with
  | none => .identity
  | some parent => match s.node parent with
    | .ok p => p.worldMatrix
    | .error _ => .identity

section Passes

variable [Mat4.Arithmetic]

namespace Rebuild

/-- Notes that the matrices of `n` were recomputed. -/
def noteRecomputed (r : Rebuild) (n : Node) : Rebuild :=
  { r with
    stats := { r.stats with
      visited := r.stats.visited + 1
      localRecomputed := r.stats.localRecomputed + (if n.stale = .local then 1 else 0)
      worldRecomputed := r.stats.worldRecomputed + 1 }
    touched := match n.mesh with
      | some b => if b.geometry.isNull then r.touched else r.touched ++ [b.geometry]
      | none => r.touched }

/-- Recomputes `id` and all below it, under a parent with world matrix `base`. -/
def recompute : (depth : Nat) → (base : Mat4) → (id : ComponentId) → Rebuild → Rebuild
  | 0, _, _, r => r
  | depth + 1, base, id, r =>
    match r.scene.node id with
    | .error _ => r
    | .ok n =>
      let r := { r with scene := r.scene.modifyNode id (Node.refresh · base) }
      let world := (n.refresh base).worldMatrix
      n.children.foldr (fun c r => recompute depth world c r) (r.noteRecomputed n)

/-- Recomputes what is stale at `id` and below. -/
def descend : (depth : Nat) → (id : ComponentId) → Rebuild → Rebuild
  | 0, _, r => r
  | depth + 1, id, r =>
    match r.scene.node id with
    | .error _ => r
    | .ok n =>
      let seen := { r.stats with visited := r.stats.visited + 1 }
      match n.stale with
      | .none => { r with stats := { seen with pruned := seen.pruned + 1 } }
      | .descendents =>
        let r := { r with
          scene := r.scene.modifyNode id fun n => { n with stale := .none }
          stats := seen }
        n.children.foldr (fun c r => descend depth c r) r
      | .world | .local => recompute r.scene.walkLimit (r.scene.worldAbove n) id r

/-- Marks the geometries that the rebuild has touched. -/
def markTouched (r : Rebuild) : Scene × RebuildStats :=
  r.touched.foldl (fun (s, stats) id =>
    match s.geometry id with
    | .ok g =>
      if g.instancesStale then (s, stats)
      else (s.modifyGeometry id fun g => { g with instancesStale := true },
        { stats with geometriesMarked := stats.geometriesMarked + 1 })
    | .error _ => (s, stats)) (r.scene, r.stats)

end Rebuild

namespace Scene

/-- Recomputes what is stale at `root` and below. -/
def rebuiltFrom (s : Scene) (root : ComponentId) : Scene × RebuildStats :=
  (Rebuild.descend s.walkLimit root { scene := s }).markTouched

/-- Recomputes what is stale at `root` and below; refused if it is no node. The world matrix of
the node's parent is taken as it is. -/
def rebuildMatrices (root : ComponentId) : SceneEdit RebuildStats := do
  let _ ← ask (indexOf · .node root)
  modifyGet fun s => let (s, stats) := s.rebuiltFrom root; (stats, s)

/-- Recomputes everything that is stale, root by root in storage order. -/
def rebuildAllMatrices (s : Scene) : Scene × RebuildStats :=
  let stale := s.nodes.rows.filter fun n => n.parent.isNull && n.stale ≠ .none
  (stale.map Node.id).foldl (fun (s, stats) root =>
    match s.indexOf .node root with
    | .ok _ => let (s, pass) := s.rebuiltFrom root; (s, stats + pass)
    | .error _ => (s, stats)) (s, {})

end Scene

end Passes

end SceneGraph
