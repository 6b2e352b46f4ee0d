import SceneGraph.Scene.Basic

/-!
# The hierarchy

Nodes form a forest. Parent and child lists are kept in step: attaching appends a child to its
parent's list, detaching swap-erases it. An edit that would put a node below itself is refused.

Edits do not recompute matrices but raise staleness, on the node they concern and, up to the first
that is already stale, on its ancestors. A walk up the parents is cut off when it has taken more
steps than there are nodes.
-/

namespace SceneGraph.Scene

/-- The most nodes that a walk up the parents may visit. -/
def walkLimit (s : Scene) : Nat := s.nodes.size + 1

/-- Marks `id` and the nodes above it as having something stale below, up to the first that is
stale already. -/
def markUpward : (fuel : Nat) → (id : ComponentId) → Scene → Scene
  | 0, _, s => s
  | fuel + 1, id, s =>
    if id.isNull then s
    else match s.node id with
      | .error _ => s
      | .ok n =>
        if n.stale = .none then
          markUpward fuel n.parent (s.modifyNode id fun n => { n with stale := .descendents })
        else s

/-- Raises the staleness of a node to `flag` and marks its ancestors. -/
def flag (s : Scene) (id : ComponentId) (flag : Staleness) : Scene :=
  markUpward s.walkLimit (s.parentOf id) (s.modifyNode id fun n => n.raise flag)

/-- Raises the staleness of a node; refused if it is none. -/
def setStale (id : ComponentId) (flag : Staleness) : SceneEdit Unit := do
  let _ ← ask (node · id)
  modify fun s => s.flag id flag

def setPosition (id : ComponentId) (position : Vec3) : SceneEdit Unit := do
  updateNode id fun n => { n with position }
  setStale id .local

def setRotation (id : ComponentId) (rotation : Quat) : SceneEdit Unit := do
  updateNode id fun n => { n with rotation }
  setStale id .local

def setScale (id : ComponentId) (scale : Vec3) : SceneEdit Unit := do
  updateNode id fun n => { n with scale }
  setStale id .local

/-- Whether `target` is met on the way from `id` up the parents. -/
def meets (s : Scene) (target : ComponentId) : (fuel : Nat) → (id : ComponentId) → Bool
  | 0, _ => false
  | fuel + 1, id =>
    if id.isNull then false
    else id = target || meets s target fuel (s.parentOf id)

/-- Whether `ancestor` lies strictly above `id`. -/
def isAncestor (s : Scene) (ancestor id : ComponentId) : Bool :=
  s.meets ancestor s.walkLimit (s.parentOf id)

/-- Makes a node a root and takes it out of its parent's list of children. -/
def detach (s : Scene) (child : ComponentId) : Scene :=
  match s.node child with
  | .error _ => s
  | .ok n =>
    (s.modifyNode child fun n => { n with parent := .null }).modifyNode n.parent fun p =>
      { p with children := swapErase p.children child }

/-- Moves `child` under `parent`; nothing happens if it is there. -/
def addChild (parent child : ComponentId) : SceneEdit Unit := do
  let _ ← ask (indexOf · .node parent)
  let c ← ask (node · child)
  let s ← get
  if child = parent ∨ s.isAncestor child parent then throw (.cycle parent child)
  if c.parent = parent then return
  modify fun s => s.detach child
  updateNode child fun n => { n with parent }
  updateNode parent fun p => { p with children := p.children ++ [child] }
  setStale child .world

/-- Makes `child`, which has to be a child of `parent`, a root. -/
def removeChild (parent child : ComponentId) : SceneEdit Unit := do
  let _ ← ask (indexOf · .node parent)
  let c ← ask (node · child)
  if c.parent ≠ parent then throw (.notAChild parent child)
  modify fun s => s.detach child
  setStale child .world

/-- Makes all children of `parent` roots, and gives their number. -/
def removeAllChildren (parent : ComponentId) : SceneEdit Nat := do
  let p ← ask (node · parent)
  modify fun s => s.modifyNode parent fun p => { p with children := [] }
  p.children.forM fun child => do
    modify fun s => s.modifyNode child fun n => { n with parent := .null }
    setStale child .world
  return p.children.length

/-- Moves `child` under `parent`, or to the top if there is none. -/
def reparent (child : ComponentId) (parent : Option ComponentId) : SceneEdit Unit :=
  match parent with
  | some parent => addChild parent child
  | none => do
    let c ← ask (node · child)
    match c.parent.nonNull with
    | none => return
    | some current => removeChild current child

end SceneGraph.Scene
