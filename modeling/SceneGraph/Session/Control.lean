import SceneGraph.Session.Basic

/-!
# The control side of a session

Everything that the control side asks for becomes a command in the queue. A creation draws the
identifier at once, so that further commands can refer to what does not exist yet.
-/

namespace SceneGraph.Session

/-- Queues a command. -/
def push (s : Session) (c : Command) : Session :=
  { s with commands := (s.commands.push c.kind.tag c.parts).2 }

/-- Queues a record of any content and gives its offset. -/
def pushRaw (s : Session) (tag : UInt32) (payload : Bytes) : Nat × Session :=
  let (offset, commands) := s.commands.push tag [payload]
  (offset, { s with commands })

/-- Bytes queued and not taken yet. -/
def pending (s : Session) : Nat := s.commands.pending

def allocate (s : Session) : ComponentId × Session :=
  let (id, scene) := s.scene.allocate
  (id, { s with scene })

/-- Draws an identifier and queues the command that creates something under it. -/
def create (s : Session) (command : ComponentId → Command) : ComponentId × Session :=
  let (id, s) := s.allocate
  (id, s.push (command id))

def createTransform (s : Session) (name : String) : ComponentId × Session :=
  s.create (.createTransform · name)

def createGeometry (s : Session) (name : String) : ComponentId × Session :=
  s.create (.createGeometry · name)

def createShader (s : Session) (vertex fragment : String) : ComponentId × Session :=
  s.create (.createShader · vertex fragment)

def createMaterial (s : Session) (shader : ComponentId) (name : String) : ComponentId × Session :=
  s.create (.createMaterial · shader name)

def createMesh (s : Session) (geometry material : ComponentId) (name : String) :
    ComponentId × Session :=
  s.create (.createMesh · geometry material name)

def createTexture (s : Session) (width height : UInt32) (name : String) : ComponentId × Session :=
  s.create (.createTexture · width height name)

/-- Queues a move under `parent`, or to the top if there is none. -/
def reparent (s : Session) (child : ComponentId) (parent : Option ComponentId) : Session :=
  s.push (.reparent child (.ofOption parent))

end SceneGraph.Session
