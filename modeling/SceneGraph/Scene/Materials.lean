import SceneGraph.Scene.Basic

/-!
# Shaders, materials and textures of a scene
-/

namespace SceneGraph.Scene

def setShaderSource (id : ComponentId) (vertex fragment : String) : SceneEdit Unit :=
  updateShader id fun s => { s with vertexSource := vertex, fragmentSource := fragment }

/-- Lets a material draw with a shader; null takes its shader away. -/
def setMaterialShader (id shader : ComponentId) : SceneEdit Unit := do
  if !shader.isNull then
    let _ ← ask (Scene.shader · shader)
  updateMaterial id fun m => { m with shader }

def setMaterialUniform (id : ComponentId) (slot : UInt32) (value : Vec4) : SceneEdit Unit := do
  let _ ← ask (material · id)
  if h : slot.toNat < uniformLimit then
    modify fun s => s.modifyMaterial id fun m =>
      { m with uniforms := m.uniforms.set slot.toNat value, uniformsDirty := true }
  else throw (.invalidUniform id slot)

/-- Whether a uniform had changed; from now on none has. -/
def acknowledgeMaterial (id : ComponentId) : SceneEdit Bool := do
  let m ← ask (material · id)
  modify fun s => s.modifyMaterial id fun m => { m with uniformsDirty := false }
  return m.uniformsDirty

/-- Gives a texture another size and clears it. -/
def resizeTexture (id : ComponentId) (width height : UInt32) : SceneEdit Unit :=
  updateTexture id fun t => t.resize width height

/-- Replaces the pixels of a texture; there have to be as many bytes as its size asks for. -/
def writeTexture (id : ComponentId) (pixels : Bytes) : SceneEdit Unit := do
  let t ← ask (texture · id)
  let expected := Texture.byteLength t.width t.height
  if pixels.length ≠ expected then throw (.textureSize id expected pixels.length)
  modify fun s => s.modifyTexture id fun t => { t with pixels, uploadPending := true }

/-- Whether the pixels waited for upload; from now on they do not. -/
def acknowledgeTexture (id : ComponentId) : SceneEdit Bool := do
  let t ← ask (texture · id)
  modify fun s => s.modifyTexture id fun t => { t with uploadPending := false }
  return t.uploadPending

end SceneGraph.Scene
