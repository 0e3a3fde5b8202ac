/-!
# Errors

Every way in which reading a scene, compiling its graphs or writing an image can fail, by its cause.
The wording is in `Error.message`; causes that lie outside of the library (a document, a file, an
image that cannot be read) have none here.
-/

namespace Candela

/-- Why something failed. -/
inductive Error where
  /-- A node graph reaches itself through its links. -/
  | cycleDetected (node : String)
  /-- An input has more than one link. -/
  | multiInputDetected (node input : String)
  /-- There is no rule for a node type. -/
  | unsupportedKernel (tag : String)
  /-- A link names a node that does not exist. -/
  | missingNode (name : String)
  /-- A material is named that the library does not have. -/
  | missingMaterial (name : String)
  /-- An entity names a shape that does not exist. -/
  | missingShape (name : String)
  /-- A scene has no world light. -/
  | missingWorldLight
  /-- A scene has more than one world light. -/
  | multipleWorldLights (count : Nat)
  /-- A mesh file is malformed. -/
  | mesh (message : String)
  /-- The shading library was refused by the compiler. -/
  | shaderCompile (message : String)
  /-- A document cannot be read. -/
  | json
  /-- The parameters of a node do not fit its type. -/
  | parameters (kernel : String)
  /-- A file cannot be read. -/
  | io
  /-- An image cannot be read. -/
  | image
  /-- An index lies outside of its table. -/
  | outOfBounds
  /-- A count is beyond what holds it. -/
  | overflow
  /-- Anything else. -/
  | other (message : String)
  deriving DecidableEq

/-- The wording of an error, where it is the library's own. -/
def Error.message : Error → Option String
  | cycleDetected node => some ("Cycle detected at node '" ++ node ++ "'")
  | multiInputDetected node input =>
    some ("Input '" ++ input ++ "' of node '" ++ node ++ "' has more than one link")
  | unsupportedKernel tag => some ("Unsupported kernel: " ++ tag)
  | missingNode name => some ("Node not found: " ++ name)
  | missingMaterial name => some ("Material not found: " ++ name)
  | missingShape name => some ("Shape not found: " ++ name)
  | missingWorldLight => some "Scene has no world light"
  | multipleWorldLights count =>
    some ("Scene has " ++ toString count ++ " world lights, expected exactly one")
  | mesh message => some message
  | shaderCompile message => some ("Shader compilation failed: " ++ message)
  | other message => some message
  | json | parameters _ | io | image | outOfBounds | overflow => none

end Candela
