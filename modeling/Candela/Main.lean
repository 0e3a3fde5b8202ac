import Candela.CommandLine
import Candela.Frame.Sizes
import Candela.Json.Reader
import Candela.Mesh.Ply
import Candela.Scene.Assembly
import Candela.Scene.Description
import Candela.Settings
import Candela.Text.Path

/-!
# The program

Reads a scene and its meshes, assembles them, and says what a frame of the scene needs. Tracing the
rays takes a device, which lies outside of this library.
-/

namespace Candela

/-- The contents of a file, if it can be read. -/
def readBytes? (path : String) : IO (Option (List UInt8)) := do
  try
    return some (← IO.FS.readBinFile path).toList
  catch _ => return none

/-- The file of the current user's settings. -/
def settingsPath? : IO (Option String) := do
  match ← IO.getEnv "XDG_CONFIG_HOME", ← IO.getEnv "HOME" with
  | some directory, _ => return some (Text.joinPath directory "wavetrace/settings.json")
  | none, some home => return some (Text.joinPath home ".config/wavetrace/settings.json")
  | none, none => return none

/-- The settings of the current user. -/
def readSettings : IO Settings := do
  match ← settingsPath? with
  | some path => return .load (← readBytes? path)
  | none => return .load none

/-- The scene of a file. -/
def readScene (path : String) : IO (Except Error Scene) := do
  let some bytes ← readBytes? path | return .error .io
  match ((Text.decode? bytes).bind Json.parse?).bind Scene.Description.ofJson? with
  | none => return .error .json
  | some description => return description.toScene (Text.directory path)

/-- The mesh files of a scene. -/
def readMeshes (scene : Scene) : IO Mesh.Source := do
  let mut files : Keyed (Option (List UInt8)) := .empty
  for shape in scene.shapes do
    files := files.insert shape.path (← readBytes? shape.path)
  let found := files
  return .ofFiles fun path => (found.get? path).join

/-- The wording of an error. -/
def describe (e : Error) : String := e.message.getD "input cannot be read"

/-- Assembles a scene and reports what it is and what a frame of it needs. -/
def render (options : CommandLine.Options) : IO UInt32 := do
  let settings ← readSettings
  let assembled ← match ← readScene options.scene with
    | .error e => pure (.error e)
    | .ok scene => pure (scene.assemble (← readMeshes scene))
  match assembled with
  | .error e =>
    IO.eprintln ("Error: " ++ describe e)
    return 1
  | .ok assembly =>
    let sizes := Frame.Sizes.ofRequest options.width options.height settings.maxDepth.toNat
    match sizes.footprint with
    | .error e => IO.eprintln ("Error: " ++ describe e)
    | .ok footprint =>
      if options.verbose then
        IO.eprintln ("instances: " ++ toString assembly.placements.length)
        IO.eprintln ("lights: " ++ toString assembly.lights.emitters.length)
        IO.eprintln ("bytes of a frame: " ++ toString footprint.total)
      IO.eprintln "Error: there is no device to render on"
    return 1

end Candela

/-- Does what the command line asks for. -/
def main (args : List String) : IO UInt32 := do
  match Candela.CommandLine.parse args with
  | .error e =>
    IO.eprintln ("Error: " ++ e.message)
    IO.eprintln Candela.CommandLine.usageLine
    return 2
  | .ok .help =>
    for line in Candela.CommandLine.helpLines do
      IO.println line
    return 0
  | .ok (.render options) => Candela.render options
