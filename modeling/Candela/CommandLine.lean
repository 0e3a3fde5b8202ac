import Candela.Power
import Candela.Text.Numeral

/-!
# The command line

A command line asks for help or for the rendering of one scene. Arguments are looked at one by one;
the first one that is wrong, or that asks for help, decides.
-/

namespace Candela.CommandLine

/-- What is wrong with a command line. -/
inductive Failure where
  /-- An option without its value. -/
  | missingValue (name : String)
  /-- A size that is no pair of positive numbers. -/
  | invalidSize (value : String)
  /-- A number of frames that is none. -/
  | invalidFrames (value : String)
  | unknownOption (name : String)
  | secondScene
  deriving DecidableEq

/-- The wording of a failure. -/
def Failure.message : Failure → String
  | missingValue name => name ++ " needs a value"
  | invalidSize value => "invalid size '" ++ value ++ "', expected WxH"
  | invalidFrames value => "invalid frame count '" ++ value ++ "'"
  | unknownOption name => "unknown option '" ++ name ++ "'"
  | secondScene => "more than one scene file given"

/-- What has been asked for so far. -/
structure Draft where
  scene : Option String := none
  width : Nat := 1280
  height : Nat := 720
  frames : Nat := 64
  output : String := "frame.exr"
  verbose : Bool := false

/-- The rendering of a scene. -/
structure Options where
  scene : String
  width : Nat
  height : Nat
  frames : Nat
  output : String
  verbose : Bool

/-- What a command line asks for. -/
inductive Request where
  | help
  | render (options : Options)

/-- Whether a character stands between width and height. -/
def isSizeMark (c : Char) : Bool := c == 'x' || c == 'X'

/-- A positive 32-bit number. -/
def positive? (cs : List Char) : Option Nat :=
  (Text.count? (2 ^ 32) cs).bind fun n => if 0 < n then some n else none

/-- A width and a height. -/
def size? (value : String) : Option (Nat × Nat) :=
  let cs := value.toList
  match cs.dropWhile (!isSizeMark ·) with
  | [] => none
  | _ :: height => do return (← positive? (cs.takeWhile (!isSizeMark ·)), ← positive? height)

/-- The rendering that has been asked for; without a scene, help. At least one frame is rendered. -/
def Draft.finish (d : Draft) : Request :=
  match d.scene with
  | none => .help
  | some scene => .render ⟨scene, d.width, d.height, max d.frames 1, d.output, d.verbose⟩

/-- What the remaining arguments ask for after what has been asked for so far. -/
def parseFrom (d : Draft) : List String → Except Failure Request
  | [] => .ok d.finish
  | arg :: rest =>
    if arg = "-h" ∨ arg = "--help" then .ok .help
    else if arg = "-v" ∨ arg = "--verbose" then parseFrom { d with verbose := true } rest
    else if arg = "-s" ∨ arg = "--size" then
      match rest with
      | [] => .error (.missingValue "--size")
      | value :: rest =>
        match size? value with
        | none => .error (.invalidSize value)
        | some (width, height) => parseFrom { d with width, height } rest
    else if arg = "-n" ∨ arg = "--frames" then
      match rest with
      | [] => .error (.missingValue "--frames")
      | value :: rest =>
        match Text.count? (2 ^ 32) value.toList with
        | none => .error (.invalidFrames value)
        | some frames => parseFrom { d with frames } rest
    else if arg = "-o" ∨ arg = "--output" then
      match rest with
      | [] => .error (.missingValue "--output")
      | output :: rest => parseFrom { d with output } rest
    else if arg.startsWith "-" then .error (.unknownOption arg)
    else if d.scene.isSome then .error .secondScene
    else parseFrom { d with scene := some arg } rest

/-- What a command line asks for. -/
def parse (args : List String) : Except Failure Request := parseFrom {} args

/-- What is logged unless something else is asked for. -/
def logDirective (verbose : Bool) : String :=
  if verbose then "wavetrace=debug" else "wavetrace=info"

/-- The lines of the help. -/
def helpLines : List String :=
  ["wavetrace - GPU wavefront path tracer",
    "",
    "USAGE:",
    "    wavetrace [OPTIONS] <scene.json>",
    "",
    "OPTIONS:",
    "    -s, --size <WxH>       Output resolution (default 1280x720)",
    "    -n, --frames <N>       Frames to accumulate (default 64)",
    "    -o, --output <file>    EXR file to write (default frame.exr)",
    "    -v, --verbose          Show debug output",
    "    -h, --help             Show this help",
    "",
    "Render settings are read from the user config directory (wavetrace/settings.json)."]

/-- The line after a failure. -/
def usageLine : String :=
  "Usage: wavetrace <scene.json> [--size WxH] [--frames N] [--output frame.exr]"

end Candela.CommandLine
