import Candela.Json.Printer
import Candela.Json.Reader
import Candela.Json.Record
import Candela.Power
import Candela.Single
import Candela.Text.Words

/-!
# Render settings

Settings that are kept between sessions, in a file. A file that cannot be read as a whole gives the
standard settings; values that nothing can be rendered with are replaced (`Settings.validated`).
-/

namespace Candela

/-- The curve from radiance to what is shown. -/
inductive Tonemapping where
  | linear
  | hable
  | aces
  deriving DecidableEq

/-- How light is found. -/
inductive SamplingMode where
  /-- By chance, where rays are scattered to. -/
  | bsdf
  /-- By rays to the lights alone. -/
  | nee
  /-- Both, weighted against each other. -/
  | mis
  deriving DecidableEq

/-- What an image shows. -/
inductive OutputChannel where
  | image
  | albedo
  | normal
  deriving DecidableEq

/-- The curves, in the order of their numbers. -/
def Tonemapping.names : List (Tonemapping × String) :=
  [(.linear, "Linear"), (.hable, "Hable"), (.aces, "Aces")]

/-- The ways to find light, in the order of their numbers. -/
def SamplingMode.names : List (SamplingMode × String) :=
  [(.bsdf, "Bsdf"), (.nee, "Nee"), (.mis, "Mis")]

/-- The channels, in the order of their numbers. -/
def OutputChannel.names : List (OutputChannel × String) :=
  [(.image, "Image"), (.albedo, "Albedo"), (.normal, "Normal")]

/-- The number of a choice. -/
def choiceNumber {α : Type} [DecidableEq α] (names : List (α × String)) (a : α) : Nat :=
  (names.map (·.1)).idxOf a

/-- A choice that is written as its name. -/
def choiceField {σ α : Type} [DecidableEq α] (name : String) (names : List (α × String))
    (get : σ → α) (set : α → σ → σ) : Json.Field σ :=
  .of name (fun j => j.toCase?.bind fun n => (names.find? (·.2 = n)).map (·.1))
    (fun a => .string ((names.lookup a).getD "")) get set

/-- Render settings. -/
structure Settings where
  maxDepth : UInt32 := 8
  samplingMode : SamplingMode := .mis
  russianRouletteDepth : UInt32 := 2
  exposure : Float32 := 1
  tonemapping : Tonemapping := .linear
  outputChannel : OutputChannel := .image
  accumulate : Bool := true
  /-- The exponent of the resolution of the world's importance table. -/
  environmentExponent : UInt32 := 11
  /-- Whether the counters of every frame are read back. -/
  collectStatistics : Bool := false
  /-- The time in seconds from which on a frame is slow. -/
  slowFrameSeconds : Float32 := 1
  /-- How long the device is left alone after a slow frame. -/
  cooldownSeconds : Float32 := 3

namespace Settings

/-- The fields, in the order in which they are written. -/
def fields : List (Json.Field Settings) :=
  [.word "max_depth" (·.maxDepth) fun v s => { s with maxDepth := v },
    choiceField "sampling_mode" SamplingMode.names (·.samplingMode)
      fun v s => { s with samplingMode := v },
    .word "russian_roulette_depth" (·.russianRouletteDepth)
      fun v s => { s with russianRouletteDepth := v },
    .single "exposure" (·.exposure) fun v s => { s with exposure := v },
    choiceField "tonemapping" Tonemapping.names (·.tonemapping)
      fun v s => { s with tonemapping := v },
    choiceField "output_channel" OutputChannel.names (·.outputChannel)
      fun v s => { s with outputChannel := v },
    .flag "accumulate" (·.accumulate) fun v s => { s with accumulate := v },
    .word "envmap_exponent" (·.environmentExponent)
      fun v s => { s with environmentExponent := v },
    .flag "collect_statistics" (·.collectStatistics)
      fun v s => { s with collectStatistics := v },
    .single "slow_frame_seconds" (·.slowFrameSeconds)
      fun v s => { s with slowFrameSeconds := v },
    .single "cooldown_seconds" (·.cooldownSeconds)
      fun v s => { s with cooldownSeconds := v }]

/-! ## Limits -/

/-- A word kept within bounds. -/
def clampWord (low high x : UInt32) : UInt32 :=
  if x < low then low else if high < x then high else x

/-- The settings with every value that nothing can be rendered with replaced. The importance table
of an exponent above fourteen would be too long for indices of 32 bits. -/
def validated (s : Settings) : Settings :=
  { s with
    maxDepth := clampWord 1 64 s.maxDepth
    environmentExponent := clampWord 1 14 s.environmentExponent
    exposure := if !s.exposure.isFinite || s.exposure < 0 then 1 else s.exposure }

/-- A time in nanoseconds, the nearest one to a number of seconds; a time of `2 ^ 64` seconds or
more, and what is no number, is none. -/
def nanoseconds? (seconds : Float32) : Option Nat :=
  match Binary.ofSingle seconds with
  | .finite negative m e =>
    if negative then if m = 0 then some 0 else none
    else if 2 ^ 64 * 2 ^ (-e).toNat ≤ m * 2 ^ e.toNat then none
    else some (Binary.Format.divNearestEven (m * 10 ^ 9 * 2 ^ e.toNat) (2 ^ (-e).toNat))
  | _ => none

/-- The time in nanoseconds from which on a frame is slow. -/
def slowFrame? (s : Settings) : Option Nat := nanoseconds? (Single.max s.slowFrameSeconds 0)

/-- How many nanoseconds the device is left alone after a slow frame. -/
def cooldown? (s : Settings) : Option Nat := nanoseconds? (Single.max s.cooldownSeconds 0)

/-! ## Files -/

/-- Numbers of a settings file: positional from `1e-6` up to below `1e13`, a number between two
candidates goes to the even one, and what is not finite is `null`. -/
def numbers : Decimal.Layout where
  positionalFrom := -6
  positionalBelow := 13
  plusSign := true
  tie := .toEven
  signedZero := true
  infinity := "null"
  negativeInfinity := "null"
  nan := "null"

/-- The settings of a text, if it can be read. -/
def parse? (text : String) : Option Settings := Json.parse? text >>= Json.readRecord fields {}

/-- The settings of a file, `none` being a file that does not exist. -/
def load (contents : Option (List UInt8)) : Settings :=
  validated (((contents.bind Text.decode?).bind parse?).getD {})

/-- The text of a settings file. -/
def save (s : Settings) : String := Json.pretty numbers (.object (Json.writeRecord fields s))

/-- Whether two settings have the same values, zeros of both signs being the same. -/
def agrees (a b : Settings) : Bool :=
  a.maxDepth == b.maxDepth && a.samplingMode == b.samplingMode &&
    a.russianRouletteDepth == b.russianRouletteDepth && a.exposure == b.exposure &&
    a.tonemapping == b.tonemapping && a.outputChannel == b.outputChannel &&
    a.accumulate == b.accumulate && a.environmentExponent == b.environmentExponent &&
    a.collectStatistics == b.collectStatistics && a.slowFrameSeconds == b.slowFrameSeconds &&
    a.cooldownSeconds == b.cooldownSeconds

end Settings

end Candela
