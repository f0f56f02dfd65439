import Chip8.Buffer
import Chip8.Command.Host
import Chip8.Session
import Chip8.Sound.PcmFile
import Chip8.Sound.SquareWave
/-!
# Rendering the tone of a program

Runs a program file for some seconds and stores what its tone sounds like. Every frame becomes a
block of samples, of the tone if the sound timer was running at the start of the frame and of
silence if not. A block ends at the multiple of the samples in a frame, rounded to a whole sample,
so that the blocks lie end to end whatever the sample rate. The arithmetic on frames and samples
takes the rounding of exact results as an argument; the program uses double precision.
-/

namespace Chip8.DumpWav

/-- What the arguments ask for. -/
structure Request where
  rom : String := ""
  seconds : Number := .finite 10
  sampleRate : Number := .finite 48000
  frequency : Number := .finite 440
  output : String := ""
deriving DecidableEq

/-- The line that shows how the program is called. -/
def usage : String :=
  "Usage: dump-wav <rom_path> [--seconds 10] [--sr 48000] [--freq 440] [--out out.wav]"

/-- The number in a flag's value, a standard one if there is no value, and not below a bound. -/
def valueOf (value : Option String) (standard : Nat) (bound : Rat) : Number :=
  match Environment.given value with
  | some text => (Number.ofWhole text).atLeast bound
  | none => (Number.finite standard).atLeast bound

/-- Takes arguments into account one after the other; a flag takes the argument behind it as its
value. -/
def readArguments (r : Request) : List String → Except String Request
  | [] => if r.rom = "" then .error "Missing rom_path" else .ok r
  | argument :: rest =>
    if argument = "--seconds" || argument = "-s" then
      readArguments { r with seconds := valueOf rest.head? 10 1 } rest.tail
    else if argument = "--sr" || argument = "--sample-rate" || argument = "-r" then
      readArguments { r with sampleRate := valueOf rest.head? 48000 8000 } rest.tail
    else if argument = "--freq" || argument = "-f" then
      readArguments { r with frequency := valueOf rest.head? 440 20 } rest.tail
    else if argument = "--out" || argument = "-o" then
      readArguments { r with output := rest.head?.getD "" } rest.tail
    else if argument.toList.head? = some '-' then .error ("Unknown flag: " ++ argument)
    else readArguments { r with rom := argument } rest
termination_by arguments => arguments.length
decreasing_by all_goals simp only [List.length_cons, List.length_tail]; omega

/-- What the arguments ask for. -/
def request : List String → Except String Request
  | [] => .error usage
  | arguments => readArguments {} arguments

/-- Where the sound is stored: where the request says, or under a name made of the program's name,
the sample rate and the seconds. -/
def Request.path (cwd : Path) (r : Request) : Path :=
  if r.output = "" then
    cwd.resolve ("out/" ++ Path.dropExtension (Path.lastName r.rom) ++ "_" ++ r.sampleRate.text ++
      "Hz_" ++ r.seconds.text ++ "s.wav")
  else cwd.resolve r.output

/-- How many frames and samples a sound has: the number of frames, the samples in a frame, and the
greatest number of samples. -/
structure Extent where
  frames : Number
  samplesPerFrame : Number
  samples : Number
deriving DecidableEq

/-- The extent of a sound of some seconds at a sample rate. -/
def Extent.of (round : Rat → Number) (seconds sampleRate : Number) : Extent :=
  let perSecond := Number.finite Settings.framesPerSecond
  let frames := seconds.mul round perSecond
  let samplesPerFrame := sampleRate.div round perSecond
  ⟨frames, samplesPerFrame, frames.mul round samplesPerFrame⟩

/-- The room that the samples of a sound need, which take four bytes each. -/
def Extent.room (e : Extent) : Except InputError Nat := Buffer.length 4 e.samples.roundedUp

/-- The sample at which the block of a frame ends. -/
def Extent.blockEnd (round : Rat → Number) (e : Extent) (room frame : Nat) : Nat :=
  match (Number.finite (Number.counted (frame + 1))).mul round e.samplesPerFrame with
  | .finite q => min room (Number.roundHalfUp q).toNat
  | .infinite negative => if negative then 0 else room
  | .nan => 0

/-- A sound in the making: the session and the tone, the samples so far, how many frames had the
tone, and what has been printed. -/
structure Rendering where
  session : Session
  wave : SquareWave
  samples : Array Sample
  tones : Nat
  transcript : Transcript

/-- Renders the frame of a number. -/
def renderFrame (round : Rat → Number) (e : Extent) (room frame : Nat) :
    Rendering → Option (Round Rendering (Rendering × Except Error Unit))
  | ⟨session, wave, samples, tones, transcript⟩ =>
    let active := session.isSounding
    let tones := if active then tones + 1 else tones
    let missing := e.blockEnd round room frame - samples.size
    match wave.fill samples missing active, session.frame with
    | _, none => none
    | (samples, wave), some ⟨session, result, seen⟩ =>
      let transcript := transcript.printAll seen.lines
      match result with
      | .ok _ => some (.next ⟨session, wave, samples, tones, transcript⟩)
      | .error (.stopped fault) =>
        let line := "Stopped at frame " ++ Number.intText frame ++ ": " ++ fault.message
        some (.done (⟨session, wave, samples, tones, transcript.print .err line⟩, .ok ()))
      | .error error => some (.done (⟨session, wave, samples, tones, transcript⟩, .error error))

/-- The frames of a sound. -/
def renderLoop (round : Rat → Number) (e : Extent) (room : Nat) :
    Loop Rendering (Rendering × Except Error Unit) where
  bound := e.frames
  body := renderFrame round e room
  finish := fun r => (r, .ok ())

/-- Renders a program from its start. -/
def render (round : Rat → Number) (e : Extent) (room : Nat) (session : Session)
    (wave : SquareWave) : Option (Rendering × Except Error Unit) :=
  (renderLoop round e room).run ⟨session, wave, #[], 0, .empty⟩

/-- The samples of a sound as numbers. -/
def toNumbers (samples : Array Sample) : List Number :=
  samples.toList.map Sample.number

/-- The contents of the sound file to be stored at a path, if it can be. -/
def soundFile (host : Host) (path : Path) (sampleRate : Number) (samples : Array Sample) :
    Except SystemError (List UInt8) := do
  host.makeParent path
  let bytes ← PcmFile.encode (toNumbers samples) sampleRate
  host.create path
  return bytes

/-- Stores a rendered sound and says so. -/
def store (host : Host) (path : Path) (sampleRate : Number) (r : Rendering) : Transcript :=
  match soundFile host path sampleRate r.samples with
  | .error e => r.transcript.fail (.system e)
  | .ok bytes =>
    let length := (Number.finite r.samples.size).div .binary64 sampleRate
    (r.transcript.write path (.bytes bytes)).print .out
      ("Wrote " ++ path.text ++ " (" ++ length.twoPlaces ++ "s, tone in " ++
        Number.intText r.tones ++ " frames)")

/-- The session and the tone that a request starts from, and the extent of its sound. -/
def prepare (host : Host) (r : Request) : Except Error (Session × SquareWave × Extent × Nat) := do
  let settings ← (Settings.resolve {} host.environment).mapError Error.range
  let tracing := Tracing.ofTexts host.environment.trace host.environment.traceWindow
  let bytes ← host.readRom r.rom
  let (session, loaded) := (Session.start settings tracing host.random).load bytes
  loaded.mapError Error.rom
  let wave ← (SquareWave.start r.sampleRate.toFloat r.frequency.toFloat
    SquareWave.standardVolume).mapError Error.range
  let extent := Extent.of .binary64 r.seconds r.sampleRate
  let room ← extent.room.mapError Error.range
  (Buffer.claim host.memory (4 * room)).mapError Error.range
  return (session, wave, extent, room)

/-- Does what a request asks for. -/
def perform (host : Host) (r : Request) : Option Transcript :=
  match prepare host r with
  | .error e => some (Transcript.empty.fail e)
  | .ok (session, wave, extent, room) =>
    match render .binary64 extent room session wave with
    | none => none
    | some (rendering, .error e) => some (rendering.transcript.fail e)
    | some (rendering, .ok ()) => some (store host (r.path host.cwd) r.sampleRate rendering)

/-- The program. -/
def run (host : Host) (arguments : List String) : Option Transcript :=
  match request arguments with
  | .error message => some ((Transcript.empty.print .err message).exit 1)
  | .ok r => perform host r

end Chip8.DumpWav
