import Chip8.Fault
import Chip8.Sound.Sample
/-!
# The tone

A square wave, sampled. Its phase runs from zero to one in every period and is kept from block to
block; a silent block holds it. In the first half of a period, its end included, the sample is that
of the volume, and in the rest that sample turned over.
-/

namespace Chip8

/-- A tone in progress: samples per second, what a sample adds to the phase, the phase, and the
sample of the first half of a period. -/
structure SquareWave where
  sampleRate : Float
  phaseStep : Float
  phase : Float
  level : Sample

namespace SquareWave

/-- The pitch of the tone unless a caller chooses another. -/
def standardFrequency : Float := 440.0

/-- The amplitude of the tone unless a caller chooses another. -/
def standardVolume : Float := 0.05

/-- A tone at its beginning. The sample rate has to be positive. -/
def start (sampleRate frequency volume : Float) : Except InputError SquareWave :=
  if 0.0 < sampleRate then .ok ⟨sampleRate, frequency / sampleRate, 0.0, .ofFloat volume⟩
  else .error (.sampleRate (Number.ofFloat sampleRate))

/-- A number less its whole part, with the sign of the number. -/
def fraction (x : Float) : Float :=
  if -1.0 < x && x < 1.0 then x else ((Number.ofFloat x).remainder 1).toFloat

/-- The sample at the current phase. -/
def sample (w : SquareWave) : Sample :=
  if w.phase ≤ 0.5 then w.level else w.level.negate

/-- The tone a sample later. -/
def advance (w : SquareWave) : SquareWave :=
  { w with phase := fraction (w.phase + w.phaseStep) }

/-- Appends samples of the tone to a sound. -/
def appendTo (w : SquareWave) (sound : Array Sample) : Nat → Array Sample × SquareWave
  | 0 => (sound, w)
  | n + 1 => w.advance.appendTo (sound.push w.sample) n

/-- Appends a block, of the tone if it is active and of silence if not. -/
def fill (w : SquareWave) (sound : Array Sample) (n : Nat) (active : Bool) :
    Array Sample × SquareWave :=
  if active then w.appendTo sound n else (sound ++ Array.replicate n .silence, w)

/-- The tone back at its beginning. -/
def reset (w : SquareWave) : SquareWave := { w with phase := 0.0 }

end SquareWave

end Chip8
