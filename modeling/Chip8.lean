import Chip8.Keymap
import Chip8.Main
import Chip8.Proofs.Encoding
import Chip8.Proofs.Step
import Chip8.Proofs.View
import Chip8.Proofs.Table
import Chip8.Proofs.Faults
import Chip8.Proofs.Reachable
import Chip8.Proofs.Runs
import Chip8.Proofs.Waiting
import Chip8.Proofs.Spinning
import Chip8.Proofs.Latch
import Chip8.Proofs.KeyWait
import Chip8.Proofs.Invariants
import Chip8.Proofs.Reserved
import Chip8.Proofs.Stopping
import Chip8.Proofs.Lockstep
import Chip8.Proofs.Restart
import Chip8.Proofs.Policies
import Chip8.Proofs.Frames
import Chip8.Proofs.Prefix
import Chip8.Proofs.Calls
import Chip8.Proofs.Watching
import Chip8.Proofs.Contents
import Chip8.Proofs.Drawing
import Chip8.Proofs.Enlargement
import Chip8.Proofs.Overlay
import Chip8.Proofs.OffScreen
import Chip8.Proofs.TraceReport
import Chip8.Proofs.Arguments
import Chip8.Proofs.ExitCode
import Chip8.Proofs.Checksum
import Chip8.Proofs.Precedence
import Chip8.Proofs.Positional
import Chip8.Proofs.Budget
import Chip8.Proofs.Amounts
import Chip8.Proofs.Selection
import Chip8.Proofs.Cadence
import Chip8.Proofs.Octets
import Chip8.Proofs.Burst
import Chip8.Proofs.Period
import Chip8.Proofs.Hexadecimal
import Chip8.Proofs.BitErrors
import Chip8.Proofs.Overriding
import Chip8.Proofs.Completions
import Chip8.Proofs.Timers
import Chip8.Proofs.Randomness
import Chip8.Proofs.Dialects
import Chip8.Proofs.RoundTrip
import Chip8.Proofs.Disassembly
import Chip8.Proofs.Printing
import Chip8.Proofs.Tone
import Chip8.Proofs.Loading
import Chip8.Proofs.Tiling
import Chip8.Proofs.Riff
