import Chip8.Command.DumpWav
import Chip8.Command.RunRom
import Chip8.Command.TraceRom
/-!
# The command line

`chip8 run-rom`, `chip8 trace-rom` and `chip8 dump-wav`. The programs themselves are pure; here
their surroundings are read from the system and their transcripts are carried out.
-/

namespace Chip8.CommandLine

/-- A program: the paths that it may look at, given the directory, the environment and the
arguments, and what it does if it has an end. -/
structure Program where
  paths : Path → Environment → List String → List Path
  run : Host → List String → Option Transcript

/-- The programs by name. -/
def program? : String → Option Program
  | "run-rom" => some {
      paths := fun cwd env arguments => match RunRom.request cwd env arguments with
        | .ok r => cwd.resolve r.rom :: r.picture.toList
        | .error _ => []
      run := RunRom.run }
  | "trace-rom" => some {
      paths := fun cwd env arguments => [cwd.resolve (TraceRom.request env arguments).rom]
      run := TraceRom.run }
  | "dump-wav" => some {
      paths := fun cwd _ arguments => match DumpWav.request arguments with
        | .ok r => [cwd.resolve r.rom, r.path cwd]
        | .error _ => []
      run := DumpWav.run }
  | _ => none

/-- A path and all directories on the way to it. -/
def waypoints (p : Path) : List Path :=
  (List.range (p.names.length + 1)).map fun n => ⟨p.names.take n⟩

/-- What a path leads to in the file system. -/
def readEntry (p : Path) : IO (Option Entry) := do
  let place := (← IO.currentDir) / p.text
  if ← place.isDir then return some .directory
  else if ← place.pathExists then return some (.file (← IO.FS.readBinFile place).data.toList)
  else return none

/-- The environment of the process. -/
def readEnvironment : IO Environment := do
  let values ← Environment.names.mapM fun name => do return (name, ← IO.getEnv name)
  return .ofLookup fun name => (values.lookup name).join

/-- A stream of bytes that a seed determines. -/
def seeded (seed : UInt64) : RandomSource :=
  ⟨fun k => (mixHash seed k.toUInt64).toUInt8, 0⟩

/-- How many bytes a program has for a buffer. -/
def memory : Nat := 34359738368

/-- The surroundings of a program that is called with some arguments. -/
def readHost (program : Program) (arguments : List String) : IO Host := do
  let cwd := Path.resolve ⟨[]⟩ (toString (← IO.currentDir))
  let environment ← readEnvironment
  let places := (program.paths cwd environment arguments).flatMap waypoints
  let entries ← places.mapM fun p => do return (p, ← readEntry p)
  let seed ← IO.rand 0 0xFFFFFFFFFFFFFFFF
  return {
    cwd, environment, memory
    entry := fun p => (entries.lookup p).join
    random := seeded seed.toUInt64 }

/-- Carries out what a program did. -/
def perform (t : Transcript) : IO UInt32 := do
  for (path, product) in t.files do
    IO.FS.createDirAll path.parent.text
    IO.FS.writeBinFile path.text ⟨product.content.toArray⟩
  for (stream, line) in t.lines do
    match stream with
    | .out => IO.println line
    | .err => IO.eprintln line
  return t.code.toUInt32

end Chip8.CommandLine

open Chip8.CommandLine in
/-- Runs the program that the first argument names on the other arguments. -/
def main (arguments : List String) : IO UInt32 := do
  match arguments with
  | name :: rest =>
    match program? name with
    | some program =>
      -- A program that goes on for ever is never done here either.
      match program.run (← readHost program rest) rest with
      | some transcript => perform transcript
      | none => return 1
    | none =>
      IO.eprintln ("Unknown program: " ++ name)
      return 2
  | [] =>
    IO.eprintln "Usage: chip8 (run-rom | trace-rom | dump-wav) [arguments]"
    return 2
