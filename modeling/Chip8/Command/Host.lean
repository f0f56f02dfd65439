import Chip8.Command.Path
import Chip8.Environment
import Chip8.Picture
import Chip8.Random
import Chip8.Rom
/-!
# What a program runs in

The surroundings of a command-line program: the current directory, what the file system holds, the
environment, the random numbers and the memory. A program is a function from these and its arguments
to a `Transcript`: the lines it prints, its exit code, and the files it writes. A call that goes on
for ever has none.
-/

namespace Chip8

/-- What a path leads to. -/
inductive Entry where
  | file (bytes : List UInt8)
  | directory
deriving DecidableEq, Repr

/-- The surroundings of a program, and how many bytes it has for a buffer. -/
structure Host where
  cwd : Path
  entry : Path → Option Entry
  environment : Environment
  random : RandomSource
  memory : Nat

/-- The two streams that lines go to. -/
inductive Stream where
  | out
  | err
deriving DecidableEq, Repr

/-- What a program writes to a file. -/
inductive Product where
  | picture (p : Picture)
  | bytes (content : List UInt8)

/-- The bytes of a file. -/
def Product.content : Product → List UInt8
  | picture p => p.encode
  | bytes content => content

/-- What a program did. -/
structure Transcript where
  lines : Array (Stream × String)
  code : Nat
  files : List (Path × Product)

namespace Transcript

/-- A program that has done nothing yet. -/
def empty : Transcript := ⟨#[], 0, []⟩

/-- Prints a line. -/
def print (t : Transcript) (stream : Stream) (line : String) : Transcript :=
  { t with lines := t.lines.push (stream, line) }

/-- Prints lines to the standard output. -/
def printAll (t : Transcript) (lines : Array String) : Transcript :=
  lines.foldl (fun t line => t.print .out line) t

/-- Ends the program with an exit code. -/
def exit (t : Transcript) (code : Nat) : Transcript := { t with code := code }

/-- Ends the program with an error that nothing has handled. -/
def fail (t : Transcript) (error : Error) : Transcript := (t.print .err error.report).exit 1

/-- Writes a file. -/
def write (t : Transcript) (path : Path) (product : Product) : Transcript :=
  { t with files := t.files ++ [(path, product)] }

end Transcript

namespace Host

/-- The greatest number of bytes in a name. -/
def nameLimit : Nat := 255

/-- The greatest number of bytes in a path. -/
def pathLimit : Nat := 4095

/-- Follows names from a directory. Each of them is looked up in the directory before it, so of
several things that are wrong on the way the first counts. -/
def followNames (h : Host) (directory : List String) : List String → Except SystemError Entry
  | [] => .ok .directory
  | name :: rest =>
    if nameLimit < name.utf8ByteSize then .error .nameTooLong
    else
      let place := directory ++ [name]
      match h.entry ⟨place⟩, rest with
      | none, _ => .error .noSuchFile
      | some .directory, _ => h.followNames place rest
      | some (.file bytes), [] => .ok (.file bytes)
      | some (.file _), _ :: _ => .error .notDirectory

/-- Whether the system takes a path at all: none that holds the NUL character, and none that is too
long. -/
def accept (p : Path) : Except SystemError Unit :=
  if p.hasNul then .error .nulInPath
  else if pathLimit < p.text.utf8ByteSize then .error .nameTooLong
  else .ok ()

/-- What a path leads to. -/
def find (h : Host) (p : Path) : Except SystemError Entry := do
  accept p
  h.followNames [] p.names

/-- The contents of the file at a path. -/
def readFile (h : Host) (p : Path) : Except SystemError (List UInt8) := do
  match ← h.find p with
  | .file bytes => return bytes
  | .directory => throw .isDirectory

/-- Makes the directories on the way from one directory to another, as far as they are missing. A
directory that is missing can be made unless its name is too long. -/
def makeNames (h : Host) (directory : List String) : List String → Except SystemError Unit
  | [] => .ok ()
  | name :: rest =>
    if nameLimit < name.utf8ByteSize then .error .nameTooLong
    else
      let place := directory ++ [name]
      match h.entry ⟨place⟩, rest with
      | some (.file _), [] => .error .alreadyExists
      | some (.file _), _ :: _ => .error .notDirectory
      | _, _ => h.makeNames place rest

/-- Makes the directories on the way to a path, as far as they are missing. -/
def makeParent (h : Host) (p : Path) : Except SystemError Unit := do
  accept p.parent
  h.makeNames [] p.parent.names

/-- Opens a path for writing, once the directories on the way are there. -/
def create (h : Host) (p : Path) : Except SystemError Unit := do
  accept p
  if p.names.getLast?.any (nameLimit < ·.utf8ByteSize) then throw .nameTooLong
  match h.entry p with
  | some .directory => throw .isDirectory
  | _ => return

/-- Reads a program image from the file that a text names. A file of an impossible size is refused
before anything is run. -/
def readRom (h : Host) (text : String) : Except Error (List UInt8) :=
  let path := h.cwd.resolve text
  match h.readFile path with
  | .error e => .error (.system e)
  | .ok bytes =>
    if bytes.length = 0 then .error (.rom (.fileEmpty path.text))
    else if Rom.maxSize < bytes.length then
      .error (.rom (.fileTooLarge path.text bytes.length))
    else .ok bytes

variable {h : Host} {text : String} {bytes : List UInt8}

/-- A file of a length between one byte and as many as fit is a program. -/
theorem readRom_of_fits (found : h.readFile (h.cwd.resolve text) = .ok bytes)
    (some_ : 1 ≤ bytes.length) (fits : bytes.length ≤ Rom.maxSize) :
    h.readRom text = .ok bytes := by
  simp only [readRom, found]
  rw [if_neg (by omega), if_neg (by omega)]

/-- A file of an impossible size is refused as a program, not by the system. -/
theorem readRom_of_misfit (found : h.readFile (h.cwd.resolve text) = .ok bytes)
    (misfit : bytes.length = 0 ∨ Rom.maxSize < bytes.length) :
    ∃ e, h.readRom text = .error (.rom e) := by
  simp only [readRom, found]
  by_cases none_ : bytes.length = 0
  · exact ⟨_, if_pos none_⟩
  · rw [if_neg none_, if_pos (misfit.resolve_left none_)]
    exact ⟨_, rfl⟩

/-- A file that cannot be read is refused with the error of the system. -/
theorem readRom_of_unread {e : SystemError} (lost : h.readFile (h.cwd.resolve text) = .error e) :
    h.readRom text = .error (.system e) := by
  simp only [readRom, lost]

end Host

end Chip8
