import Chip8.Session
/-!
# Running a program to its end

A run plays frame after frame until the program faults, parks itself on a jump to its own address,
meets the caller's condition, or has had its frames. Key events are applied at the start of their
frame; the condition is asked after every frame that neither faulted nor ended on such a jump. A run
comes to nothing if it gets to a frame that has no end, or if it goes on for ever itself.
-/

namespace Chip8

/-- A key that goes down or up at the start of a frame. -/
structure KeyEvent where
  frame : Number
  index : Number
  down : Bool
deriving DecidableEq, Repr

/-- Why a run ended. -/
inductive RunEnd where
  | spinning
  | faulted (fault : Fault)
  | stopped
  | timeout
deriving DecidableEq, Repr

namespace RunEnd

/-- The word by which the end of a run is reported. -/
def reason : RunEnd → String
  | spinning => "halt"
  | faulted _ => "fault"
  | stopped => "stopped"
  | timeout => "timeout"

/-- The text of the fault, if there was one. -/
def message? : RunEnd → Option String
  | faulted fault => some fault.message
  | _ => none

end RunEnd

/-- How a run ended: why, after how many frames, in which state, the frame numbers at which the
condition was asked, and what could be seen. Of a run that goes on it is what a timeout would
report. -/
structure RunReport where
  ending : RunEnd
  frames : Nat
  session : Session
  checked : Array Nat
  observed : Observed

/-- How many instructions a run completed. -/
def RunReport.instructions (r : RunReport) : Nat := r.session.engine.executed

/-- What a run is given besides the program: the bound on the number of frames, the key events, and
the condition that ends it, which may find fault with what it is asked about. -/
structure RunPlan where
  maxFrames : Number
  events : List KeyEvent
  stopWhen : Option (Session → Nat → Except InputError Bool)

namespace Session

/-- Applies the events of a frame in their order. -/
def applyEvents (s : Session) (frame : Nat) : List KeyEvent → Except InputError Session
  | [] => .ok s
  | event :: rest =>
    if event.frame = .finite frame then
      match s.setKey event.index event.down with
      | (s', .ok ()) => s'.applyEvents frame rest
      | (_, .error e) => .error e
    else s.applyEvents frame rest

end Session

namespace RunReport

/-- The report with another frame in it, which left a session and let things be seen. -/
def extend (r : RunReport) (s : Session) (seen : Observed) : RunReport :=
  { r with
    frames := Number.counted (r.frames + 1)
    session := s
    observed := r.observed ++ seen }

/-- Whether a run goes on behind a frame that did not fail. -/
def afterFrame (plan : RunPlan) (r : RunReport) : Round RunReport (Except Error RunReport) :=
  match r.session.isSpinning with
  | .error fault => .done (.error (.machine fault))
  | .ok true => .done (.ok { r with ending := .spinning })
  | .ok false =>
    match plan.stopWhen with
    | none => .next r
    | some stop =>
      let asked := { r with checked := r.checked.push r.frames }
      match stop r.session r.frames with
      | .error e => .done (.error (.range e))
      | .ok true => .done (.ok { asked with ending := .stopped })
      | .ok false => .next asked

/-- Plays the next frame. -/
def playFrame (plan : RunPlan) (r : RunReport) :
    Option (Round RunReport (Except Error RunReport)) :=
  match r.session.applyEvents r.frames plan.events with
  | .error e => some (.done (.error (.range e)))
  | .ok s =>
    match s.frame with
    | none => none
    | some ⟨s, .error (.stopped fault), now⟩ =>
      some (.done (.ok { r.extend s now with ending := .faulted fault }))
    | some ⟨_, .error e, _⟩ => some (.done (.error e))
    | some ⟨s, .ok _, now⟩ => some ((r.extend s now).afterFrame plan)

end RunReport

namespace Session

/-- The frames of a run. -/
def playLoop (plan : RunPlan) : Loop RunReport (Except Error RunReport) where
  bound := plan.maxFrames
  body := fun _ r => r.playFrame plan
  finish := .ok

/-- Plays the frames of a run, if that has an end. -/
def play (s : Session) (plan : RunPlan) : Option (Except Error RunReport) :=
  (playLoop plan).run ⟨.timeout, 0, s, #[], .none⟩

end Session

/-- Runs a program from its start. -/
def runRom (settings : Settings) (tracing : Tracing) (random : RandomSource) (bytes : List UInt8)
    (plan : RunPlan) : Option (Except Error RunReport) :=
  match (Session.start settings tracing random).load bytes with
  | (_, .error e) => some (.error (.rom e))
  | (s, .ok ()) => s.play plan

end Chip8
