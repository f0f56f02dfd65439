import Chip8.Command.TraceRom
import Chip8.Proofs.Amounts
/-!
# The program that is chosen

A run and a trace take their program from an argument, behind a flag or on its own, or else from
the environment. Flags for anything else leave the choice alone (`RunRom.exists_asks`,
`TraceRom.rom_readFlags`), so that it comes from the one argument that names a program, wherever
that stands. A path behind the flag is chosen by both, whatever the environment says. A path on its
own is chosen by a trace as well, but a run takes the environment's program for one that has been
named already, and refuses the path (`chooses_named`).
-/

namespace Chip8

/-- A program is named by the environment if its variable is not empty. -/
lemma Environment.getD_given_eq_empty_iff {value : Option String} :
    (given value).getD "" = "" ↔ given value = none := by
  rw [given]
  cases found : value.filter (· ≠ "") with
  | none => exact iff_of_true rfl rfl
  | some text =>
    have some_ : text ≠ "" := by simpa using (Option.filter_eq_some_iff.1 found).2
    exact iff_of_false some_ (Option.some_ne_none text)

namespace RunRom

variable {cwd : Path} {env : Environment} {r : Request} {argument path : String}
  {arguments before behind : List String}

/-- Whether a call is understood and chooses a program. -/
def Chooses (cwd : Path) (env : Environment) (arguments : List String) (path : String) : Prop :=
  ∃ r, request cwd env arguments = .ok r ∧ r.rom = path

/-- The flags that do not name a program, with the texts that they accept. -/
inductive IsFlag : String → Prop where
  | amount {a : Amount} {text : String} {q : Rat} : IsPositive text q → IsFlag (a.start ++ text)
  | picture {path : String} : IsFlag ("--png=" ++ path)
  | lenient : IsFlag "--lenient"
  | shift : IsFlag "--shift-vy"
  | transfer : IsFlag "--memory-increments-i"
  | logic : IsFlag "--vf-reset"

/-- A flag is taken without a change of the program. -/
lemma IsFlag.exists_takes (flag : IsFlag argument) (cwd : Path) (r : Request) :
    ∃ r', Takes cwd r argument r' ∧ r'.rom = r.rom := by
  cases flag with
  | @amount a text q positive =>
    obtain ⟨n, leads, some_, range, -⟩ := isPositive_iff.1 positive
    exact ⟨_, (takes_amount_iff a).2 ⟨n, leads, some_, range, rfl⟩, r.rom_set a _⟩
  | picture => exact ⟨_, .picture, rfl⟩
  | lenient => exact ⟨_, .lenient, rfl⟩
  | shift => exact ⟨_, .shift, rfl⟩
  | transfer => exact ⟨_, .transfer, rfl⟩
  | logic => exact ⟨_, .logic, rfl⟩

/-- Flags are understood and leave the program as it is. -/
lemma exists_asks (flags : ∀ argument ∈ arguments, IsFlag argument) (cwd : Path) (r : Request) :
    ∃ r', Asks cwd r arguments r' ∧ r'.rom = r.rom := by
  induction arguments generalizing r with
  | nil => exact ⟨r, .nil, rfl⟩
  | cons argument rest ih =>
    have flags := List.forall_mem_cons.1 flags
    obtain ⟨r₁, takes, same⟩ := flags.1.exists_takes cwd r
    obtain ⟨r₂, asks, same'⟩ := ih flags.2 r₁
    exact ⟨r₂, .cons takes asks, same'.trans same⟩

/-- Among flags an argument chooses a program if it names one. -/
lemma chooses_of_takes (flags : ∀ argument ∈ before ++ behind, IsFlag argument) (named : path ≠ "")
    (takes : ∀ r : Request, r.rom = (Environment.given env.rom).getD "" →
      Takes cwd r argument { r with rom := path }) :
    Chooses cwd env (before ++ argument :: behind) path := by
  obtain ⟨inFront, after⟩ := List.forall_mem_append.1 flags
  obtain ⟨r₁, first, same⟩ := exists_asks inFront cwd (.ofEnvironment env)
  obtain ⟨r₂, second, rfl⟩ := exists_asks after cwd { r₁ with rom := path }
  refine ⟨r₂, request_eq_ok_iff.2 ⟨asks_append.2 ⟨r₁, first, ?_⟩, named⟩, rfl⟩
  exact .cons (takes r₁ same) second

/-- A path on its own is refused when the environment names a program, among flags too. -/
lemma request_of_bare (flags : ∀ argument ∈ before, IsFlag argument)
    (bare : ∀ rest, path ≠ "-" ++ rest) (given : Environment.given env.rom ≠ none) :
    request cwd env (before ++ path :: behind) = .error ("Unknown argument: " ++ path) := by
  obtain ⟨r, asks, same⟩ := exists_asks flags cwd (.ofEnvironment env)
  have named : r.rom ≠ "" := fun empty =>
    given (Environment.getD_given_eq_empty_iff.1 (same.symm.trans empty))
  change readArguments cwd (.ofEnvironment env) _ = _
  rw [asks.readArguments_append, readArguments, readArgument_of_bare bare, if_neg named]
  rfl

/-- A path on its own is chosen exactly if the environment names no program. -/
lemma chooses_bare_iff (flags : ∀ argument ∈ before ++ behind, IsFlag argument)
    (named : path ≠ "") (bare : ∀ rest, path ≠ "-" ++ rest) :
    Chooses cwd env (before ++ path :: behind) path ↔ Environment.given env.rom = none := by
  constructor
  · rintro ⟨r, asked, -⟩
    by_contra given
    cases (request_of_bare (List.forall_mem_append.1 flags).1 bare given).symm.trans asked
  · intro free
    refine chooses_of_takes flags named fun r same => .alone bare ?_
    rw [same, free]
    rfl

end RunRom

namespace TraceRom

variable {env : Environment} {r : Request} {argument path : String}
  {arguments before behind : List String}

/-- Whether a call names a program, which is then the one that is traced. -/
def Chooses (env : Environment) (arguments : List String) (path : String) : Prop :=
  (request env arguments).rom = path ∧ path ≠ ""

/-- The flags that do not name a program, whether or not they are known. -/
def IsFlag (argument : String) : Prop :=
  (∃ rest, argument = "-" ++ rest) ∧ ∀ path, argument ≠ "--rom=" ++ path

/-- An argument is a flag if it starts with a dash and does not name a program. -/
lemma isFlag_iff : IsFlag argument ↔
    (RunRom.behind? "-" argument).isSome ∧ RunRom.behind? "--rom=" argument = none := by
  simp only [Option.isSome_iff_exists, RunRom.behind?_eq_some_iff, RunRom.behind?_eq_none_iff]
  rfl

/-- A flag does not change the program. -/
lemma rom_readFlag (flag : IsFlag argument) : (readArgument r argument).rom = r.rom := by
  obtain ⟨⟨rest, rfl⟩, other⟩ := flag
  rw [readArgument, RunRom.behind?_eq_none_iff.2 other, RunRom.behind?_append]
  simp only [Option.isNone_some, Bool.false_eq_true, if_false]
  split
  · rfl
  · split <;> rfl

/-- Flags leave the program as it is. -/
lemma rom_readFlags (flags : ∀ argument ∈ arguments, IsFlag argument) :
    (arguments.foldl readArgument r).rom = r.rom := by
  induction arguments generalizing r with
  | nil => rfl
  | cons argument rest ih =>
    have flags := List.forall_mem_cons.1 flags
    exact (ih flags.2).trans (rom_readFlag flags.1)

/-- An argument that names a program sets it. -/
lemma rom_readArgument_program (r : Request) (path : String) :
    (readArgument r ("--rom=" ++ path)).rom = path := by
  rw [readArgument, RunRom.behind?_append]

/-- A bare argument sets the program. -/
lemma rom_readArgument_bare (bare : ∀ rest, path ≠ "-" ++ rest) (r : Request) :
    (readArgument r path).rom = path := by
  have dash : RunRom.behind? "-" path = none := RunRom.behind?_of_bare bare ""
  have rom : RunRom.behind? "--rom=" path = none := RunRom.behind?_of_bare bare "-rom="
  have limit : RunRom.behind? "--max=" path = none := RunRom.behind?_of_bare bare "-max="
  have listing : path ≠ "--listing" := bare "-listing"
  simp [readArgument, *]

/-- What names a program is chosen, unless another program is named behind it. -/
lemma chooses_of_rom (flags : ∀ argument ∈ behind, IsFlag argument) (named : path ≠ "")
    (names : ∀ r, (readArgument r argument).rom = path) :
    Chooses env (before ++ argument :: behind) path := by
  refine ⟨?_, named⟩
  rw [request, List.foldl_append, List.foldl_cons, rom_readFlags flags]
  exact names _

end TraceRom

/-- What is a flag to a run is passed over by a trace. -/
lemma RunRom.IsFlag.passed {argument : String} (flag : RunRom.IsFlag argument) :
    TraceRom.IsFlag argument := by
  rw [TraceRom.isFlag_iff]
  cases flag with
  | @amount a text => cases a <;> simp [behind?, Amount.start, Amount.flag]
  | picture => simp [behind?]
  | lenient | shift | transfer | logic => decide

/-- A path that stands in an argument beside flags is chosen by a run and by a trace if it stands
behind the flag for it, whatever the environment says. On its own it is chosen by a trace in any
case, but by a run only if the environment names no program; otherwise the run refuses it. What is a
flag to a run is one to a trace, so that both can be given the same arguments. -/
theorem chooses_named {path : String} (named : path ≠ "") (bare : ∀ rest, path ≠ "-" ++ rest)
    (cwd : Path) (env : Environment) (before behind : List String) :
    ((∀ argument ∈ before ++ behind, RunRom.IsFlag argument) →
      RunRom.Chooses cwd env (before ++ ("--rom=" ++ path) :: behind) path ∧
      (RunRom.Chooses cwd env (before ++ path :: behind) path ↔
        Environment.given env.rom = none) ∧
      (Environment.given env.rom ≠ none →
        RunRom.request cwd env (before ++ path :: behind) =
          .error ("Unknown argument: " ++ path))) ∧
    ((∀ argument ∈ before ++ behind, TraceRom.IsFlag argument) →
      TraceRom.Chooses env (before ++ ("--rom=" ++ path) :: behind) path ∧
      TraceRom.Chooses env (before ++ path :: behind) path) ∧
    ∀ argument, RunRom.IsFlag argument → TraceRom.IsFlag argument := by
  refine ⟨fun flags => ⟨?_, RunRom.chooses_bare_iff flags named bare, fun given => ?_⟩,
    fun flags => ⟨?_, ?_⟩, fun argument flag => flag.passed⟩
  · exact RunRom.chooses_of_takes flags named fun r _ => .program
  · exact RunRom.request_of_bare (List.forall_mem_append.1 flags).1 bare given
  · have after := (List.forall_mem_append.1 flags).2
    exact TraceRom.chooses_of_rom after named (TraceRom.rom_readArgument_program · path)
  · have after := (List.forall_mem_append.1 flags).2
    exact TraceRom.chooses_of_rom after named (TraceRom.rom_readArgument_bare bare)

/-- With another program in the environment, a path behind the flag is chosen by a run, and a path
on its own by a trace. -/
theorem chooses_named_given :
    let env : Environment := { rom := some "other.ch8" }
    RunRom.Chooses ⟨[]⟩ env ["--lenient", "--rom=game.ch8"] "game.ch8" ∧
      TraceRom.Chooses env ["--lenient", "game.ch8"] "game.ch8" := by
  intro env
  have bare : ∀ rest, "game.ch8" ≠ "-" ++ rest := RunRom.behind?_eq_none_iff.1 (by decide)
  have flags : ∀ argument ∈ ["--lenient"] ++ [], RunRom.IsFlag argument :=
    List.forall_mem_singleton.2 .lenient
  obtain ⟨run, trace, passed⟩ := chooses_named (by decide) bare ⟨[]⟩ env ["--lenient"] []
  exact ⟨(run flags).1, (trace fun argument member => passed _ (flags _ member)).2⟩

/-- But a run refuses a path on its own then. -/
theorem not_chooses_given :
    let env : Environment := { rom := some "other.ch8" }
    RunRom.request ⟨[]⟩ env ["game.ch8"] = .error "Unknown argument: game.ch8" ∧
      ¬ RunRom.Chooses ⟨[]⟩ env ["game.ch8"] "game.ch8" := by
  have refused : RunRom.request ⟨[]⟩ { rom := some "other.ch8" } ["game.ch8"] =
      .error "Unknown argument: game.ch8" := by
    decide
  refine ⟨refused, ?_⟩
  rintro ⟨r, asked, -⟩
  cases refused.symm.trans asked

end Chip8
