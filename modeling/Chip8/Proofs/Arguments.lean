import Chip8.Command.RunRom
import Mathlib.Tactic.Lemma
/-!
# What the arguments of a run say

`RunRom.Takes` lists the arguments that are understood and what each of them asks for: two flags
with a path, three with a positive number, four switches, and a path on its own as long as no
program file has been named. `RunRom.Asks` goes through a list of them. A call is understood exactly
if its arguments are and a program file has been named in the end (`request_eq_ok_iff`).
-/

namespace Chip8.RunRom

variable {cwd : Path} {r r' : Request} {start text rest argument : String}

/-- What lies behind the start of a text can be told if and only if the text starts so. -/
lemma behind?_eq_some_iff : behind? start text = some rest ↔ text = start ++ rest := by
  rw [behind?]
  constructor
  · intro found
    split at found
    case isTrue starts =>
      obtain ⟨more, e⟩ := List.isPrefixOf_iff_prefix.1 starts
      rw [← e, List.drop_left, Option.some.injEq] at found
      rw [← String.toList_inj, String.toList_append, ← found, String.toList_ofList, e]
    case isFalse => cases found
  · rintro rfl
    simp

/-- What lies behind the start of a text is what was appended to it. -/
lemma behind?_append : behind? start (start ++ rest) = some rest := behind?_eq_some_iff.2 rfl

/-- Nothing lies behind a start that a text does not have. -/
lemma behind?_eq_none_iff : behind? start text = none ↔ ∀ rest, text ≠ start ++ rest := by
  rw [Option.eq_none_iff_forall_ne_some]
  exact forall_congr' fun rest => not_congr behind?_eq_some_iff

/-- Whether a text starts with a positive number. -/
def IsPositive (text : String) (q : Rat) : Prop :=
  Number.ofLeadingInteger text.toList = .finite q ∧ 1 ≤ q

/-- A text is read as a positive number if and only if it has the form of one. -/
lemma positive_eq_ok_iff {flag : String} {n : Number} :
    positive flag text = .ok n ↔ ∃ q, IsPositive text q ∧ n = .finite q := by
  rw [positive]
  constructor
  · intro read
    split at read
    case h_1 q e =>
      split at read
      case isTrue => cases read
      case isFalse large =>
        cases read
        exact ⟨q, ⟨e, Rat.not_lt.1 large⟩, rfl⟩
    case h_2 => cases read
  · rintro ⟨q, ⟨e, large⟩, rfl⟩
    rw [e]
    exact if_neg (Rat.not_lt.2 large)

/-- An argument with a number that is read changes what is asked for by that number. -/
lemma map_positive_eq_ok {flag : String} {change : Number → Request}
    (read : (positive flag text).map change = .ok r') :
    ∃ q, IsPositive text q ∧ r' = change (.finite q) := by
  cases number : positive flag text with
  | error e => rw [number] at read; cases read
  | ok n =>
    rw [number] at read
    obtain ⟨q, large, rfl⟩ := positive_eq_ok_iff.1 number
    exact ⟨q, large, (Except.ok.inj read).symm⟩

/-- The arguments that are understood, and what becomes of a request. -/
inductive Takes (cwd : Path) (r : Request) : String → Request → Prop where
  | program {path} : Takes cwd r ("--rom=" ++ path) { r with rom := path }
  | frames {text q} : IsPositive text q →
    Takes cwd r ("--frames=" ++ text) { r with frames := .finite q }
  | instructions {text q} : IsPositive text q →
    Takes cwd r ("--ipf=" ++ text) { r with instructionsPerFrame := some (.finite q) }
  | picture {path} : Takes cwd r ("--png=" ++ path) { r with picture := some (cwd.resolve path) }
  | scale {text q} : IsPositive text q →
    Takes cwd r ("--scale=" ++ text) { r with scale := .finite q }
  | lenient : Takes cwd r "--lenient" { r with lenient := true }
  | shift : Takes cwd r "--shift-vy"
    { r with dialect := { r.dialect with shiftReadsY := some true } }
  | transfer : Takes cwd r "--memory-increments-i"
    { r with dialect := { r.dialect with transferMovesIndex := some true } }
  | logic : Takes cwd r "--vf-reset"
    { r with dialect := { r.dialect with logicClearsFlag := some true } }
  | alone {path} : (∀ rest, path ≠ "-" ++ rest) → r.rom = "" →
    Takes cwd r path { r with rom := path }

/-- An argument that is read is one that is taken. -/
lemma Takes.of_readArgument (read : readArgument cwd r argument = .ok r') :
    Takes cwd r argument r' := by
  rw [readArgument] at read
  split at read
  case h_1 path e =>
    obtain rfl := behind?_eq_some_iff.1 e
    cases read
    exact .program
  split at read
  case h_1 text e =>
    obtain rfl := behind?_eq_some_iff.1 e
    obtain ⟨q, large, rfl⟩ := map_positive_eq_ok read
    exact .frames large
  split at read
  case h_1 text e =>
    obtain rfl := behind?_eq_some_iff.1 e
    obtain ⟨q, large, rfl⟩ := map_positive_eq_ok read
    exact .instructions large
  split at read
  case h_1 path e =>
    obtain rfl := behind?_eq_some_iff.1 e
    cases read
    exact .picture
  split at read
  case h_1 text e =>
    obtain rfl := behind?_eq_some_iff.1 e
    obtain ⟨q, large, rfl⟩ := map_positive_eq_ok read
    exact .scale large
  split at read
  case isTrue e =>
    subst e
    cases read
    exact .lenient
  split at read
  case isTrue e =>
    subst e
    cases read
    exact .shift
  split at read
  case isTrue e =>
    subst e
    cases read
    exact .transfer
  split at read
  case isTrue e =>
    subst e
    cases read
    exact .logic
  split at read
  case isTrue alone =>
    rw [Bool.and_eq_true, decide_eq_true_eq, Option.isNone_iff_eq_none] at alone
    cases read
    exact .alone (behind?_eq_none_iff.1 alone.1) alone.2
  case isFalse => cases read

/-- Without a dash at its start an argument does not start with a flag. -/
lemma behind?_of_bare (bare : ∀ rest, argument ≠ "-" ++ rest) (more : String) :
    behind? ("-" ++ more) argument = none :=
  behind?_eq_none_iff.2 fun rest e => bare (more ++ rest) (e.trans (String.append_assoc ..))

/-- What does not start with a dash is a program file, unless there is one already. -/
lemma readArgument_of_bare (bare : ∀ rest, argument ≠ "-" ++ rest) :
    readArgument cwd r argument =
      if r.rom = "" then .ok { r with rom := argument }
      else .error ("Unknown argument: " ++ argument) := by
  have dash : behind? "-" argument = none := behind?_of_bare bare ""
  have rom : behind? "--rom=" argument = none := behind?_of_bare bare "-rom="
  have frames : behind? "--frames=" argument = none := behind?_of_bare bare "-frames="
  have ipf : behind? "--ipf=" argument = none := behind?_of_bare bare "-ipf="
  have png : behind? "--png=" argument = none := behind?_of_bare bare "-png="
  have scale : behind? "--scale=" argument = none := behind?_of_bare bare "-scale="
  have lenient : argument ≠ "--lenient" := bare "-lenient"
  have shift : argument ≠ "--shift-vy" := bare "-shift-vy"
  have transfer : argument ≠ "--memory-increments-i" := bare "-memory-increments-i"
  have logic : argument ≠ "--vf-reset" := bare "-vf-reset"
  simp [readArgument, *]

/-- An argument that is taken is read. -/
lemma Takes.readArgument_eq (h : Takes cwd r argument r') :
    readArgument cwd r argument = .ok r' := by
  cases h with
  | program => simp only [readArgument, behind?_append]
  | picture => simp [readArgument, behind?]
  | lenient | shift | transfer | logic => simp [readArgument, behind?]
  | @frames text q large | @instructions text q large | @scale text q large =>
    have read (flag : String) : positive flag text = .ok (.finite q) :=
      positive_eq_ok_iff.2 ⟨q, large, rfl⟩
    simp [readArgument, behind?, read, Except.map]
  | alone bare missing => rw [readArgument_of_bare bare, if_pos missing]

/-- An argument is understood exactly if it is in the list. -/
lemma readArgument_eq_ok_iff : readArgument cwd r argument = .ok r' ↔ Takes cwd r argument r' :=
  ⟨.of_readArgument, Takes.readArgument_eq⟩

/-- What a list of arguments asks for, one after the other. -/
inductive Asks (cwd : Path) : Request → List String → Request → Prop where
  | nil {r : Request} : Asks cwd r [] r
  | cons {r r' r'' : Request} {argument : String} {rest : List String} :
    Takes cwd r argument r' →
    Asks cwd r' rest r'' →
    Asks cwd r (argument :: rest) r''

/-- There is only one way to take an argument. -/
lemma Takes.unique {r''} (first : Takes cwd r argument r') (second : Takes cwd r argument r'') :
    r' = r'' :=
  Except.ok.inj (first.readArgument_eq.symm.trans second.readArgument_eq)

/-- There is only one way to take some arguments. -/
lemma Asks.unique {arguments : List String} {r''} (first : Asks cwd r arguments r')
    (second : Asks cwd r arguments r'') : r' = r'' := by
  induction first with
  | nil => cases second; rfl
  | cons takes asks ih =>
    cases second with
    | cons takes' asks' =>
      obtain rfl := takes.unique takes'
      exact ih asks'

/-- Arguments are gone through in two parts. -/
lemma asks_append {before after : List String} {r''} :
    Asks cwd r (before ++ after) r'' ↔ ∃ r', Asks cwd r before r' ∧ Asks cwd r' after r'' := by
  induction before generalizing r with
  | nil =>
    constructor
    · exact fun asks => ⟨r, .nil, asks⟩
    · rintro ⟨r', ⟨⟩, asks⟩
      exact asks
  | cons argument rest ih =>
    constructor
    · rintro (_ | ⟨takes, asks⟩)
      obtain ⟨r', first, second⟩ := ih.1 asks
      exact ⟨r', .cons takes first, second⟩
    · rintro ⟨r', _ | ⟨takes, first⟩, second⟩
      exact .cons takes (ih.2 ⟨r', first, second⟩)

/-- Arguments that are understood leave the others to be read. -/
lemma Asks.readArguments_append {before after : List String} (h : Asks cwd r before r') :
    readArguments cwd r (before ++ after) = readArguments cwd r' after := by
  induction h with
  | nil => rfl
  | cons takes _ ih =>
    rw [List.cons_append, readArguments, takes.readArgument_eq]
    exact ih

/-- Arguments are read if and only if they are taken one by one and a program is named in the end.
-/
lemma readArguments_eq_ok_iff {arguments : List String} :
    readArguments cwd r arguments = .ok r' ↔ Asks cwd r arguments r' ∧ r'.rom ≠ "" := by
  induction arguments generalizing r with
  | nil =>
    rw [readArguments]
    constructor
    · intro read
      split at read
      case isTrue => cases read
      case isFalse named =>
        cases read
        exact ⟨.nil, named⟩
    · rintro ⟨asks, named⟩
      cases asks
      exact if_neg named
  | cons argument rest ih =>
    rw [readArguments]
    constructor
    · intro read
      cases taken : readArgument cwd r argument with
      | error e => rw [taken] at read; cases read
      | ok r₁ =>
        rw [taken] at read
        obtain ⟨asks, named⟩ := ih.1 read
        exact ⟨.cons (readArgument_eq_ok_iff.1 taken) asks, named⟩
    · rintro ⟨asks, named⟩
      cases asks with
      | cons takes asks =>
        rw [takes.readArgument_eq]
        exact ih.2 ⟨asks, named⟩

/-- What is asked for before any argument. -/
def Request.ofEnvironment (env : Environment) : Request :=
  { rom := (Environment.given env.rom).getD "" }

/-- A call is understood exactly if its arguments are and name a program file, unless the
environment has done so. -/
theorem request_eq_ok_iff {env : Environment} {arguments : List String} :
    request cwd env arguments = .ok r ↔ Asks cwd (.ofEnvironment env) arguments r ∧ r.rom ≠ "" :=
  readArguments_eq_ok_iff

end Chip8.RunRom
