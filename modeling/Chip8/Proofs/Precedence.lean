import Chip8.Proofs.Numerals
/-!
# Precedence of settings

Settings come from options, from the environment and from defaults. `Settings.Decided` says how a
single one of them does, and `Settings.WellFormed` what has to be in order for there to be any.
Of a list of names each entry turns on its flag or is refused (`addEntries_cons`), so that lists
that are joined make the union of what they make by themselves (`ofList_append`). The main result is
`resolve_decides`.
-/

namespace Chip8

/-- Two parts succeed if and only if the first does and then the second. -/
lemma bind_eq_ok_iff {ε α β : Type} {first : Except ε α} {next : α → Except ε β} {b : β} :
    (first >>= next) = .ok b ↔ ∃ a, first = .ok a ∧ next a = .ok b := by
  cases first <;> simp [bind, Except.bind]

namespace Dialect

/-- The flags of a dialect. -/
inductive Flag where
  | shiftReadsY
  | transferMovesIndex
  | logicClearsFlag
deriving DecidableEq

/-- The name of a flag in a list of names. -/
def Flag.name : Flag → String
  | shiftReadsY => "shift-vy"
  | transferMovesIndex => "memory-increments-i"
  | logicClearsFlag => "vf-reset"

/-- A flag has some name. -/
lemma Flag.name_ne_empty (f : Flag) : f.name ≠ "" := by
  cases f <;> decide

/-- Flags with the same name are the same. -/
lemma Flag.name_inj {f g : Flag} : f.name = g.name ↔ f = g := by
  cases f <;> cases g <;> decide

/-- Whether a flag of a dialect is on. -/
def flag (d : Dialect) : Flag → Bool
  | .shiftReadsY => d.shiftReadsY
  | .transferMovesIndex => d.transferMovesIndex
  | .logicClearsFlag => d.logicClearsFlag

end Dialect

open Dialect (Flag)

namespace DialectChoice

variable {a b c c' : DialectChoice} {entry : List Char} {entries : List (List Char)} {f g : Flag}
  {word : String}

/-- What a choice says of a flag. -/
def flag (c : DialectChoice) : Flag → Option Bool
  | .shiftReadsY => c.shiftReadsY
  | .transferMovesIndex => c.transferMovesIndex
  | .logicClearsFlag => c.logicClearsFlag

/-- The flags of two choices, those of the second where both have one. -/
def union (a b : DialectChoice) : DialectChoice where
  shiftReadsY := b.shiftReadsY.or a.shiftReadsY
  transferMovesIndex := b.transferMovesIndex.or a.transferMovesIndex
  logicClearsFlag := b.logicClearsFlag.or a.logicClearsFlag

/-- A choice with a flag turned on. -/
def turnOn (c : DialectChoice) : Flag → DialectChoice
  | .shiftReadsY => { c with shiftReadsY := some true }
  | .transferMovesIndex => { c with transferMovesIndex := some true }
  | .logicClearsFlag => { c with logicClearsFlag := some true }

/-- It does not matter how choices are joined. -/
lemma union_assoc (a b c : DialectChoice) : (a.union b).union c = a.union (b.union c) := by
  simp only [union, Option.or_assoc]

/-- Turning on a flag joins the choice of that flag. -/
lemma turnOn_eq_union (c : DialectChoice) (f : Flag) :
    c.turnOn f = c.union (({} : DialectChoice).turnOn f) := by
  cases f <;> rfl

/-- Turning on a flag changes what is said of it, and of no other. -/
lemma flag_turnOn (c : DialectChoice) (f g : Flag) :
    (c.turnOn f).flag g = if f = g then some true else c.flag g := by
  cases f <;> cases g <;> rfl

/-- A flag of a dialect is as chosen, and as before where nothing is. -/
lemma flag_applyTo (c : DialectChoice) (base : Dialect) (f : Flag) :
    (c.applyTo base).flag f = (c.flag f).getD (base.flag f) := by
  cases f <;> rfl

/-- The name of a flag turns it on. -/
lemma turnOn?_name (c : DialectChoice) (f : Flag) : c.turnOn? f.name = some (c.turnOn f) := by
  cases f <;> rfl

/-- Other names turn nothing on. -/
lemma turnOn?_of_ne {name : String} (other : ∀ f : Flag, name ≠ f.name) :
    c.turnOn? name = none := by
  rw [turnOn?]
  exact (if_neg (other .shiftReadsY)).trans <| (if_neg (other .transferMovesIndex)).trans <|
    if_neg (other .logicClearsFlag)

/-- An entry is a word of plain characters if it writes that word. -/
lemma entryName_eq_iff (plain : ∀ d ∈ word.toList, Text.IsPlain d) :
    entryName entry = word ↔ Text.Writes entry word := by
  rw [← Text.lowerChars_trimChars_eq_iff plain, entryName, ← String.toList_inj,
    String.toList_ofList]

/-- An entry is empty if it writes nothing. -/
lemma entryName_eq_empty_iff : entryName entry = "" ↔ Text.Writes entry "" :=
  entryName_eq_iff (Text.forall_isPlain (by decide))

/-- An entry is the name of a flag if it writes that name. -/
lemma entryName_eq_name_iff : entryName entry = f.name ↔ Text.Writes entry f.name :=
  entryName_eq_iff (Text.forall_isPlain (by cases f <;> decide))

/-- An entry is passed over, or turns on the flag that it names, or is refused. -/
lemma addEntries_cons (entry : List Char) (rest : List (List Char)) :
    (entryName entry = "" ∧ ∀ c : DialectChoice, c.addEntries (entry :: rest) = c.addEntries rest) ∨
    (∃ f : Flag, entryName entry = f.name ∧
      ∀ c : DialectChoice, c.addEntries (entry :: rest) = (c.turnOn f).addEntries rest) ∨
    (entryName entry ≠ "" ∧ (∀ f : Flag, entryName entry ≠ f.name) ∧
      ∀ c : DialectChoice,
        c.addEntries (entry :: rest) = .error (.unknownName (entryName entry))) := by
  simp only [addEntries]
  by_cases blank : entryName entry = ""
  · exact .inl ⟨blank, fun c => if_pos blank⟩
  by_cases known : ∃ f : Flag, entryName entry = f.name
  · obtain ⟨f, name⟩ := known
    refine .inr (.inl ⟨f, name, fun c => ?_⟩)
    rw [if_neg blank, name, turnOn?_name]
  · rw [not_exists] at known
    refine .inr (.inr ⟨blank, known, fun c => ?_⟩)
    rw [if_neg blank, turnOn?_of_ne known]

/-- Entries are accepted if each of them is blank or names a flag. -/
lemma exists_addEntries_iff : (∃ c', c.addEntries entries = .ok c') ↔
    ∀ entry ∈ entries, entryName entry = "" ∨ ∃ f : Flag, entryName entry = f.name := by
  induction entries generalizing c with
  | nil => exact iff_of_true ⟨c, rfl⟩ nofun
  | cons entry rest ih =>
    rw [List.forall_mem_cons]
    obtain ⟨blank, same⟩ | ⟨f, name, same⟩ | ⟨visible, other, same⟩ := addEntries_cons entry rest
    · rw [same, ih, and_iff_right (.inl blank)]
    · rw [same, ih, and_iff_right (.inr ⟨f, name⟩)]
    · rw [same]
      refine iff_of_false nofun fun ⟨known, _⟩ => ?_
      obtain blank | ⟨f, name⟩ := known
      · exact visible blank
      · exact other f name

/-- Entries turn on the flags that they name, and leave the others. -/
lemma flag_of_addEntries (done : c.addEntries entries = .ok c') (f : Flag) :
    c'.flag f = if ∃ entry ∈ entries, entryName entry = f.name then some true else c.flag f := by
  induction entries generalizing c with
  | nil =>
    cases done
    exact (if_neg nofun).symm
  | cons entry rest ih =>
    simp only [List.mem_cons, exists_eq_or_imp]
    obtain ⟨blank, same⟩ | ⟨g, name, same⟩ | ⟨visible, other, same⟩ := addEntries_cons entry rest
    · rw [same] at done
      simp only [ih done, blank, f.name_ne_empty.symm, false_or]
    · rw [same] at done
      simp only [ih done, name, Flag.name_inj, flag_turnOn]
      by_cases found : g = f <;> simp [found]
    · rw [same] at done
      cases done

/-- Entries do to a choice what they do to the empty one, whatever has been chosen before. -/
lemma addEntries_eq_union (c : DialectChoice) (entries : List (List Char)) :
    c.addEntries entries = c.union <$> ({} : DialectChoice).addEntries entries := by
  induction entries generalizing c with
  | nil => rfl
  | cons entry rest ih =>
    obtain ⟨-, same⟩ | ⟨f, -, same⟩ | ⟨-, -, same⟩ := addEntries_cons entry rest
    · rw [same, same, ih]
    · rw [same, same, ih, ih (({} : DialectChoice).turnOn f), turnOn_eq_union]
      cases ({} : DialectChoice).addEntries rest with
      | error => rfl
      | ok => exact congrArg Except.ok (union_assoc _ _ _)
    · rw [same, same]
      rfl

/-- Entries are added one part after the other. -/
lemma addEntries_append (c : DialectChoice) (before behind : List (List Char)) :
    c.addEntries (before ++ behind) = c.addEntries before >>= (·.addEntries behind) := by
  induction before generalizing c with
  | nil => rfl
  | cons entry rest ih =>
    simp only [List.cons_append, addEntries]
    split
    · exact ih c
    · cases c.turnOn? (entryName entry) with
      | none => rfl
      | some c' => exact ih c'

/-- Whether one of the entries of a list, between commas, is a word. -/
def Lists (list word : String) : Prop :=
  ∃ entry, Text.IsField ',' list.toList entry ∧ Text.Writes entry word

/-- Whether all entries of a list that are not blank are names of flags. -/
def IsNames (list : String) : Prop :=
  ∀ entry, Text.IsField ',' list.toList entry →
    Text.Writes entry "" ∨ ∃ f : Flag, Text.Writes entry f.name

/-- A list is read if and only if all of its entries are names. -/
lemma exists_ofList_iff {list : String} : (∃ c, ofList list = .ok c) ↔ IsNames list := by
  simp only [ofList, exists_addEntries_iff, Text.mem_fields_iff, entryName_eq_empty_iff,
    entryName_eq_name_iff, IsNames]

/-- A flag is on if and only if the list has it. -/
lemma flag_ofList {list : String} (made : ofList list = .ok c) (f : Flag) :
    ((c.flag f).getD false = true) ↔ Lists list f.name := by
  have listed : (∃ entry ∈ Text.fields ',' list.toList, entryName entry = f.name) ↔
      Lists list f.name := by
    simp only [Text.mem_fields_iff, entryName_eq_name_iff, Lists]
  rw [flag_of_addEntries made, ← listed]
  split
  case isTrue found => exact iff_of_true rfl found
  case isFalse missing => exact iff_of_false (by cases f <;> nofun) missing

/-- A list of two parts makes the choice of the one and of the other. -/
lemma ofList_append (first second : String) :
    ofList (first ++ "," ++ second) = do
      let a ← ofList first
      let b ← ofList second
      return a.union b := by
  have parts : Text.fields ',' (first ++ "," ++ second).toList =
      Text.fields ',' first.toList ++ Text.fields ',' second.toList := by
    rw [String.toList_append, String.toList_append, List.append_assoc]
    exact Text.fields_append_sep ',' _ _
  rw [ofList, parts, addEntries_append]
  refine bind_congr fun a => ?_
  exact addEntries_eq_union a _

end DialectChoice

/-- The word for what happens at unknown words. -/
def UnknownPolicy.word : UnknownPolicy → String
  | strict => "strict"
  | lenient => "lenient"

namespace Settings

variable {α : Type} {options : Options} {env : Environment} {settings : Settings}

/-- How a setting comes from an option, or else from a variable that is not empty, or else from a
default. -/
inductive Decided (option : Option α) (value : Option String) (Reads : String → α → Prop)
    (default : α) : α → Prop where
  | ofOption {a : α} : option = some a → Decided option value Reads default a
  | ofVariable {text : String} {a : α} : option = none → Environment.given value = some text →
    Reads text a → Decided option value Reads default a
  | byDefault : option = none → Environment.given value = none →
    Decided option value Reads default default

/-- Whether a text is the numeral of a positive number. -/
def IsBudget (text : String) : Prop := ∃ n, Number.Denotes text n ∧ 0 < n

/-- Whether the option that is read from a text, and the variables that are not empty, can be
understood. -/
structure WellFormed (options : Options) (env : Environment) : Prop where
  option : ∀ n, options.instructionsPerFrame = some n → IsBudget n.text
  budget : ∀ text, Environment.given env.instructionsPerFrame = some text → IsBudget text
  policy : ∀ text, Environment.given env.unknownOpcodes = some text →
    ∃ policy : UnknownPolicy, Text.Writes text.toList policy.word
  dialect : ∀ text, Environment.given env.dialect = some text → DialectChoice.IsNames text

/-- A policy is read if and only if the text writes its word. -/
lemma readPolicy_eq_ok_iff {text : String} {policy : UnknownPolicy} :
    readPolicy text = .ok policy ↔ Text.Writes text.toList policy.word := by
  rw [← Text.lower_trim_eq_iff (Text.forall_isPlain (by cases policy <;> decide)), readPolicy]
  split
  case h_1 strict =>
    rw [strict]
    cases policy <;> decide
  case h_2 lenient =>
    rw [lenient]
    cases policy <;> decide
  case h_3 first second =>
    refine iff_of_false nofun ?_
    cases policy
    · exact first
    · exact second

/-- A budget is read if and only if the text is one. -/
lemma exists_readBudget_iff {source text : String} :
    (∃ n, readBudget source text = .ok n) ↔ IsBudget text := by
  simp only [readBudget_eq_ok_iff]
  exact ⟨fun ⟨_, n, numeral, positive, _⟩ => ⟨n, numeral, positive⟩,
    fun ⟨n, numeral, positive⟩ => ⟨_, n, numeral, positive, rfl⟩⟩

/-- The value that a variable gives to a setting. -/
def lookUp (value : Option String) (read : String → Except InputError α) (default : α) :
    Except InputError α :=
  match Environment.given value with
  | some text => read text
  | none => pure default

/-- A value is read if it is given, and is the default if not. -/
lemma lookUp_eq_ok_iff {value : Option String} {read : String → Except InputError α}
    {default a : α} : lookUp value read default = .ok a ↔
      (∃ text, Environment.given value = some text ∧ read text = .ok a) ∨
        Environment.given value = none ∧ a = default := by
  rw [lookUp]
  cases Environment.given value with
  | none => simp [pure, Except.pure, eq_comm]
  | some text => simp

/-- A value can be had if and only if it can be read where it is given. -/
lemma exists_lookUp_iff {value : Option String} {read : String → Except InputError α}
    {default : α} : (∃ a, lookUp value read default = .ok a) ↔
      ∀ text, Environment.given value = some text → ∃ a, read text = .ok a := by
  rw [lookUp]
  cases Environment.given value with
  | none => simp [pure, Except.pure]
  | some text => simp

/-- The settings of an environment are looked up one by one. -/
lemma ofEnvironment_eq (env : Environment) :
    ofEnvironment env = do
      let budget ← lookUp env.instructionsPerFrame (readBudget "CHIP8_IPF") (.finite 10)
      let policy ← lookUp env.unknownOpcodes readPolicy .strict
      let dialect ←
        lookUp env.dialect (fun text => (·.applyTo {}) <$> DialectChoice.ofList text) {}
      return ⟨budget, policy, dialect⟩ := by
  simp only [ofEnvironment, lookUp]
  cases Environment.given env.instructionsPerFrame <;>
    cases Environment.given env.unknownOpcodes <;> cases Environment.given env.dialect <;> rfl

/-- The settings of an environment are those that are looked up in it. -/
lemma ofEnvironment_eq_ok_iff : ofEnvironment env = .ok settings ↔
    lookUp env.instructionsPerFrame (readBudget "CHIP8_IPF") (.finite 10) =
      .ok settings.instructionsPerFrame ∧
    lookUp env.unknownOpcodes readPolicy .strict = .ok settings.unknownOpcodes ∧
    lookUp env.dialect (fun text => (·.applyTo {}) <$> DialectChoice.ofList text) {} =
      .ok settings.dialect := by
  simp only [ofEnvironment_eq, bind_eq_ok_iff]
  constructor
  · rintro ⟨budget, first, policy, second, dialect, third, done⟩
    cases done
    exact ⟨first, second, third⟩
  · rintro ⟨first, second, third⟩
    exact ⟨_, first, _, second, _, third, rfl⟩

/-- A budget that is given by an option is taken as it is. -/
lemma readBudget_text_eq_ok_iff {source : String} {n budget : Number} :
    readBudget source n.text = .ok budget ↔ IsBudget n.text ∧ budget = n := by
  rw [readBudget_eq_ok_iff]
  constructor
  · rintro ⟨m, numeral, positive, rfl⟩
    exact ⟨⟨m, numeral, positive⟩, Number.binary64_of_denotes_text numeral positive⟩
  · rintro ⟨⟨m, numeral, positive⟩, rfl⟩
    exact ⟨m, numeral, positive, (Number.binary64_of_denotes_text numeral positive).symm⟩

/-- Settings are resolved from those of the environment, and then from the options. -/
lemma resolve_eq_ok_iff : resolve options env = .ok settings ↔
    ∃ base, ofEnvironment env = .ok base ∧
      (∀ n, options.instructionsPerFrame = some n → IsBudget n.text) ∧
      settings.instructionsPerFrame =
        options.instructionsPerFrame.getD base.instructionsPerFrame ∧
      settings.unknownOpcodes = options.unknownOpcodes.getD base.unknownOpcodes ∧
      settings.dialect = options.dialect.applyTo base.dialect := by
  obtain ⟨budget, policy, dialect⟩ := settings
  rw [resolve, bind_eq_ok_iff]
  refine exists_congr fun base => and_congr_right fun _ => ?_
  cases given : options.instructionsPerFrame with
  | none =>
    constructor
    · rintro ⟨⟩
      exact ⟨fun n some_ => (by cases some_), rfl, rfl, rfl⟩
    · rintro ⟨-, rfl, rfl, rfl⟩
      rfl
  | some n =>
    refine bind_eq_ok_iff.trans ?_
    simp only [readBudget_text_eq_ok_iff]
    constructor
    · rintro ⟨_, ⟨positive, rfl⟩, ⟨⟩⟩
      exact ⟨fun m same => Option.some.inj same ▸ positive, rfl, rfl, rfl⟩
    · rintro ⟨positive, rfl, rfl, rfl⟩
      exact ⟨_, ⟨positive _ rfl, rfl⟩, rfl⟩

/-- A dialect is what a list chooses of the standard one. -/
lemma map_ofList_eq_ok_iff {list : String} {dialect : Dialect} :
    (·.applyTo {}) <$> DialectChoice.ofList list = .ok dialect ↔
      ∃ choice, DialectChoice.ofList list = .ok choice ∧ dialect = choice.applyTo {} := by
  cases DialectChoice.ofList list with
  | error => exact iff_of_false nofun nofun
  | ok choice => simp [Functor.map, Except.map, eq_comm]

/-- Settings can be resolved if and only if environment and options are well formed. -/
lemma exists_resolve_iff : (∃ settings, resolve options env = .ok settings) ↔
    WellFormed options env := by
  constructor
  · rintro ⟨settings, done⟩
    obtain ⟨base, found, option, -⟩ := resolve_eq_ok_iff.1 done
    obtain ⟨budget, policy, dialect⟩ := ofEnvironment_eq_ok_iff.1 found
    refine ⟨option, fun text given => ?_, fun text given => ?_, fun text given => ?_⟩
    · exact exists_readBudget_iff.1 (exists_lookUp_iff.1 ⟨_, budget⟩ text given)
    · obtain ⟨policy, read⟩ := exists_lookUp_iff.1 ⟨_, policy⟩ text given
      exact ⟨policy, readPolicy_eq_ok_iff.1 read⟩
    · obtain ⟨dialect, read⟩ := exists_lookUp_iff.1 ⟨_, dialect⟩ text given
      obtain ⟨choice, made, -⟩ := map_ofList_eq_ok_iff.1 read
      exact DialectChoice.exists_ofList_iff.1 ⟨choice, made⟩
  · rintro ⟨option, budget, policy, dialect⟩
    obtain ⟨budget, readBudget⟩ := exists_lookUp_iff.2 fun text given =>
      exists_readBudget_iff.2 (budget text given)
    obtain ⟨policy, readPolicy⟩ := exists_lookUp_iff.2 fun text given => by
      obtain ⟨policy, written⟩ := policy text given
      exact ⟨policy, readPolicy_eq_ok_iff.2 written⟩
    obtain ⟨dialect, readDialect⟩ := exists_lookUp_iff.2 fun text given => by
      obtain ⟨choice, made⟩ := DialectChoice.exists_ofList_iff.2 (dialect text given)
      exact ⟨_, map_ofList_eq_ok_iff.2 ⟨choice, made, rfl⟩⟩
    exact ⟨⟨_, _, _⟩, resolve_eq_ok_iff.2 ⟨⟨budget, policy, dialect⟩,
      ofEnvironment_eq_ok_iff.2 ⟨readBudget, readPolicy, readDialect⟩, option, rfl, rfl, rfl⟩⟩

/-- An option decides over what is found, and that over the default. -/
lemma decided_getD {option : Option α} {value : Option String} {Reads : String → α → Prop}
    {default a : α}
    (found : (∃ text, Environment.given value = some text ∧ Reads text a) ∨
      Environment.given value = none ∧ a = default) :
    Decided option value Reads default (option.getD a) := by
  cases option with
  | some a => exact .ofOption rfl
  | none =>
    obtain ⟨text, given, reads⟩ | ⟨missing, rfl⟩ := found
    · exact .ofVariable rfl given reads
    · exact .byDefault rfl missing

/-- The budget is decided by option, environment and default. -/
lemma decided_budget {budget : Number} (option : Option Number)
    (found : lookUp env.instructionsPerFrame (readBudget "CHIP8_IPF") (.finite 10) = .ok budget) :
    Decided option env.instructionsPerFrame
      (fun text budget => ∃ n : Nat, Number.Denotes text n ∧ budget = Number.binary64 n)
      (.finite 10) (option.getD budget) := by
  refine decided_getD ((lookUp_eq_ok_iff.1 found).imp_left fun ⟨text, given, read⟩ => ?_)
  obtain ⟨n, numeral, -, same⟩ := readBudget_eq_ok_iff.1 read
  exact ⟨text, given, n, numeral, same⟩

/-- The policy is decided by option, environment and default. -/
lemma decided_policy {policy : UnknownPolicy} (option : Option UnknownPolicy)
    (found : lookUp env.unknownOpcodes readPolicy .strict = .ok policy) :
    Decided option env.unknownOpcodes (fun text policy => Text.Writes text.toList policy.word)
      .strict (option.getD policy) :=
  decided_getD ((lookUp_eq_ok_iff.1 found).imp_left fun ⟨text, given, read⟩ =>
    ⟨text, given, readPolicy_eq_ok_iff.1 read⟩)

/-- A flag is decided by option, environment and default. -/
lemma decided_flag {dialect : Dialect} (choice : DialectChoice) (f : Flag)
    (found : lookUp env.dialect (fun text => (·.applyTo {}) <$> DialectChoice.ofList text) {} =
      .ok dialect) :
    Decided (choice.flag f) env.dialect
      (fun list on => on = true ↔ DialectChoice.Lists list f.name) false
      ((choice.applyTo dialect).flag f) := by
  have off : ({} : Dialect).flag f = false := by cases f <;> rfl
  rw [DialectChoice.flag_applyTo]
  refine decided_getD ((lookUp_eq_ok_iff.1 found).imp ?_ ?_)
  · rintro ⟨text, given, read⟩
    obtain ⟨listed, made, rfl⟩ := map_ofList_eq_ok_iff.1 read
    refine ⟨text, given, ?_⟩
    rw [DialectChoice.flag_applyTo, off]
    exact DialectChoice.flag_ofList made f
  · rintro ⟨missing, rfl⟩
    exact ⟨missing, off⟩

/-- Settings are decided one by one. The budget, what happens at unknown words and each of the flags
on its own is the option's value if there is one, else what the variable says unless it is empty,
else the default. There are no settings exactly if the budget's option or one of the variables is
malformed, whether or not an option overrides the variable. A list of names that is put together
from two makes the choice of both, and is malformed if one of them is. -/
theorem resolve_decides (options : Options) (env : Environment) :
    (∀ settings, resolve options env = .ok settings →
      Decided options.instructionsPerFrame env.instructionsPerFrame
        (fun text budget => ∃ n : Nat, Number.Denotes text n ∧ budget = Number.binary64 n)
        (.finite 10) settings.instructionsPerFrame ∧
      Decided options.unknownOpcodes env.unknownOpcodes
        (fun text policy => Text.Writes text.toList policy.word) .strict settings.unknownOpcodes ∧
      ∀ f : Flag, Decided (options.dialect.flag f) env.dialect
        (fun list on => on = true ↔ DialectChoice.Lists list f.name) false
        (settings.dialect.flag f)) ∧
    ((∃ error, resolve options env = .error error) ↔ ¬ WellFormed options env) ∧
    ∀ (first second : String) (choice : DialectChoice),
      DialectChoice.ofList (first ++ "," ++ second) = .ok choice ↔
        ∃ a b, DialectChoice.ofList first = .ok a ∧ DialectChoice.ofList second = .ok b ∧
          choice = a.union b := by
  refine ⟨fun settings done => ?_, ?_, fun first second choice => ?_⟩
  · obtain ⟨base, found, -, budget, policy, dialect⟩ := resolve_eq_ok_iff.1 done
    obtain ⟨readBudget, readPolicy, readDialect⟩ := ofEnvironment_eq_ok_iff.1 found
    rw [budget, policy, dialect]
    exact ⟨decided_budget _ readBudget, decided_policy _ readPolicy,
      fun f => decided_flag _ f readDialect⟩
  · rw [← exists_resolve_iff]
    cases resolve options env with
    | error e => exact iff_of_true ⟨e, rfl⟩ nofun
    | ok settings => exact iff_of_false nofun (not_not_intro ⟨settings, rfl⟩)
  · rw [DialectChoice.ofList_append]
    simp only [bind_eq_ok_iff]
    constructor
    · rintro ⟨a, made, b, made', done⟩
      exact ⟨a, b, made, made', (Except.ok.inj done).symm⟩
    · rintro ⟨a, b, made, made', rfl⟩
      exact ⟨a, made, b, made', rfl⟩

/-- The budget comes from the environment, the policy from an option in spite of it, one flag from
an option, one from the environment, and one from neither. -/
theorem resolve_decides_mixed :
    ∃ (options : Options) (env : Environment) (settings : Settings),
      resolve options env = .ok settings ∧
      settings = ⟨.finite 25, .strict, ⟨false, false, true⟩⟩ ∧
      Decided options.instructionsPerFrame env.instructionsPerFrame
        (fun text budget => ∃ n : Nat, Number.Denotes text n ∧ budget = Number.binary64 n)
        (.finite 10) settings.instructionsPerFrame ∧
      Decided options.unknownOpcodes env.unknownOpcodes
        (fun text policy => Text.Writes text.toList policy.word) .strict settings.unknownOpcodes ∧
      ∀ f : Flag, Decided (options.dialect.flag f) env.dialect
        (fun list on => on = true ↔ DialectChoice.Lists list f.name) false
        (settings.dialect.flag f) := by
  let options : Options := { unknownOpcodes := some .strict, dialect := ⟨some false, none, none⟩ }
  let env : Environment :=
    { instructionsPerFrame := some " 25 "
      unknownOpcodes := some "Lenient"
      dialect := some "shift-vy,, VF-Reset" }
  have done : resolve options env = .ok ⟨.finite 25, .strict, ⟨false, false, true⟩⟩ := by
    decide +kernel
  exact ⟨options, env, _, done, rfl, (resolve_decides options env).1 _ done⟩

end Settings

end Chip8
