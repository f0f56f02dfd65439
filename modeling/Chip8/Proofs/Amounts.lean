import Chip8.Proofs.Arguments
import Chip8.Proofs.Budget
import Chip8.Proofs.Positional
/-!
# The numbers that a run is asked for

`Number.Leads` says which texts start with the digits of a number. This is how the flags of a run
read the numbers that they give (`RunRom.takes_amount_iff`), whereas the variable for the budget has
to be a numeral and nothing else (`Settings.accepts_iff`). A numeral starts with its digits, but a
number from a flag is an option, which is read once more from its own text, and from `10 ^ 21` on
that text has an exponent. So there are texts that one of the two takes and the other does not, and
`amounts_read` says which.
-/

namespace Chip8

namespace Number

variable {text : String} {n m : Nat} {q r : Rat} {cs blanks digits rest : List Char} {c : Char}

/-- Whether a text starts with the decimal digits of a number, behind blanks and possibly a plus
sign. What follows the digits does not count. -/
def Leads (text : String) (n : Nat) : Prop :=
  ∃ blanks sign digits rest, text.toList = blanks ++ (sign ++ (digits ++ rest)) ∧
    (∀ c ∈ blanks, Text.isBlank c) ∧ (sign = [] ∨ sign = ['+']) ∧
    (digits ≠ [] ∧ (∀ c ∈ digits, c.isDigit) ∧ Nat.ofDigitChars 10 digits 0 = n) ∧
    ∀ c ∈ rest.head?, c.isDigit = false

/-- A numeral starts with its digits. -/
lemma Denotes.leads (h : Denotes text n) : Leads text n := by
  obtain ⟨digits, ⟨before, behind, same, first, last⟩, numeral⟩ := h
  refine ⟨before, [], digits, behind, ?_, first, .inl rfl, numeral, fun c member => ?_⟩
  · rw [same, List.append_assoc, List.nil_append]
  · have blank := last c (List.mem_of_mem_head? member)
    rw [← Bool.not_eq_true]
    intro digit
    rw [not_isBlank_of_isDigit digit] at blank
    cases blank

/-- What starts with a digit has no sign. -/
lemma splitSign_of_isDigit (digit : c.isDigit) : splitSign (c :: cs) = (false, c :: cs) := by
  refine splitSign.eq_3 _ ?_ ?_
  · rintro rest ⟨⟩
    cases digit
  · rintro rest ⟨⟩
    cases digit

/-- What is not introduced by a minus is introduced by a plus or by nothing. -/
lemma exists_sign (h : splitSign cs = (false, rest)) :
    ∃ sign, (sign = [] ∨ sign = ['+']) ∧ cs = sign ++ rest := by
  rw [splitSign.eq_def] at h
  split at h
  case h_1 => cases h
  case h_2 =>
    cases h
    exact ⟨['+'], .inr rfl, rfl⟩
  case h_3 =>
    cases h
    exact ⟨[], .inl rfl, rfl⟩

/-- The digits in front are taken as far as they go. -/
lemma takeWhile_digits (all : ∀ c ∈ digits, c.isDigit)
    (stop : ∀ c ∈ rest.head?, c.isDigit = false) :
    (digits ++ rest).takeWhile isDecimal = digits := by
  rw [List.takeWhile_append_of_pos fun c member => (isDecimal_eq c).trans (all c member)]
  cases rest with
  | nil => exact List.append_nil _
  | cons c rest =>
    rw [List.takeWhile_cons_of_neg (by rw [isDecimal_eq, stop c rfl]; decide), List.append_nil]

/-- What is left behind the digits does not start with one. -/
lemma not_isDigit_of_head? (member : c ∈ (cs.dropWhile isDecimal).head?) : c.isDigit = false := by
  have head := List.head?_dropWhile_not isDecimal cs
  rw [Option.mem_def.1 member] at head
  rw [← isDecimal_eq]
  simpa using head

/-- Blanks and a plus in front of a digit are passed over. -/
lemma splitSign_dropWhile {sign : List Char} (blank : ∀ c ∈ blanks, Text.isBlank c)
    (plus : sign = [] ∨ sign = ['+']) (digit : c.isDigit) :
    splitSign ((blanks ++ (sign ++ c :: cs)).dropWhile Text.isBlank) = (false, c :: cs) := by
  rw [List.dropWhile_append_of_pos blank]
  obtain rfl | rfl := plus
  · rw [List.nil_append, Text.dropWhile_of_head, splitSign_of_isDigit digit]
    rintro d ⟨⟩
    exact not_isBlank_of_isDigit digit
  · rw [Text.dropWhile_of_head]
    · rfl
    · rintro d ⟨⟩
      rfl

/-- The digits that a text starts with are what is left of it behind the sign, up to the first other
character. -/
lemma leads_iff : Leads text n ↔
    ∃ rest, splitSign (text.toList.dropWhile Text.isBlank) = (false, rest) ∧
      rest.takeWhile isDecimal ≠ [] ∧ Nat.ofDigitChars 10 (rest.takeWhile isDecimal) 0 = n := by
  constructor
  · rintro ⟨blanks, sign, digits, rest, same, blank, plus, ⟨some_, all, value⟩, stop⟩
    refine ⟨digits ++ rest, ?_, ?_⟩
    · obtain ⟨d, more, rfl⟩ := List.exists_cons_of_ne_nil some_
      rw [same]
      exact splitSign_dropWhile blank plus (all d List.mem_cons_self)
    · rw [takeWhile_digits all stop]
      exact ⟨some_, value⟩
  · rintro ⟨rest, split, some_, value⟩
    obtain ⟨sign, plus, same⟩ := exists_sign split
    refine ⟨text.toList.takeWhile Text.isBlank, sign, rest.takeWhile isDecimal,
      rest.dropWhile isDecimal, ?_, fun c member => List.mem_takeWhile_imp member, plus,
      ⟨some_, fun c member => ?_, value⟩, fun c member => not_isDigit_of_head? member⟩
    · rw [List.takeWhile_append_dropWhile, ← same, List.takeWhile_append_dropWhile]
    · rw [← isDecimal_eq]
      exact List.mem_takeWhile_imp member

/-- A text starts with the digits of one number only. -/
lemma Leads.unique (first : Leads text n) (second : Leads text m) : n = m := by
  obtain ⟨rest, split, -, value⟩ := leads_iff.1 first
  obtain ⟨rest', split', -, value'⟩ := leads_iff.1 second
  cases split.symm.trans split'
  exact value.symm.trans value'

/-- Scaled naturals are not negative. -/
lemma scaled_nonneg (m : Nat) (e : Int) : 0 ≤ scaled m e :=
  Rat.mkRat_nonneg (Int.natCast_nonneg _) _

/-- Rounding does not make a number positive. -/
lemma nonpos_of_binary64 (h : binary64 r = finite q) (nonpos : r ≤ 0) : q ≤ 0 := by
  rw [binary64] at h
  split at h
  case isTrue =>
    cases h
    exact le_refl 0
  case isFalse other =>
    have negative : r < 0 := lt_of_le_of_ne nonpos other
    simp only [if_pos negative] at h
    split at h
    case isTrue => cases h
    case isFalse =>
      cases h
      exact neg_nonpos.2 (scaled_nonneg ..)

/-- Behind a minus no positive number is read. -/
lemma nonpos_of_ofDecimal (h : ofDecimal true n 0 = finite q) : q ≤ 0 := by
  simp only [ofDecimal, if_true, decimalScaled_nat] at h
  split_ifs at h
  case pos | pos =>
    cases h
    exact le_refl 0
  case neg => exact nonpos_of_binary64 h (neg_nonpos.2 (Nat.cast_nonneg n))

/-- A text is read by the digits that it starts with. -/
lemma Leads.read (h : Leads text n) : ofLeadingInteger text.toList = binary64 n := by
  obtain ⟨rest, split, some_, value⟩ := leads_iff.1 h
  have all : ∀ c ∈ rest.takeWhile isDecimal, c.isDigit :=
    fun c member => (isDecimal_eq c).symm.trans (List.mem_takeWhile_imp member)
  rw [ofLeadingInteger, split]
  simp only
  rw [digitsValue_eq all, value, ofDecimal_nat]

/-- A positive number is read only from digits. -/
lemma exists_leads (h : ofLeadingInteger text.toList = finite q) (positive : 1 ≤ q) :
    ∃ n, Leads text n := by
  rw [ofLeadingInteger] at h
  rcases split : splitSign (text.toList.dropWhile Text.isBlank) with ⟨negative, rest⟩
  simp only [split] at h
  split at h
  case h_1 => cases h
  case h_2 digits =>
    cases negative with
    | true => exact absurd (nonpos_of_ofDecimal h) (by linarith)
    | false => exact ⟨_, leads_iff.2 ⟨rest, split, digits, rfl⟩⟩

end Number

namespace RunRom

variable {cwd : Path} {env : Environment} {r r' : Request} {text argument : String} {q : Rat}
  {arguments before behind : List String} {n budget : Number}

/-- A positive number is read from what starts with its digits, unless it is out of range. -/
lemma isPositive_iff : IsPositive text q ↔
    ∃ n, Number.Leads text n ∧ 0 < n ∧ n < 2 ^ 1024 - 2 ^ 970 ∧ q = Number.rounded n := by
  constructor
  · rintro ⟨read, positive⟩
    obtain ⟨n, leads⟩ := Number.exists_leads read positive
    obtain ⟨range, rfl⟩ := Number.binary64_eq_finite_iff.1 (leads.read.symm.trans read)
    refine ⟨n, leads, Nat.pos_of_ne_zero ?_, range, rfl⟩
    rintro rfl
    exact absurd (Nat.one_le_cast.1 positive) (by decide)
  · rintro ⟨n, leads, positive, range, rfl⟩
    exact ⟨leads.read.trans (Number.binary64_eq_finite_iff.2 ⟨range, rfl⟩),
      Nat.one_le_cast.2 (Number.rounded_pos positive)⟩

/-- The numbers that a flag can give. -/
inductive Amount where
  | frames
  | instructions
  | scale
deriving DecidableEq

/-- The flag that gives a number. -/
def Amount.flag : Amount → String
  | frames => "--frames"
  | instructions => "--ipf"
  | scale => "--scale"

/-- What stands before a number in an argument. -/
def Amount.start (a : Amount) : String := a.flag ++ "="

/-- A request with a number. -/
def Request.set (r : Request) : Amount → Number → Request
  | .frames, n => { r with frames := n }
  | .instructions, n => { r with instructionsPerFrame := some n }
  | .scale, n => { r with scale := n }

/-- Setting a number does not change the program that is asked for. -/
@[simp] lemma Request.rom_set (r : Request) (a : Amount) (n : Number) :
    (r.set a n).rom = r.rom := by
  cases a <;> rfl

/-- An argument that gives a number is read as a number. -/
lemma readArgument_amount (a : Amount) :
    readArgument cwd r (a.start ++ text) = (positive a.flag text).map (r.set a) := by
  cases a <;> (simp [readArgument, behind?, Amount.start, Amount.flag]; rfl)

/-- A flag gives a number if its text starts with a positive one in range. -/
lemma takes_amount_iff (a : Amount) : Takes cwd r (a.start ++ text) r' ↔
    ∃ n, Number.Leads text n ∧ 0 < n ∧ n < 2 ^ 1024 - 2 ^ 970 ∧
      r' = r.set a (.finite (Number.rounded n)) := by
  rw [← readArgument_eq_ok_iff, readArgument_amount]
  constructor
  · intro read
    obtain ⟨q, positive, rfl⟩ := map_positive_eq_ok read
    obtain ⟨n, leads, some_, range, rfl⟩ := isPositive_iff.1 positive
    exact ⟨n, leads, some_, range, rfl⟩
  · rintro ⟨n, leads, some_, range, rfl⟩
    have positive := isPositive_iff.2 ⟨n, leads, some_, range, rfl⟩
    rw [positive_eq_ok_iff.2 ⟨_, positive, rfl⟩]
    rfl

/-- Whether none of some arguments gives a number. -/
def LeavesOpen (a : Amount) (arguments : List String) : Prop :=
  ∀ argument ∈ arguments, ∀ text, argument ≠ a.start ++ text

/-- None of some arguments gives a number if and only if none starts like one that does. -/
lemma leavesOpen_iff {a : Amount} :
    LeavesOpen a arguments ↔ ∀ argument ∈ arguments, behind? a.start argument = none :=
  forall₂_congr fun _ _ => behind?_eq_none_iff.symm

/-- An argument of another kind leaves a number as it is and does not look at it. -/
lemma Takes.set {a : Amount} (h : Takes cwd r argument r') (n : Number)
    (other : ∀ text, argument ≠ a.start ++ text) :
    Takes cwd (r.set a n) argument (r'.set a n) := by
  cases h with
  | @frames text q large =>
    cases a with
    | frames => exact absurd rfl (other text)
    | instructions | scale => exact .frames large
  | @instructions text q large =>
    cases a with
    | instructions => exact absurd rfl (other text)
    | frames | scale => exact .instructions large
  | @scale text q large =>
    cases a with
    | scale => exact absurd rfl (other text)
    | frames | instructions => exact .scale large
  | program => cases a <;> exact .program
  | picture => cases a <;> exact .picture
  | lenient => cases a <;> exact .lenient
  | shift => cases a <;> exact .shift
  | transfer => cases a <;> exact .transfer
  | logic => cases a <;> exact .logic
  | alone bare missing => cases a <;> exact .alone bare missing

/-- Arguments of other kinds leave a number as it is and do not look at it. -/
lemma Asks.set {a : Amount} (h : Asks cwd r arguments r') (n : Number)
    (other : LeavesOpen a arguments) : Asks cwd (r.set a n) arguments (r'.set a n) := by
  induction h with
  | nil => exact .nil
  | cons takes _ ih =>
    have others := List.forall_mem_cons.1 other
    exact .cons (takes.set n others.1) (ih others.2)

/-- Among arguments that are understood a flag gives its number, unless it is given once more. -/
lemma request_amount_iff {a : Amount} (understood : request cwd env (before ++ behind) = .ok r)
    (open_ : LeavesOpen a behind) :
    request cwd env (before ++ (a.start ++ text) :: behind) = .ok r' ↔
      ∃ n, Number.Leads text n ∧ 0 < n ∧ n < 2 ^ 1024 - 2 ^ 970 ∧
        r' = r.set a (.finite (Number.rounded n)) := by
  obtain ⟨asks, named⟩ := request_eq_ok_iff.1 understood
  obtain ⟨between, first, second⟩ := asks_append.1 asks
  rw [request_eq_ok_iff, asks_append]
  constructor
  · rintro ⟨⟨between', first', _ | ⟨takes, second'⟩⟩, -⟩
    obtain rfl := first.unique first'
    obtain ⟨n, leads, some_, range, rfl⟩ := (takes_amount_iff a).1 takes
    exact ⟨n, leads, some_, range, second'.unique (second.set _ open_)⟩
  · rintro ⟨n, leads, some_, range, rfl⟩
    have takes : Takes cwd between _ _ :=
      (takes_amount_iff a).2 ⟨n, leads, some_, range, rfl⟩
    refine ⟨⟨between, first, .cons takes (second.set _ open_)⟩, ?_⟩
    rwa [Request.rom_set]

/-- Whether a call gets past its arguments and its settings, with a budget. -/
def Accepts (cwd : Path) (env : Environment) (arguments : List String) (budget : Number) : Prop :=
  ∃ r settings, request cwd env arguments = .ok r ∧
    Settings.resolve r.options env = .ok settings ∧ settings.instructionsPerFrame = budget

end RunRom

namespace Settings

variable {options : Options} {env : Environment} {text : String} {n budget : Number}

/-- Whether the settings are accepted, with a budget, when its variable has a text. -/
def Accepts (env : Environment) (text : String) (budget : Number) : Prop :=
  ∃ settings, resolve {} { env with instructionsPerFrame := some text } = .ok settings ∧
    settings.instructionsPerFrame = budget

/-- The variable gives the budget if its text is a numeral. -/
lemma accepts_iff (valid : WellFormed {} env) (some_ : text ≠ "") :
    Accepts env text budget ↔
      ∃ n, Number.Denotes text n ∧ 0 < n ∧ budget = Number.binary64 n := by
  have given : Environment.given (some text) = some text := by simp [Environment.given, some_]
  constructor
  · rintro ⟨settings, done, rfl⟩
    exact budget_of_budgetText done given
  · rintro ⟨n, numeral, positive, rfl⟩
    have valid' : WellFormed {} { env with instructionsPerFrame := some text } := by
      refine { valid with budget := fun text' found => ?_ }
      cases given.symm.trans found
      exact ⟨n, numeral, positive⟩
    obtain ⟨settings, done⟩ := exists_resolve_iff.2 valid'
    obtain ⟨m, numeral', -, same⟩ := budget_of_budgetText done given
    cases numeral.unique numeral'
    exact ⟨settings, done, same⟩

/-- An option gives the budget if its text is a numeral. -/
lemma resolve_option_iff (valid : WellFormed {} env)
    (given : options.instructionsPerFrame = some n) :
    (∃ settings, resolve options env = .ok settings ∧ settings.instructionsPerFrame = budget) ↔
      IsBudget n.text ∧ budget = n := by
  constructor
  · rintro ⟨settings, done, rfl⟩
    obtain ⟨base, -, option, same, -⟩ := resolve_eq_ok_iff.1 done
    rw [given] at same
    exact ⟨option n given, same⟩
  · rintro ⟨numeral, rfl⟩
    have valid' : WellFormed options env := by
      refine { valid with option := fun m asked => ?_ }
      cases given.symm.trans asked
      exact numeral
    obtain ⟨settings, done⟩ := exists_resolve_iff.2 valid'
    obtain ⟨base, -, -, same, -⟩ := resolve_eq_ok_iff.1 done
    rw [given] at same
    exact ⟨settings, done, same⟩

end Settings

namespace RunRom

variable {cwd : Path} {env : Environment} {r : Request} {text : String}
  {before behind : List String} {budget : Number}

/-- A call with a flag for the budget gets past its settings if the number that the text starts with
is not so large that it is written with an exponent. -/
lemma accepts_iff (understood : request cwd env (before ++ behind) = .ok r)
    (open_ : LeavesOpen .instructions behind) (valid : Settings.WellFormed {} env) :
    Accepts cwd env (before ++ (Amount.instructions.start ++ text) :: behind) budget ↔
      ∃ n, Number.Leads text n ∧ 0 < n ∧ n < 10 ^ 21 - 65536 ∧
        budget = .finite (Number.rounded n) := by
  -- What the flag gives is an option, which is read from its own text.
  have written {n : Nat} (some_ : 0 < n) :
      Settings.IsBudget (Number.finite (Number.rounded n)).text ↔ n < 10 ^ 21 - 65536 := by
    have edge := Number.tenPow_le_rounded_iff (n := n)
    rw [Settings.isBudget_text_iff (Number.rounded_pos some_) (Number.rounded_rounded n)]
    omega
  constructor
  · rintro ⟨r', settings, asked, done⟩
    obtain ⟨n, leads, some_, -, rfl⟩ := (request_amount_iff understood open_).1 asked
    obtain ⟨numeral, same⟩ := (Settings.resolve_option_iff valid rfl).1 ⟨settings, done⟩
    exact ⟨n, leads, some_, (written some_).1 numeral, same⟩
  · rintro ⟨n, leads, some_, small, same⟩
    have range : n < 2 ^ 1024 - 2 ^ 970 := Nat.lt_trans small (by decide +kernel)
    have asked := (request_amount_iff understood open_).2 ⟨n, leads, some_, range, rfl⟩
    have given : (r.set .instructions (.finite (Number.rounded n))).options.instructionsPerFrame =
        some _ := rfl
    obtain ⟨settings, done⟩ := (Settings.resolve_option_iff valid given).2
      ⟨(written some_).2 small, same⟩
    exact ⟨_, settings, asked, done⟩

/-- The flag for the budget and its variable accept a text alike, with the same budget, exactly if
the number that the text starts with has the text for a numeral just if it is small enough for the
flag. -/
lemma accepts_alike_iff (understood : request cwd env (before ++ behind) = .ok r)
    (open_ : LeavesOpen .instructions behind) (valid : Settings.WellFormed {} env)
    (some_ : text ≠ "") :
    (∀ budget, Accepts cwd env (before ++ (Amount.instructions.start ++ text) :: behind) budget ↔
      Settings.Accepts env text budget) ↔
    ∀ n, Number.Leads text n → 0 < n → (n < 10 ^ 21 - 65536 ↔ Number.Denotes text n) := by
  simp only [accepts_iff understood open_ valid, Settings.accepts_iff valid some_]
  constructor
  · intro alike n leads positive
    constructor
    · intro small
      obtain ⟨m, numeral, -⟩ := (alike _).1 ⟨n, leads, positive, small, rfl⟩
      rwa [leads.unique numeral.leads]
    · intro numeral
      obtain ⟨m, leads', -, small, -⟩ := (alike _).2 ⟨n, numeral, positive, rfl⟩
      rwa [leads.unique leads']
  · intro same budget
    have rounds {n : Nat} (small : n < 10 ^ 21 - 65536) :
        Number.binary64 n = .finite (Number.rounded n) :=
      Number.binary64_eq_finite_iff.2 ⟨Nat.lt_trans small (by decide +kernel), rfl⟩
    constructor
    · rintro ⟨n, leads, positive, small, rfl⟩
      exact ⟨n, (same n leads positive).1 small, positive, (rounds small).symm⟩
    · rintro ⟨n, numeral, positive, rfl⟩
      have small := (same n numeral.leads positive).2 numeral
      exact ⟨n, numeral.leads, positive, small, rounds small⟩

/-- A flag that gives a number accepts every text that starts with a positive one in range, whereas
the variable for the budget accepts just the numerals of positive numbers. A call with the flag for
the budget gets past its settings too if the number is less than `10 ^ 21 - 65536`. So the flag and
the variable agree on a text exactly if the positive number that it starts with, if there is one, is
less than that and has the text for a numeral, or neither. -/
theorem amounts_read (understood : request cwd env (before ++ behind) = .ok r)
    (valid : Settings.WellFormed {} env) (text : String) (some_ : text ≠ "") :
    (∀ (a : Amount) (r' : Request), LeavesOpen a behind →
      (request cwd env (before ++ (a.start ++ text) :: behind) = .ok r' ↔
        ∃ n, Number.Leads text n ∧ 0 < n ∧ n < 2 ^ 1024 - 2 ^ 970 ∧
          r' = r.set a (.finite (Number.rounded n)))) ∧
    (∀ budget, Settings.Accepts env text budget ↔
      ∃ n, Number.Denotes text n ∧ 0 < n ∧ budget = Number.binary64 n) ∧
    (LeavesOpen .instructions behind →
      (∀ budget, Accepts cwd env (before ++ (Amount.instructions.start ++ text) :: behind) budget ↔
        ∃ n, Number.Leads text n ∧ 0 < n ∧ n < 10 ^ 21 - 65536 ∧
          budget = .finite (Number.rounded n)) ∧
      ((∀ budget, Accepts cwd env (before ++ (Amount.instructions.start ++ text) :: behind) budget ↔
          Settings.Accepts env text budget) ↔
        ∀ n, Number.Leads text n → 0 < n → (n < 10 ^ 21 - 65536 ↔ Number.Denotes text n))) := by
  refine ⟨fun a r' open_ => request_amount_iff understood open_,
    fun budget => Settings.accepts_iff valid some_, fun open_ => ⟨fun budget => ?_, ?_⟩⟩
  · exact accepts_iff understood open_ valid
  · exact accepts_alike_iff understood open_ valid some_

/-- A numeral with a blank in front of it is accepted by the flag as well as by the variable. -/
theorem amounts_read_blank :
    Accepts ⟨[]⟩ {} ["--rom=r.ch8", "--ipf= 42", "--lenient"] (.finite 42) ∧
      Settings.Accepts {} " 42" (.finite 42) := by
  have understood : request ⟨[]⟩ {} (["--rom=r.ch8"] ++ ["--lenient"]) =
      .ok { rom := "r.ch8", lenient := true } := by
    decide
  have valid : Settings.WellFormed {} {} := Settings.exists_resolve_iff.1 ⟨_, rfl⟩
  obtain ⟨-, variable_, flag⟩ := amounts_read understood valid " 42" (by decide)
  have numeral : Number.Denotes " 42" 42 :=
    Number.denotes_iff_trimChars.2 ⟨by decide, List.all_eq_true.1 (by decide), by decide⟩
  have open_ : LeavesOpen .instructions ["--lenient"] := leavesOpen_iff.2 (by decide)
  refine ⟨((flag open_).1 _).2 ⟨42, numeral.leads, by decide, by decide, ?_⟩,
    (variable_ _).2 ⟨42, numeral, by decide, ?_⟩⟩
  · rw [Number.rounded_of_le (by decide)]
    rfl
  · rw [Number.binary64_of_le (by decide)]
    rfl

/-- The flag for the budget takes a text with letters behind its digits, which the variable refuses,
and refuses a numeral of twenty-two digits, which the variable takes. -/
theorem amounts_differ :
    (Accepts ⟨[]⟩ {} ["--rom=r.ch8", "--ipf=12abc"] (.finite 12) ∧
      ∀ budget, ¬ Settings.Accepts {} "12abc" budget) ∧
    ((∀ budget, ¬ Accepts ⟨[]⟩ {} ["--rom=r.ch8", "--ipf=1000000000000000000000"] budget) ∧
      Settings.Accepts {} "1000000000000000000000" (.finite (10 ^ 21))) := by
  refine ⟨⟨⟨{ rom := "r.ch8", instructionsPerFrame := some (.finite 12) },
    { instructionsPerFrame := .finite 12 }, by decide +kernel, by decide +kernel, rfl⟩, ?_⟩, ?_, ?_⟩
  · rintro budget ⟨settings, done, -⟩
    have refused : Settings.resolve {} { instructionsPerFrame := some "12abc" } =
        .error (.notWhole "CHIP8_IPF" "12abc") := by
      decide +kernel
    cases refused.symm.trans done
  · rintro budget ⟨r, settings, asked, done, -⟩
    have asked' : request ⟨[]⟩ {} ["--rom=r.ch8", "--ipf=1000000000000000000000"] =
        .ok { rom := "r.ch8", instructionsPerFrame := some (.finite (10 ^ 21)) } := by
      decide +kernel
    cases asked'.symm.trans asked
    have refused : Settings.resolve { instructionsPerFrame := some (.finite (10 ^ 21)) } {} =
        .error (.notWhole "instructionsPerFrame" "1e+21") := by
      decide +kernel
    cases refused.symm.trans done
  · exact ⟨{ instructionsPerFrame := .finite (10 ^ 21) }, by decide +kernel, rfl⟩

end RunRom

end Chip8
