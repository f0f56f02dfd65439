import Chip8.Instruction
import Mathlib.Tactic.Lemma
/-!
# The encoding of instructions

`code` gives the word that each instruction is written as: a leading digit, the operands in the
digits behind it, and for some leading digits a fixed end. It is the column of patterns of the
instruction table. `describes_decode` and `Describes.decode_eq` say that decoding reads it back, so
that a word is described by exactly one row, and is unknown only if no row describes it.
-/

namespace Chip8.Instruction

/-- The word of a leading digit and an address. -/
def wordNNN (lead : Nat) (target : Address) : Nat := 0x1000 * lead + target

/-- The word of a leading digit, a register and a byte. -/
def wordXNN (lead : Nat) (x : Register) (value : UInt8) : Nat :=
  0x1000 * lead + 0x100 * x + value.toNat

/-- The word of a leading digit, two registers and a last digit. -/
def wordXYN (lead : Nat) (x y : Register) (last : Digit) : Nat :=
  0x1000 * lead + 0x100 * x + 0x10 * y + last

/-- The word that an instruction is written as. -/
def code : Instruction → Nat
  | clear => 0x00E0
  | ret => 0x00EE
  | jump target => wordNNN 0x1 target
  | call target => wordNNN 0x2 target
  | skipEqualByte x value => wordXNN 0x3 x value
  | skipUnequalByte x value => wordXNN 0x4 x value
  | skipEqual x y => wordXYN 0x5 x y 0
  | setByte x value => wordXNN 0x6 x value
  | addByte x value => wordXNN 0x7 x value
  | copy x y => wordXYN 0x8 x y 0x0
  | or x y => wordXYN 0x8 x y 0x1
  | and x y => wordXYN 0x8 x y 0x2
  | xor x y => wordXYN 0x8 x y 0x3
  | add x y => wordXYN 0x8 x y 0x4
  | sub x y => wordXYN 0x8 x y 0x5
  | shiftRight x y => wordXYN 0x8 x y 0x6
  | subFrom x y => wordXYN 0x8 x y 0x7
  | shiftLeft x y => wordXYN 0x8 x y 0xE
  | skipUnequal x y => wordXYN 0x9 x y 0
  | setIndex target => wordNNN 0xA target
  | jumpOffset target => wordNNN 0xB target
  | random x mask => wordXNN 0xC x mask
  | draw x y rows => wordXYN 0xD x y rows
  | skipKeyDown x => wordXNN 0xE x 0x9E
  | skipKeyUp x => wordXNN 0xE x 0xA1
  | getDelay x => wordXNN 0xF x 0x07
  | waitKey x => wordXNN 0xF x 0x0A
  | setDelay x => wordXNN 0xF x 0x15
  | setSound x => wordXNN 0xF x 0x18
  | addIndex x => wordXNN 0xF x 0x1E
  | setGlyph x => wordXNN 0xF x 0x29
  | storeDecimal x => wordXNN 0xF x 0x33
  | store x => wordXNN 0xF x 0x55
  | load x => wordXNN 0xF x 0x65
  | unknown word => word.toNat

/-- Whether an instruction is one of the set. -/
def IsDefined : Instruction → Prop
  | unknown _ => False
  | _ => True

/-- A row of the table describes a word: the word is what the row's instruction is written as, and
it is unknown only if no instruction of the set is written so. -/
def Describes (ins : Instruction) (word : UInt16) : Prop :=
  ins.code = word.toNat ∧
    ∀ other : Instruction, other.IsDefined → other.code = word.toNat → other = ins

/-- The low byte of a word is what is left of it below 256. -/
lemma toNat_lowByte (word : UInt16) : (lowByte word).toNat = word.toNat % 256 := by
  simp [lowByte]

/-- The address in a word is what is left of it below 4096. -/
lemma val_lowAddress (word : UInt16) : (lowAddress word).val = word.toNat % 4096 := rfl

/-- The first digit of a word. -/
lemma val_nibble_three (word : UInt16) : (nibble word 3).val = word.toNat / 4096 := by
  have := word.toNat_lt
  simp only [nibble, Digit.val_ofNat, Nat.shiftRight_eq_div_pow]
  omega

/-- The second digit of a word. -/
lemma val_nibble_two (word : UInt16) : (nibble word 2).val = word.toNat / 256 % 16 := by
  simp only [nibble, Digit.val_ofNat, Nat.shiftRight_eq_div_pow]

/-- The third digit of a word. -/
lemma val_nibble_one (word : UInt16) : (nibble word 1).val = word.toNat / 16 % 16 := by
  simp only [nibble, Digit.val_ofNat, Nat.shiftRight_eq_div_pow]

/-- The last digit of a word. -/
lemma val_nibble_zero (word : UInt16) : (nibble word 0).val = word.toNat % 16 := by
  simp only [nibble, Digit.val_ofNat, Nat.shiftRight_eq_div_pow]
  omega

/-- The parts of a word can be read off its code if it is a digit and an address. -/
lemma parts_of_wordNNN {word : UInt16} {lead : Nat} {target : Address}
    (e : wordNNN lead target = word.toNat) :
    (nibble word 3).val = lead ∧ lowAddress word = target := by
  unfold wordNNN at e
  rw [val_nibble_three, Fin.ext_iff, val_lowAddress]
  omega

/-- The parts of a word can be read off its code if it is two digits and a byte. -/
lemma parts_of_wordXNN {word : UInt16} {lead : Nat} {x : Register} {value : UInt8}
    (e : wordXNN lead x value = word.toNat) :
    (nibble word 3).val = lead ∧ nibble word 2 = x ∧ lowByte word = value := by
  have := value.toNat_lt
  unfold wordXNN at e
  rw [val_nibble_three, Fin.ext_iff, val_nibble_two, ← UInt8.toNat_inj, toNat_lowByte]
  omega

/-- The parts of a word can be read off its code if it is four digits. -/
lemma parts_of_wordXYN {word : UInt16} {lead : Nat} {x y : Register} {last : Digit}
    (e : wordXYN lead x y last = word.toNat) :
    (nibble word 3).val = lead ∧ nibble word 2 = x ∧ nibble word 1 = y ∧
      nibble word 0 = last := by
  unfold wordXYN at e
  simp only [Fin.ext_iff, val_nibble_three, val_nibble_two, val_nibble_one, val_nibble_zero]
  omega

/-- A word with its first digit is that digit and an address. -/
lemma wordNNN_parts {word : UInt16} {lead : Nat} (h : (nibble word 3).val = lead) :
    wordNNN lead (lowAddress word) = word.toNat := by
  rw [val_nibble_three] at h
  rw [wordNNN, val_lowAddress]
  omega

/-- A word with its first digit is that digit, another one and a byte. -/
lemma wordXNN_parts {word : UInt16} {lead : Nat} {value : UInt8}
    (h : (nibble word 3).val = lead) (low : (lowByte word).toNat = value.toNat) :
    wordXNN lead (nibble word 2) value = word.toNat := by
  rw [val_nibble_three] at h
  rw [toNat_lowByte] at low
  rw [wordXNN, val_nibble_two]
  omega

/-- A word with its first digit is that digit and three others. -/
lemma wordXYN_parts {word : UInt16} {lead : Nat} {last : Digit}
    (h : (nibble word 3).val = lead) (low : (nibble word 0).val = last.val) :
    wordXYN lead (nibble word 2) (nibble word 1) last = word.toNat := by
  rw [val_nibble_three] at h
  rw [val_nibble_zero] at low
  rw [wordXYN, val_nibble_two, val_nibble_one]
  omega

/-- Decoding a word of the arithmetic group loses nothing. -/
lemma code_decodeArithmetic {word : UInt16} (lead : (nibble word 3).val = 8) :
    (decodeArithmetic word).code = word.toNat := by
  unfold decodeArithmetic
  split <;> first | exact wordXYN_parts lead ‹_› | rfl

/-- Decoding a word of the machine group loses nothing. -/
lemma code_decodeMachine {word : UInt16} (lead : (nibble word 3).val = 15) :
    (decodeMachine word).code = word.toNat := by
  unfold decodeMachine
  split <;> first | exact wordXNN_parts lead ‹_› | rfl

/-- Every word is what its instruction is written as. -/
lemma code_decode (word : UInt16) : (decode word).code = word.toNat := by
  unfold decode
  split
  case h_1 =>
    split
    · subst word; rfl
    · split
      · subst word; rfl
      · rfl
  case h_6 lead | h_10 lead =>
    split
    · exact wordXYN_parts lead ‹_›
    · rfl
  case h_9 lead => exact code_decodeArithmetic lead
  case h_14 lead => exact wordXYN_parts lead rfl
  case h_15 lead =>
    split
    · rename_i low
      exact wordXNN_parts lead (by rw [low])
    · split
      · rename_i low
        exact wordXNN_parts lead (by rw [low])
      · rfl
  case h_16 =>
    apply code_decodeMachine
    have := (nibble word 3).isLt
    simp only [imp_false] at *
    omega
  all_goals first | exact wordNNN_parts ‹_› | exact wordXNN_parts ‹_› rfl

/-- What an instruction of the set is written as decodes to it. -/
lemma decode_of_code {ins : Instruction} {word : UInt16} (defined : ins.IsDefined)
    (e : ins.code = word.toNat) : decode word = ins := by
  cases ins with
  | clear =>
    have e : word = 0x00E0 := UInt16.toNat_inj.1 e.symm
    subst e; rfl
  | ret =>
    have e : word = 0x00EE := UInt16.toNat_inj.1 e.symm
    subst e; rfl
  | unknown => exact defined.elim
  | jump | call | setIndex | jumpOffset =>
    simp only [code] at e
    obtain ⟨lead, target⟩ := parts_of_wordNNN e
    simp only [decode, lead, target]
  | skipEqual | skipUnequal | draw =>
    simp only [code] at e
    obtain ⟨lead, first, second, last⟩ := parts_of_wordXYN e
    simp [decode, lead, first, second, last]
  | copy | or | and | xor | add | sub | shiftRight | subFrom | shiftLeft =>
    simp only [code] at e
    obtain ⟨lead, first, second, last⟩ := parts_of_wordXYN e
    simp only [decode, decodeArithmetic, lead, first, second, last]
    rfl
  | _ =>
    simp only [code] at e
    obtain ⟨lead, first, low⟩ := parts_of_wordXNN e
    simp [decode, decodeMachine, lead, first, low]

/-- The row of a word is the instruction that it decodes to. -/
lemma describes_decode (word : UInt16) : (decode word).Describes word := by
  refine ⟨code_decode word, ?_⟩
  intro other defined e
  exact (decode_of_code defined e).symm

/-- A word has one row only. -/
lemma Describes.decode_eq {ins : Instruction} {word : UInt16} (row : ins.Describes word) :
    decode word = ins := by
  by_cases defined : (decode word).IsDefined
  · exact row.2 _ defined (code_decode word)
  · cases ins with
    | unknown w =>
      have e := code_decode word
      cases h : decode word with
      | unknown w' =>
        rw [h] at e
        have e' : w' = w := UInt16.toNat_inj.1 (e.trans row.1.symm)
        rw [e']
      | _ => exact absurd (by rw [h]; trivial) defined
    | _ => exact decode_of_code trivial row.1

end Chip8.Instruction
