import Chip8.Instruction.Listing
import Chip8.Proofs.Encoding
import Chip8.Proofs.Hexadecimal
import Chip8.Proofs.Words
/-!
# Assembling

Assembler notation is read back. Hexadecimal digits give their number (`digitsValue_hex`), a single
operand is known by its text (`Operand.ofChars_chars`), and operands are what stands between the
commas (`fields_enumerate`). The mnemonic with its operands says which instruction is meant
(`assemble?_eq`), although a few mnemonics stand for many. So instructions of the set with the same
text are the same (`eq_of_text`).
-/

namespace Chip8

namespace Text

variable {cs : List Char}

/-- The digits of a number are no blanks. -/
lemma isBlank_upperDigit : ∀ d < 16, isBlank (upperDigit d) = false := by
  decide

/-- The digits of a number are no commas. -/
lemma upperDigit_ne_comma : ∀ d < 16, upperDigit d ≠ ',' := by
  decide

/-- Characters none of which is blank do not have a space among them. -/
lemma blank_not_mem (solid : ∀ c ∈ cs, isBlank c = false) : ' ' ∉ cs :=
  fun member => absurd (solid ' ' member) (by decide)

/-- Characters without a space are all different from it. -/
lemma ne_blank_of_mem (solid : ' ' ∉ cs) : ∀ c ∈ cs, decide (c ≠ ' ') = true :=
  fun _ member => decide_eq_true fun blank => solid (blank ▸ member)

/-- A text that neither starts nor ends with a blank is left alone by trimming. -/
lemma trimChars_of_ends (first : ∀ c ∈ cs.head?, isBlank c = false)
    (last : ∀ c ∈ cs.getLast?, isBlank c = false) : trimChars cs = cs := by
  have back : cs.rdropWhile isBlank = cs := by
    refine List.rdropWhile_eq_self_iff.2 fun some_ => ?_
    rw [last _ (List.getLast_mem_getLast? some_)]
    decide
  rw [trimChars, dropWhile_of_head first]
  exact back

end Text

/-- What an instruction can name: a register, a number, or a part of the machine. -/
inductive Operand where
  | register (x : Register)
  | byte (value : UInt8)
  | address (target : Address)
  | rows (count : Digit)
  | index
  /-- What the index points at. -/
  | indexed
  | delay
  | sound
  | key
  | glyph
  | decimal
deriving DecidableEq, Repr

namespace Operand

/-- An operand in assembler notation. -/
def text : Operand → String
  | register x => x.name
  | byte value => "#$" ++ Text.hex 2 value.toNat
  | address target => Instruction.addressText target
  | rows count => toString count.val
  | index => "I"
  | indexed => "[I]"
  | delay => "DT"
  | sound => "ST"
  | key => "K"
  | glyph => "F"
  | decimal => "B"

/-- The operand of a text. -/
def ofChars : List Char → Operand
  | 'V' :: digits => register (.ofNat (Number.digitsValue 16 digits))
  | '#' :: '$' :: digits => byte (.ofNat (Number.digitsValue 16 digits))
  | '$' :: digits => address (.ofNat 4096 (Number.digitsValue 16 digits))
  | ['I'] => index
  | ['[', 'I', ']'] => indexed
  | ['D', 'T'] => delay
  | ['S', 'T'] => sound
  | ['K'] => key
  | ['F'] => glyph
  | ['B'] => decimal
  | digits => rows (.ofNat (Number.digitsValue 10 digits))

/-- The characters of an operand. -/
def chars (o : Operand) : List Char := o.text.toList

/-- An operand is known by its text. -/
lemma ofChars_chars (o : Operand) : ofChars o.chars = o := by
  cases o with
  | register x =>
    have parts : (register x).chars = 'V' :: (Text.hex 1 x.val).toList := String.toList_append
    rw [parts, ofChars, Text.digitsValue_hex]
    exact congrArg register (Fin.ext (Nat.mod_eq_of_lt x.isLt))
  | byte value =>
    have parts : (byte value).chars = '#' :: '$' :: (Text.hex 2 value.toNat).toList :=
      String.toList_append
    rw [parts, ofChars, Text.digitsValue_hex, UInt8.ofNat_toNat]
  | address target =>
    have parts : (address target).chars = '$' :: (Text.hex 3 target.val).toList :=
      String.toList_append
    rw [parts, ofChars, Text.digitsValue_hex]
    exact congrArg address (Fin.ext (Nat.mod_eq_of_lt target.isLt))
  | rows count =>
    have all : ∀ count : Digit, ofChars (rows count).chars = rows count := by decide
    exact all count
  | _ => rfl

/-- Neither a blank nor a comma. -/
def IsMark (c : Char) : Prop := Text.isBlank c = false ∧ c ≠ ','

/-- It can be decided whether a character is neither a blank nor a comma. -/
instance : DecidablePred IsMark := fun c =>
  inferInstanceAs (Decidable (Text.isBlank c = false ∧ c ≠ ','))

/-- What is checked for all characters holds of each of them. -/
lemma forall_isMark {cs : List Char} (h : cs.all fun c => decide (IsMark c)) :
    ∀ c ∈ cs, IsMark c := by
  simpa using h

/-- The digits of a number are neither blanks nor commas. -/
lemma isMark_of_mem_hex {w n : Nat} {c : Char} (member : c ∈ (Text.hex w n).toList) :
    IsMark c := by
  obtain ⟨d, small, rfl⟩ := Text.mem_hex member
  exact ⟨Text.isBlank_upperDigit d small, Text.upperDigit_ne_comma d small⟩

/-- There are neither blanks nor commas in an operand. -/
lemma isMark_of_mem_chars (o : Operand) : ∀ c ∈ o.chars, IsMark c := by
  have named (front : String) {w n : Nat} (marks : front.toList.all fun c => decide (IsMark c)) :
      ∀ c ∈ (front ++ Text.hex w n).toList, IsMark c := by
    intro c member
    rw [String.toList_append, List.mem_append] at member
    exact member.elim (forall_isMark marks c) isMark_of_mem_hex
  cases o with
  | register x => exact named "V" (by decide)
  | byte value => exact named "#$" (by decide)
  | address target => exact named "$" (by decide)
  | rows count =>
    have all : ∀ count : Digit, (rows count).chars.all fun c => decide (IsMark c) := by decide
    exact forall_isMark (all count)
  | _ => exact forall_isMark (by decide)

/-- An operand has some text. -/
lemma chars_ne_nil (o : Operand) : o.chars ≠ [] := by
  intro empty
  -- An empty text would be read as no rows, which are written with a digit.
  have same : ofChars [] = o := by rw [← empty, ofChars_chars]
  rw [← same] at empty
  cases empty

/-- There are no commas in the text of an operand. -/
lemma comma_not_mem_chars (o : Operand) : ',' ∉ o.chars :=
  fun member => (isMark_of_mem_chars o _ member).2 rfl

/-- There are no blanks in the text of an operand. -/
lemma isBlank_of_mem_chars (o : Operand) : ∀ c ∈ o.chars, Text.isBlank c = false :=
  fun c member => (isMark_of_mem_chars o c member).1

/-- Trimming leaves the text of an operand as it is. -/
lemma trimChars_chars (o : Operand) : Text.trimChars o.chars = o.chars :=
  Text.trimChars_of_surrounds ⟨[], [], (List.append_nil _).symm, nofun, nofun⟩
    (isBlank_of_mem_chars o)

/-- Trimming takes a blank away in front of the text of an operand. -/
lemma trimChars_blank_chars (o : Operand) : Text.trimChars (' ' :: o.chars) = o.chars :=
  Text.trimChars_of_surrounds
    ⟨[' '], [], (List.append_nil _).symm, List.forall_mem_singleton.2 rfl, nofun⟩
    (isBlank_of_mem_chars o)

/-- Operands with commas between them. -/
def enumerate : List Operand → List Char
  | [] => []
  | [o] => o.chars
  | o :: p :: others => o.chars ++ ',' :: ' ' :: enumerate (p :: others)

/-- Operands that are separated by commas are the fields of their text, all but the first behind a
blank. -/
lemma fields_enumerate (o : Operand) (others : List Operand) :
    Text.fields ',' (enumerate (o :: others)) =
      o.chars :: others.map fun p => ' ' :: p.chars := by
  induction others generalizing o with
  | nil => exact Text.fields_of_not_mem (comma_not_mem_chars o)
  | cons p others ih =>
    rw [enumerate, Text.fields_append_sep, Text.fields_of_not_mem (comma_not_mem_chars o),
      Text.fields, if_neg (by decide), ih p]
    rfl

/-- The operands that stand between the commas of a text. -/
def ofList (cs : List Char) : List Operand :=
  (Text.fields ',' cs).map fun field => ofChars (Text.trimChars field)

/-- Operands can be read off their text. -/
lemma ofList_enumerate (o : Operand) (others : List Operand) :
    ofList (enumerate (o :: others)) = o :: others := by
  rw [ofList, fields_enumerate, List.map_cons, List.map_map, trimChars_chars, ofChars_chars]
  refine congrArg (o :: ·) (List.map_id'' (fun p => ?_) others)
  rw [Function.comp_apply, trimChars_blank_chars, ofChars_chars]

/-- Operands have some text. -/
lemma enumerate_ne_nil (o : Operand) (others : List Operand) : enumerate (o :: others) ≠ [] := by
  cases others with
  | nil => exact chars_ne_nil o
  | cons p others => exact List.append_ne_nil_of_right_ne_nil _ (List.cons_ne_nil _ _)

/-- Operands do not end with a blank. -/
lemma isBlank_of_getLast {operands : List Operand} :
    ∀ c ∈ (enumerate operands).getLast?, Text.isBlank c = false := by
  induction operands using enumerate.induct with
  | case1 => nofun
  | case2 o => exact fun c last => isBlank_of_mem_chars o c (List.mem_of_getLast? last)
  | case3 o p others ih =>
    obtain ⟨c, rest, more⟩ := List.exists_cons_of_ne_nil (enumerate_ne_nil p others)
    rw [more] at ih
    rwa [enumerate, more, List.getLast?_append_cons, List.getLast?_cons_cons,
      List.getLast?_cons_cons]

end Operand

namespace Instruction

/-- The operands of an instruction in the order of the notation. -/
def operands : Instruction → List Operand
  | clear | ret | unknown _ => []
  | jump target | call target => [.address target]
  | jumpOffset target => [.register ⟨0, by decide⟩, .address target]
  | setIndex target => [.index, .address target]
  | skipEqualByte x value | skipUnequalByte x value | setByte x value | addByte x value
  | random x value => [.register x, .byte value]
  | skipEqual x y | skipUnequal x y | copy x y | or x y | and x y | xor x y | add x y | sub x y
  | shiftRight x y | subFrom x y | shiftLeft x y => [.register x, .register y]
  | draw x y rows => [.register x, .register y, .rows rows]
  | skipKeyDown x | skipKeyUp x => [.register x]
  | getDelay x => [.register x, .delay]
  | waitKey x => [.register x, .key]
  | setDelay x => [.delay, .register x]
  | setSound x => [.sound, .register x]
  | addIndex x => [.index, .register x]
  | setGlyph x => [.glyph, .register x]
  | storeDecimal x => [.decimal, .register x]
  | store x => [.indexed, .register x]
  | load x => [.register x, .indexed]

/-- The instruction of the set that a mnemonic and operands stand for. -/
def assemble? : String → List Operand → Option Instruction
  | "CLS", [] => some clear
  | "RET", [] => some ret
  | "JP", [.address target] => some (jump target)
  | "JP", [.register _, .address target] => some (jumpOffset target)
  | "CALL", [.address target] => some (call target)
  | "SE", [.register x, .byte value] => some (skipEqualByte x value)
  | "SE", [.register x, .register y] => some (skipEqual x y)
  | "SNE", [.register x, .byte value] => some (skipUnequalByte x value)
  | "SNE", [.register x, .register y] => some (skipUnequal x y)
  | "ADD", [.register x, .byte value] => some (addByte x value)
  | "ADD", [.register x, .register y] => some (add x y)
  | "ADD", [.index, .register x] => some (addIndex x)
  | "LD", [.register x, .byte value] => some (setByte x value)
  | "LD", [.register x, .register y] => some (copy x y)
  | "LD", [.register x, .delay] => some (getDelay x)
  | "LD", [.register x, .key] => some (waitKey x)
  | "LD", [.register x, .indexed] => some (load x)
  | "LD", [.index, .address target] => some (setIndex target)
  | "LD", [.delay, .register x] => some (setDelay x)
  | "LD", [.sound, .register x] => some (setSound x)
  | "LD", [.glyph, .register x] => some (setGlyph x)
  | "LD", [.decimal, .register x] => some (storeDecimal x)
  | "LD", [.indexed, .register x] => some (store x)
  | "OR", [.register x, .register y] => some (or x y)
  | "AND", [.register x, .register y] => some (and x y)
  | "XOR", [.register x, .register y] => some (xor x y)
  | "SUB", [.register x, .register y] => some (sub x y)
  | "SHR", [.register x, .register y] => some (shiftRight x y)
  | "SUBN", [.register x, .register y] => some (subFrom x y)
  | "SHL", [.register x, .register y] => some (shiftLeft x y)
  | "RND", [.register x, .byte mask] => some (random x mask)
  | "DRW", [.register x, .register y, .rows rows] => some (draw x y rows)
  | "SKP", [.register x] => some (skipKeyDown x)
  | "SKNP", [.register x] => some (skipKeyUp x)
  | _, _ => none

/-- No two instructions of the set share their mnemonic and their operands. -/
lemma assemble?_eq {ins : Instruction} (defined : ins.IsDefined) :
    assemble? ins.mnemonic ins.operands = some ins := by
  cases ins with
  | unknown => exact defined.elim
  | _ => rfl

/-- The operands of an instruction are printed as it has them. -/
lemma toList_operand (ins : Instruction) :
    ins.operand.toList = Operand.enumerate ins.operands := by
  have zero : Text.hex 1 0 = "0" := by
    rw [← String.toList_inj, show (0 : Int) = (0 : Nat) from rfl, Text.toList_hex, Text.base16]
    rfl
  cases ins <;>
    simp [operand, operands, Operand.enumerate, Operand.chars, Operand.text, registerByte,
      registerPair, Register.name, zero]

/-- The text of an instruction in a listing. -/
def text (ins : Instruction) : String := phrase ins.mnemonic ins.operand

/-- An instruction has a mnemonic. -/
lemma mnemonic_ne_nil (ins : Instruction) : ins.mnemonic.toList ≠ [] := by
  unfold mnemonic
  split <;> decide

/-- There are no blanks in a mnemonic. -/
lemma isBlank_of_mem_mnemonic (ins : Instruction) :
    ∀ c ∈ ins.mnemonic.toList, Text.isBlank c = false := by
  have solid : ins.mnemonic.toList.all fun c => !Text.isBlank c := by
    unfold mnemonic
    split <;> decide
  simpa using solid

/-- What stands behind the mnemonic. -/
def ending : List Operand → List Char
  | [] => []
  | o :: others => ' ' :: Operand.enumerate (o :: others)

/-- The text of an instruction before it is trimmed is its mnemonic and then its operands. -/
lemma toList_untrimmed (ins : Instruction) :
    (if ins.operand = "" then ins.mnemonic else ins.mnemonic ++ " " ++ ins.operand).toList =
      ins.mnemonic.toList ++ ending ins.operands := by
  have same := toList_operand ins
  cases list : ins.operands with
  | nil =>
    rw [list] at same
    rw [if_pos (String.toList_eq_nil_iff.1 same), ending, List.append_nil]
  | cons o others =>
    rw [list] at same
    have some_ : ins.operand ≠ "" := fun empty => by
      rw [empty] at same
      exact Operand.enumerate_ne_nil o others same.symm
    rw [if_neg some_, String.toList_append, String.toList_append, same, List.append_assoc]
    rfl

/-- Nothing is trimmed off a mnemonic with its operands. -/
lemma toList_text (ins : Instruction) :
    ins.text.toList = ins.mnemonic.toList ++ ending ins.operands := by
  rw [text, phrase, Text.trim, String.toList_ofList, toList_untrimmed]
  refine Text.trimChars_of_ends (fun c first => ?_) (fun c last => ?_)
  · rw [List.head?_append_of_ne_nil _ (mnemonic_ne_nil ins)] at first
    exact isBlank_of_mem_mnemonic ins c (List.mem_of_head? first)
  · cases list : ins.operands with
    | nil =>
      rw [list, ending, List.append_nil] at last
      exact isBlank_of_mem_mnemonic ins c (List.mem_of_getLast? last)
    | cons o others =>
      obtain ⟨d, rest, more⟩ := List.exists_cons_of_ne_nil (Operand.enumerate_ne_nil o others)
      rw [list, ending, more, List.getLast?_append_cons, List.getLast?_cons_cons, ← more] at last
      exact Operand.isBlank_of_getLast c last

/-- The instruction of the set that a text stands for. -/
def ofText? (text : String) : Option Instruction :=
  let mnemonic := String.ofList (text.toList.takeWhile (· ≠ ' '))
  let operands := match text.toList.dropWhile (· ≠ ' ') with
    | [] => []
    | _ :: rest => Operand.ofList rest
  assemble? mnemonic operands

/-- The text of an instruction of the set is read back. -/
lemma ofText?_text {ins : Instruction} (defined : ins.IsDefined) :
    ofText? ins.text = some ins := by
  have solid := Text.ne_blank_of_mem (Text.blank_not_mem (isBlank_of_mem_mnemonic ins))
  rw [← assemble?_eq defined, ofText?, toList_text, List.takeWhile_append_of_pos solid,
    List.dropWhile_append_of_pos solid]
  cases ins.operands with
  | nil => simp [ending]
  | cons o others => simp [ending, Operand.ofList_enumerate]

/-- Instructions of the set with the same text are the same. -/
lemma eq_of_text {ins other : Instruction} (defined : ins.IsDefined) (defined' : other.IsDefined)
    (same : ins.text = other.text) : ins = other :=
  Option.some.inj (by rw [← ofText?_text defined, same, ofText?_text defined'])

end Instruction

end Chip8
