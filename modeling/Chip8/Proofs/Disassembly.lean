import Chip8.Proofs.Assembler
import Chip8.Proofs.Faults
import Chip8.Proofs.Rounding
import Mathlib.Data.List.GetD
/-!
# Listings read back

A line of a listing is taken apart again at its blanks (`addressColumn_columns` and the lemmas that
follow). Places are counted in double precision, which tells the addresses of all bytes apart as
long as they do not exceed `2 ^ 53` (`Reaches`). So far a line shows the bytes that it stands for
(`lineOf_eq`), and the listing has lost nothing but a last odd byte (`listing_lossless`).
-/

namespace Chip8

namespace Place

variable {n j w : Nat}

/-- A place is written as the number that names it. -/
lemma hex_ofNumber (x : Number) : (ofNumber x).hex w = x.hex w := by
  cases x with
  | finite q =>
    by_cases whole : q.den = 1
    · simp only [ofNumber, Number.toInt?, if_pos whole]
      split
      · simp only [hex, Number.hex, if_pos whole]
      · rfl
    · simp only [ofNumber, Number.toInt?, if_neg whole, hex]
  | _ => rfl

/-- Places are counted on in double precision. -/
lemma plus_ofNumber : (ofNumber (.finite n)).plus j = ofNumber (.binary64 (n + j : Nat)) := by
  have sum : ((n + j : Nat) : Rat) = n + j := Rat.natCast_add n j
  rw [ofNumber_nat]
  split
  case isTrue counted =>
    rw [plus]
    split
    case isTrue reached =>
      have low : n + j ≤ 2 ^ 53 := by
        simp only [isCounted, Bool.and_eq_true, decide_eq_true_eq] at reached
        omega
      rw [Number.binary64_of_le low]
      exact (ofNumber_int reached).symm
    case isFalse => rfl
  case isFalse =>
    rw [plus, Number.add, sum]

/-- Places can be counted on as far as the limit. -/
lemma plus_of_le (low : n + j ≤ 2 ^ 53) :
    (ofNumber (.finite n)).plus j = ofNumber (.finite (n + j : Nat)) := by
  rw [plus_ofNumber, Number.binary64_of_le low]

/-- Distances can be told as far as the limit. -/
lemma distance?_of_le (low : j ≤ 2 ^ 53) :
    (ofNumber (.finite n)).distance? (ofNumber (.finite (n + j : Nat))) = some j := by
  have difference : ((n + j : Nat) : Rat) + -(n : Rat) = j := by
    rw [Rat.natCast_add]
    grind
  have back : ((Number.finite (n + j : Nat)).add .binary64 (Number.finite n).negate).toNat? =
      some j := by
    rw [Number.negate, Number.add, difference, Number.binary64_of_le low, Number.toNat?,
      show (Number.finite (j : Rat)).toInt? = some (j : Int) from Number.toInt?_finite_int j]
    simp
  simp only [ofNumber_nat]
  split <;> split
  case isTrue.isTrue =>
    rw [distance?, if_pos (Int.ofNat_le.2 (Nat.le_add_right n j))]
    exact congrArg some (by omega)
  all_goals exact back

end Place

namespace Instruction

/-- The address at the front of a line. -/
def addressColumn (line : String) : String := String.ofList (line.toList.takeWhile (· ≠ ' '))

/-- The four digits of the word in a line. -/
def wordColumn (line : String) : String :=
  String.ofList (((line.toList.dropWhile (· ≠ ' ')).drop 2).take 4)

/-- The instruction at the end of a line. -/
def textColumn (line : String) : String :=
  String.ofList ((line.toList.dropWhile (· ≠ ' ')).drop 8)

/-- The number that hexadecimal digits write. -/
def valueOf (digits : String) : Nat := Number.digitsValue 16 digits.toList

/-- The two bytes of the word in a line. -/
def bytesOf (line : String) : List UInt8 :=
  [.ofNat (valueOf (wordColumn line) / 256), .ofNat (valueOf (wordColumn line))]

section

variable {address digits text : String}

/-- The characters of a line are those of its columns with two blanks in between. -/
lemma toList_columns : (columns address digits text).toList =
    address.toList ++ ' ' :: ' ' :: (digits.toList ++ ' ' :: ' ' :: text.toList) := by
  simp [columns]

/-- Behind the first column there is a blank. -/
lemma dropWhile_columns (solid : ' ' ∉ address.toList) :
    (columns address digits text).toList.dropWhile (· ≠ ' ') =
      ' ' :: ' ' :: (digits.toList ++ ' ' :: ' ' :: text.toList) := by
  rw [toList_columns, List.dropWhile_append_of_pos (Text.ne_blank_of_mem solid)]
  rfl

/-- The first column of a line is the address. -/
lemma addressColumn_columns (solid : ' ' ∉ address.toList) :
    addressColumn (columns address digits text) = address := by
  rw [addressColumn, toList_columns, List.takeWhile_append_of_pos (Text.ne_blank_of_mem solid)]
  exact (congrArg String.ofList (List.append_nil _)).trans String.ofList_toList

/-- The second column of a line is the word. -/
lemma wordColumn_columns (solid : ' ' ∉ address.toList) (four : digits.toList.length = 4) :
    wordColumn (columns address digits text) = digits := by
  rw [wordColumn, dropWhile_columns solid, List.drop_succ_cons, List.drop_succ_cons, List.drop_zero,
    List.take_left' four, String.ofList_toList]

/-- The third column of a line is the text. -/
lemma textColumn_columns (solid : ' ' ∉ address.toList) (four : digits.toList.length = 4) :
    textColumn (columns address digits text) = text := by
  have rest : (digits.toList ++ ' ' :: ' ' :: text.toList).drop (4 + 2) = text.toList := by
    rw [← List.drop_drop, List.drop_left' four]
    rfl
  rw [textColumn, dropWhile_columns solid, List.drop_succ_cons, List.drop_succ_cons, rest,
    String.ofList_toList]

end

section

variable {origin k : Nat} {bytes : List UInt8} {high low : UInt8}

/-- There are no blanks among digits. -/
lemma blank_not_mem_hex (w n : Nat) : ' ' ∉ (Text.hex w n).toList :=
  Text.blank_not_mem fun _ member => (Operand.isMark_of_mem_hex member).1

/-- There are no blanks in an address, not even in one that is out of range. -/
lemma blank_not_mem_hex_binary64 (n : Nat) : ' ' ∉ ((Number.binary64 n).hex 3).toList := by
  rw [Number.binary64_nat]
  split
  · decide
  · rw [show (Number.finite (Number.rounded n)).hex 3 = Text.hex 3 (Number.rounded n) from rfl]
    exact blank_not_mem_hex 3 _

/-- A word is read with its higher byte first. -/
lemma toNat_wordOf (high low : UInt8) :
    (wordOf high low).toNat = 256 * high.toNat + low.toNat := by
  have := high.toNat_lt
  have := low.toNat_lt
  simp only [wordOf, UInt16.toNat_add, UInt16.toNat_mul, UInt8.toNat_toUInt16, UInt16.reduceToNat]
  omega

/-- The address of a line is counted in double precision. -/
lemma lineOf_columns (program : Array UInt8) (origin k : Nat) :
    ∃ word : UInt16, lineOf program (.ofNumber (.finite origin)) k =
      columns ((Number.binary64 (origin + 2 * k : Nat)).hex 3) (Text.hex 4 word.toNat)
        (decode word).text := by
  simp only [lineOf, listingLine, Place.plus_ofNumber, Place.hex_ofNumber]
  exact ⟨_, rfl⟩

/-- The byte at a place is that of its distance from the first one. -/
lemma byteAt_of_le (bytes : List UInt8) {j : Nat} (low : j ≤ 2 ^ 53) :
    byteAt bytes.toArray (.ofNumber (.finite origin)) (.ofNumber (.finite (origin + j : Nat))) =
      bytes.getD j 0 := by
  rw [byteAt, Place.distance?_of_le low]
  simp

/-- The word of two bytes of a program. -/
def wordAt (bytes : List UInt8) (k : Nat) : UInt16 :=
  wordOf (bytes.getD (2 * k) 0) (bytes.getD (2 * k + 1) 0)

/-- Where addresses are exact a line shows its address and its two bytes. -/
lemma lineOf_eq (bytes : List UInt8) (reached : origin + 2 * k + 1 ≤ 2 ^ 53) :
    lineOf bytes.toArray (.ofNumber (.finite origin)) k =
      columns (Text.hex 3 (origin + 2 * k : Nat)) (Text.hex 4 (wordAt bytes k).toNat)
        (decode (wordAt bytes k)).text := by
  have first : origin + 2 * k ≤ 2 ^ 53 := by omega
  rw [lineOf, listingLine, Place.plus_of_le first, Place.plus_of_le reached, Place.hex_ofNumber,
    byteAt_of_le bytes (by omega), Nat.add_assoc, byteAt_of_le bytes (by omega)]
  rfl

/-- A word is printed with four digits. -/
lemma length_hex_word (word : UInt16) : (Text.hex 4 word.toNat).toList.length = 4 :=
  Text.length_hex word.toNat_lt

/-- The bytes of a line are those of its word. -/
lemma bytesOf_columns {address text : String} (solid : ' ' ∉ address.toList) :
    bytesOf (columns address (Text.hex 4 (wordOf high low).toNat) text) = [high, low] := by
  have := low.toNat_lt
  have value : valueOf (Text.hex 4 (wordOf high low).toNat) = 256 * high.toNat + low.toNat := by
    rw [valueOf, Text.digitsValue_hex, toNat_wordOf]
  have upper : UInt8.ofNat ((256 * high.toNat + low.toNat) / 256) = high := by
    rw [show (256 * high.toNat + low.toNat) / 256 = high.toNat by omega, UInt8.ofNat_toNat]
  have lower : UInt8.ofNat (256 * high.toNat + low.toNat) = low := by
    rw [← UInt8.toNat_inj, UInt8.toNat_ofNat']
    omega
  rw [bytesOf, wordColumn_columns solid (length_hex_word _), value, upper, lower]

/-- A word determines its two bytes. -/
lemma bytes_of_wordOf {high' low' : UInt8} (same : wordOf high low = wordOf high' low') :
    high = high' ∧ low = low' := by
  have := low.toNat_lt
  have := low'.toNat_lt
  have same := congrArg UInt16.toNat same
  rw [toNat_wordOf, toNat_wordOf] at same
  rw [← UInt8.toNat_inj, ← UInt8.toNat_inj]
  omega

/-- The pairs of bytes of a program are its bytes up to a last odd one. -/
lemma flatMap_pairs {n : Nat} (inside : 2 * n ≤ bytes.length) :
    (List.range n).flatMap (fun k => [bytes.getD (2 * k) 0, bytes.getD (2 * k + 1) 0]) =
      bytes.take (2 * n) := by
  induction n with
  | zero => rfl
  | succ n ih =>
    have second : 2 * n + 1 < bytes.length := by omega
    rw [List.range_succ, List.flatMap_append, ih (by omega), List.flatMap_singleton,
      Nat.mul_succ, List.take_succ_eq_append_getElem second,
      List.take_succ_eq_append_getElem (Nat.lt_of_succ_lt second), List.append_assoc,
      List.getD_eq_getElem _ _ second, List.getD_eq_getElem _ _ (Nat.lt_of_succ_lt second)]
    rfl

/-- Whether the addresses of all bytes are exact in double precision, the first byte being at an
origin and a last odd byte not counting. -/
def Reaches (origin : Nat) (bytes : List UInt8) : Prop :=
  origin + 2 * (bytes.length / 2) ≤ 2 ^ 53 + 1

/-- The listing of a program that starts at an origin. -/
def listingAt (origin : Nat) (bytes : List UInt8) : List String :=
  listing (.ofNumber (.finite origin)) bytes

/-- As far as places can be counted, a listing has a line for each word. -/
lemma listingAt_eq (reached : Reaches origin bytes) :
    listingAt origin bytes = (List.range (bytes.length / 2)).map fun k =>
      columns (Text.hex 3 (origin + 2 * k : Nat)) (Text.hex 4 (wordAt bytes k).toNat)
        (decode (wordAt bytes k)).text := by
  refine List.map_congr_left fun k member => ?_
  rw [Reaches] at reached
  rw [List.mem_range] at member
  exact lineOf_eq bytes (by omega)

/-- The bytes of the lines of a listing are those of its words. -/
lemma flatMap_bytesOf (reached : Reaches origin bytes) :
    (listingAt origin bytes).flatMap bytesOf = bytes.take (2 * (bytes.length / 2)) := by
  rw [listingAt_eq reached, List.flatMap_map, ← flatMap_pairs (Nat.mul_div_le _ _)]
  exact congrArg (List.flatMap · _) (funext fun k => bytesOf_columns (blank_not_mem_hex 3 _))

/-- The texts of the lines of a listing are those of its words. -/
lemma map_textColumn (reached : Reaches origin bytes) :
    (listingAt origin bytes).map textColumn =
      (List.range (bytes.length / 2)).map fun k => (decode (wordAt bytes k)).text := by
  rw [listingAt_eq reached, List.map_map]
  exact congrArg (List.map · _) (funext fun k =>
    textColumn_columns (blank_not_mem_hex 3 _) (length_hex_word _))

/-- A word that is no instruction has question marks for its text. -/
lemma text_unknown (word : UInt16) : (unknown word).text = "???" := by
  rw [← String.toList_inj, toList_text, operands, ending, List.append_nil, mnemonic]

/-- An instruction with another text than that of unknown words is one of the set. -/
lemma isDefined_of_text {ins : Instruction} (known : ins.text ≠ "???") : ins.IsDefined := by
  cases ins with
  | unknown word => exact absurd (text_unknown word) known
  | _ => trivial

/-- Words of instructions with the same text are the same. -/
lemma eq_of_text_decode {word word' : UInt16} (known : (decode word).text ≠ "???")
    (same : (decode word).text = (decode word').text) : word = word' := by
  have ins := eq_of_text (isDefined_of_text known) (isDefined_of_text (same ▸ known)) same
  rw [← UInt16.toNat_inj, ← code_decode word, ins, code_decode]

/-- Programs whose listings have the same texts have the same words. -/
lemma wordAt_eq {origin' : Nat} {bytes' : List UInt8} (reached : Reaches origin bytes)
    (reached' : Reaches origin' bytes') (length : bytes'.length = bytes.length)
    (known : "???" ∉ (listingAt origin bytes).map textColumn)
    (same : (listingAt origin bytes).map textColumn = (listingAt origin' bytes').map textColumn)
    {k : Nat} (inside : k < bytes.length / 2) : wordAt bytes k = wordAt bytes' k := by
  rw [map_textColumn reached] at known
  rw [map_textColumn reached, map_textColumn reached', length] at same
  have text := List.map_inj_left.1 same k (List.mem_range.2 inside)
  refine eq_of_text_decode (fun unknown => known ?_) text
  exact List.mem_map.2 ⟨k, List.mem_range.2 inside, unknown⟩

/-- Bytes that make the same words are the same. -/
lemma take_eq_of_wordAt {bytes' : List UInt8} {n : Nat} (inside : 2 * n ≤ bytes.length)
    (inside' : 2 * n ≤ bytes'.length) (same : ∀ k < n, wordAt bytes k = wordAt bytes' k) :
    bytes.take (2 * n) = bytes'.take (2 * n) := by
  rw [← flatMap_pairs inside, ← flatMap_pairs inside']
  refine List.flatMap_congr fun k member => ?_
  obtain ⟨first, second⟩ := bytes_of_wordOf (same k (List.mem_range.1 member))
  rw [first, second]

/-- What a line says of an address and the word there: the columns, and the numbers in them. -/
structure Shows (line : String) (place : Nat) (opcode : UInt16) : Prop where
  address : addressColumn line = Text.hex 3 place ∧ valueOf (addressColumn line) = place
  word : wordColumn line = Text.hex 4 opcode.toNat ∧ valueOf (wordColumn line) = opcode.toNat
  digits : (wordColumn line).length = 4
  text : textColumn line = (decode opcode).text

/-- A line of columns shows what is in them. -/
lemma shows_columns (place : Nat) (opcode : UInt16) :
    Shows (columns (Text.hex 3 place) (Text.hex 4 opcode.toNat) (decode opcode).text) place
      opcode := by
  have solid := blank_not_mem_hex 3 place
  have four := length_hex_word opcode
  constructor
  · rw [addressColumn_columns solid]
    exact ⟨rfl, Text.digitsValue_hex 3 place⟩
  · rw [wordColumn_columns solid four]
    exact ⟨rfl, Text.digitsValue_hex 4 opcode.toNat⟩
  · rwa [wordColumn_columns solid four]
  · exact textColumn_columns solid four

/-- A listing has a line for every two bytes. Each line shows an address, counted in double
precision, and a word with the text of the instruction that the word decodes to. Where the
addresses are exact, the word is that of the two bytes at the address, the words of all lines are
the bytes without a last odd one, and no other program of the same even length has the same texts
if all of its words are known. -/
theorem listing_lossless (origin : Nat) (bytes : List UInt8) :
    (listingAt origin bytes).length = bytes.length / 2 ∧
    (∀ k (h : k < (listingAt origin bytes).length), ∃ word : UInt16,
      let line := (listingAt origin bytes)[k]
      addressColumn line = (Number.binary64 (origin + 2 * k : Nat)).hex 3 ∧
      wordColumn line = Text.hex 4 word.toNat ∧ textColumn line = (decode word).text ∧
      line = columns (addressColumn line) (wordColumn line) (textColumn line)) ∧
    (Reaches origin bytes →
      (∀ k (h : k < (listingAt origin bytes).length) (inside : 2 * k + 1 < bytes.length),
        Shows (listingAt origin bytes)[k] (origin + 2 * k)
          (wordOf bytes[2 * k] bytes[2 * k + 1])) ∧
      (listingAt origin bytes).flatMap bytesOf = bytes.take (2 * (bytes.length / 2)) ∧
      ∀ origin' bytes', Reaches origin' bytes' → bytes'.length = bytes.length →
        bytes.length % 2 = 0 → "???" ∉ (listingAt origin bytes).map textColumn →
        (listingAt origin bytes).map textColumn = (listingAt origin' bytes').map textColumn →
        bytes = bytes') := by
  refine ⟨length_listing _ _, ?_, fun reached => ⟨?_, flatMap_bytesOf reached, ?_⟩⟩
  · intro k h
    obtain ⟨word, line⟩ := lineOf_columns bytes.toArray origin k
    have solid := blank_not_mem_hex_binary64 (origin + 2 * k)
    have four := length_hex_word word
    rw [show (listingAt origin bytes)[k] = lineOf bytes.toArray (.ofNumber (.finite origin)) k by
      simp [listingAt, listing], line]
    refine ⟨word, addressColumn_columns solid, wordColumn_columns solid four,
      textColumn_columns solid four, ?_⟩
    rw [addressColumn_columns solid, wordColumn_columns solid four, textColumn_columns solid four]
  · intro k h inside
    have line : (listingAt origin bytes)[k] =
        columns (Text.hex 3 (origin + 2 * k : Nat)) (Text.hex 4 (wordAt bytes k).toNat)
          (decode (wordAt bytes k)).text := by
      simp only [listingAt_eq reached, List.getElem_map, List.getElem_range]
    have word : wordAt bytes k = wordOf bytes[2 * k] bytes[2 * k + 1] := by
      rw [wordAt, List.getD_eq_getElem _ _ inside,
        List.getD_eq_getElem _ _ (Nat.lt_of_succ_lt inside)]
    rw [line, ← word]
    exact shows_columns _ _
  · intro origin' bytes' reached' length even known same
    -- Lines with the same text are of the same word, and the words are all of the bytes.
    have whole : 2 * (bytes.length / 2) = bytes.length := by omega
    have words : ∀ k < bytes.length / 2, wordAt bytes k = wordAt bytes' k :=
      fun k inside => wordAt_eq reached reached' length known same inside
    have taken := take_eq_of_wordAt (by omega) (by omega) words
    rwa [whole, List.take_length, ← length, List.take_length] at taken

/-- A program that sets a register over and over. -/
def looping : List UInt8 := [0x60, 0x05, 0x12, 0x00]

/-- What its listing shows makes, from another origin, the same texts again. -/
theorem listing_lossless_looping :
    let shown := (listingAt 0x200 looping).flatMap bytesOf
    Reaches 0x200 looping ∧ Reaches 0x300 shown ∧
    listingAt 0x200 looping = ["200  6005  LD V0, #$05", "202  1200  JP $200"] ∧
    (∃ h : 1 < (listingAt 0x200 looping).length,
      Shows (listingAt 0x200 looping)[1] 0x202 (wordOf 0x12 0x00)) ∧
    shown = looping.take 4 ∧ "???" ∉ (listingAt 0x200 looping).map textColumn ∧
    (listingAt 0x200 looping).map textColumn = (listingAt 0x300 shown).map textColumn ∧
    looping = shown := by
  intro shown
  have near : Reaches 0x200 looping := by unfold Reaches; decide
  have more : 1 < (listingAt 0x200 looping).length := by decide +kernel
  have known : "???" ∉ (listingAt 0x200 looping).map textColumn := by decide +kernel
  obtain ⟨-, -, exactly⟩ := listing_lossless 0x200 looping
  obtain ⟨lines, whole, only⟩ := exactly near
  have length : shown.length = looping.length := congrArg List.length whole
  have far : Reaches 0x300 shown := by
    rw [Reaches, length]
    decide
  have same : (listingAt 0x200 looping).map textColumn =
      (listingAt 0x300 shown).map textColumn := by
    rw [show shown = looping.take 4 from whole]
    decide +kernel
  exact ⟨near, far, by decide +kernel, ⟨more, lines 1 more (by decide)⟩, whole, known, same,
    only 0x300 shown far length (by decide) known same⟩

/-- From `2 ^ 53` on there are bytes without an address of their own: the second byte is read where
the first one is, and a listing does not show it. -/
theorem listing_out_of_reach :
    listingAt (2 ^ 53) [0x12, 0x34] = ["20000000000000  1212  JP $212"] ∧
    (listingAt (2 ^ 53) [0x12, 0x34]).flatMap bytesOf ≠ [0x12, 0x34] := by
  decide +kernel

end

end Instruction

end Chip8
