import Chip8.Memory
import Mathlib.Tactic.Lemma
/-!
# Memory as a function of the address

`byteAt` is the view of the memory that later proofs use: the byte at an address, and zero beyond
the last one. Reads succeed exactly below `size` and give that byte, words are two of them
(`word_eq_ok_iff`), and a run of stores changes the bytes that it reaches and no others
(`byteAt_putAll`), where it stops at the end of memory (`fault_putAll`) or, in the protected region,
at once (`putAll_protected`). `byteAt_powerOn` and `byteAt_load` give the bytes that a program
finds.
-/

namespace Chip8.Memory

/-- The byte at an address; zero where there is none. -/
def byteAt (m : Memory) (a : Nat) : UInt8 := m.bytes[a]?.getD 0

/-- Whether a store to an address is not held back by the protection. -/
def IsFree (m : Memory) (a : Nat) : Prop := m.reservedProtected = true → programStart ≤ a

/-- It can be decided whether an address is free. -/
instance (m : Memory) (a : Nat) : Decidable (m.IsFree a) :=
  inferInstanceAs (Decidable (m.reservedProtected = true → programStart ≤ a))

/-- Memories are equal if their bytes and their protection are. -/
lemma ext_byteAt {m m' : Memory} (bytes : ∀ a, m.byteAt a = m'.byteAt a)
    (protection : m.reservedProtected = m'.reservedProtected) : m = m' := by
  obtain ⟨b, p⟩ := m
  obtain ⟨b', p'⟩ := m'
  cases protection
  congr 1
  apply Vector.ext
  intro i hi
  have e := bytes i
  simp only [byteAt, Vector.getElem?_eq_getElem hi, Option.getD_some] at e
  exact e

/-- The byte at an address of memory is read. -/
lemma read_nat {m : Memory} {a : Nat} (h : a < size) : m.read a = .ok (m.byteAt a) := by
  have h' : 0 ≤ (a : Int) ∧ (a : Int).toNat < size := by omega
  simp only [read, h', byteAt, Vector.getElem?_eq_getElem h, Option.getD_some]
  rfl

/-- Nothing is read outside memory. -/
lemma read_outside {m : Memory} {a : Int} (h : a < 0 ∨ size ≤ a) :
    m.read a = .error (.addressOutOfRange (.address a)) := by
  rw [read, dif_neg (by omega)]

/-- The word at two addresses of memory, the higher byte first. -/
lemma word_nat {m : Memory} {a : Nat} (h : a + 1 < size) :
    ∃ w, m.word a = .ok w ∧ w.toNat = 256 * (m.byteAt a).toNat + (m.byteAt (a + 1)).toNat := by
  refine ⟨(m.byteAt a).toUInt16 * 256 + (m.byteAt (a + 1)).toUInt16, ?_, ?_⟩
  · have second : m.read ((a : Int) + 1) = .ok (m.byteAt (a + 1)) := read_nat h
    simp only [word, read_nat (Nat.lt_of_succ_lt h), second]
    rfl
  · have high := (m.byteAt a).toNat_lt
    have low := (m.byteAt (a + 1)).toNat_lt
    simp only [UInt16.toNat_add, UInt16.toNat_mul, UInt8.toNat_toUInt16, UInt16.reduceToNat]
    omega

/-- An address of which one of the two bytes is not in memory has no word. -/
lemma word_outside {m : Memory} {a : Int} (h : a < 0 ∨ size ≤ a + 1) :
    m.word a = .error (.addressOutOfRange (.address (if a + 1 = size then a + 1 else a))) := by
  by_cases last : a + 1 = size
  · have first : m.read a = .ok (m.byteAt (size - 1)) := by
      have e : a = ((size - 1 : Nat) : Int) := by simp only [size] at last ⊢; omega
      rw [e]
      exact read_nat (by decide)
    simp only [word, first, if_pos last, read_outside (Or.inr (Int.le_of_eq last.symm))]
    rfl
  · have first : m.read a = .error (.addressOutOfRange (.address a)) := read_outside (by omega)
    simp only [word, first, if_neg last]
    rfl

/-- The words in memory are those of two bytes in memory. -/
lemma word_eq_ok_iff {m : Memory} {a : Nat} {w : UInt16} :
    m.word a = .ok w ↔
      a + 1 < size ∧ w.toNat = 256 * (m.byteAt a).toNat + (m.byteAt (a + 1)).toNat := by
  by_cases h : a + 1 < size
  · obtain ⟨w', e, value⟩ := word_nat (m := m) h
    rw [e]
    constructor
    · intro e'
      cases e'
      exact ⟨h, value⟩
    · rintro ⟨-, value'⟩
      rw [UInt16.toNat_inj.1 (value.trans value'.symm)]
  · rw [word_outside (by omega)]
    constructor
    · intro e
      cases e
    · intro e
      exact absurd e.1 h

/-- A stored byte is the one at its address, and no other byte changes. -/
lemma byteAt_set (m : Memory) (a : Int) (v : UInt8) (k : Nat) :
    (m.set a v).byteAt k = if k = a.toNat ∧ k < size then v else m.byteAt k := by
  simp only [set, byteAt, Vector.getElem?_setIfInBounds]
  grind

/-- Storing bytes does not change the protection. -/
lemma reservedProtected_putAll (m : Memory) (a : Int) (bytes : List UInt8) :
    (m.putAll a bytes).1.reservedProtected = m.reservedProtected := by
  induction bytes generalizing m a with
  | nil => rfl
  | cons b rest ih =>
    rw [putAll]
    split
    · rfl
    · rw [ih]; rfl

/-- A free address within memory takes every byte. -/
lemma refusal_free {m : Memory} {a : Nat} (free : m.IsFree a) (h : a < size) (v : UInt8) :
    m.refusal a v = none := by
  unfold IsFree at free
  rw [refusal, if_neg (by omega), if_neg]
  simp only [Bool.and_eq_true, decide_eq_true_eq, not_and]
  intro p
  have := free p
  omega

/-- Outside memory nothing is stored. -/
lemma refusal_outside {m : Memory} {a : Nat} (h : size ≤ a) (v : UInt8) :
    m.refusal a v = some (.addressOutOfRange (.address a)) := by
  rw [refusal, if_pos (by omega)]

/-- Nothing is stored in front of the program when that is protected. -/
lemma refusal_protected {m : Memory} {a : Nat} (p : m.reservedProtected = true)
    (h : a < programStart) (v : UInt8) : m.refusal a v = some (.protectedWrite a v) := by
  have : programStart < size := by decide
  rw [refusal, if_neg (by omega), if_pos]
  simp only [p, Bool.true_and, decide_eq_true_eq]
  omega

/-- What a run of stores from a free address on leaves at an address. -/
lemma byteAt_putAll {m : Memory} {a : Nat} {bytes : List UInt8} (free : m.IsFree a) (k : Nat) :
    (m.putAll a bytes).1.byteAt k =
      if a ≤ k ∧ k < a + bytes.length ∧ k < size then bytes.getD (k - a) 0 else m.byteAt k := by
  induction bytes generalizing m a with
  | nil => rw [putAll, if_neg (by simp only [List.length_nil]; omega)]
  | cons b rest ih =>
    rw [putAll]
    by_cases inside : a < size
    · simp only [refusal_free free inside]
      rw [show (a : Int) + 1 = ((a + 1 : Nat) : Int) by omega,
        ih (fun p => by have := free p; omega)]
      -- The stores that follow reach addresses beyond the first only.
      by_cases here : k = a
      · subst here
        rw [if_neg (by omega), byteAt_set, if_pos ⟨rfl, inside⟩, if_pos (by simp [inside]),
          Nat.sub_self, List.getD_cons_zero]
      · have same : (m.set a b).byteAt k = m.byteAt k := by rw [byteAt_set, if_neg (by omega)]
        rw [same]
        by_cases later : a + 1 ≤ k
        · rw [show k - a = k - (a + 1) + 1 by omega, List.getD_cons_succ, List.length_cons]
          congr 1
          simp only [eq_iff_iff]
          omega
        · rw [if_neg (by omega), if_neg (by omega)]
    · simp only [refusal_outside (Nat.le_of_not_lt inside)]
      rw [if_neg (by omega)]

/-- A run of stores from a free address on stops at the first address beyond the end. -/
lemma fault_putAll {m : Memory} {a : Nat} {bytes : List UInt8} (free : m.IsFree a) :
    (m.putAll a bytes).2 =
      if bytes = [] ∨ a + bytes.length ≤ size then none
      else some (.addressOutOfRange (.address (max a size : Nat))) := by
  induction bytes generalizing m a with
  | nil => rfl
  | cons b rest ih =>
    rw [putAll]
    by_cases inside : a < size
    · simp only [refusal_free free inside]
      rw [show (a : Int) + 1 = ((a + 1 : Nat) : Int) by omega,
        ih (fun p => by have := free p; omega)]
      simp only [List.length_cons, reduceCtorEq, false_or]
      cases rest with
      | nil => simp only [List.length_nil, true_or, if_true]; rw [if_pos (by omega)]
      | cons b' rest' =>
        simp only [List.length_cons, reduceCtorEq, false_or]
        congr 1
        · simp only [eq_iff_iff]; omega
        · congr 4; omega
    · simp only [refusal_outside (Nat.le_of_not_lt inside), List.length_cons, reduceCtorEq,
        false_or]
      rw [if_neg (by omega), Nat.max_eq_left (by omega)]

/-- A run of stores into the protected region stores nothing. -/
lemma putAll_protected {m : Memory} {a : Nat} {b : UInt8} {rest : List UInt8}
    (p : m.reservedProtected = true) (h : a < programStart) :
    m.putAll a (b :: rest) = (m, some (.protectedWrite a b)) := by
  simp only [putAll, refusal_protected p h]

/-- Loading a program puts its bytes from its start on, and zeros behind. -/
lemma byteAt_load (m : Memory) (rom : Rom) (k : Nat) :
    (m.load rom).byteAt k =
      if k < programStart then m.byteAt k else rom.bytes.getD (k - programStart) 0 := by
  simp only [load, byteAt, Vector.getElem?_ofFn]
  by_cases inside : k < size
  · rw [dif_pos inside, Option.getD_some, Vector.getElem?_eq_getElem inside, Option.getD_some]
    simp
  · have beyond : rom.bytes.length ≤ k - programStart := by
      have := rom.length_le
      simp only [size, programStart, Rom.maxSize] at *
      omega
    rw [dif_neg inside, if_neg (by simp only [size, programStart] at *; omega)]
    simp [beyond]

/-- At switching on there are zeros and then the font. -/
lemma byteAt_powerOn (k : Nat) :
    powerOn.byteAt k = if k < Font.base then 0 else Font.rows.getD (k - Font.base) 0 := by
  simp only [powerOn, byteAt, Vector.getElem?_ofFn]
  by_cases inside : k < size
  · rw [dif_pos inside, Option.getD_some]
  · have beyond : Font.rows.length ≤ k - Font.base := by
      simp only [Font.length_rows, Font.glyphRows, Font.base, size] at *
      omega
    rw [dif_neg inside, if_neg (by simp only [size, Font.base] at *; omega)]
    simp [beyond]

/-- Loading a program of no bytes leaves the memory at power-on as it is. -/
lemma load_empty_powerOn : powerOn.load .empty = powerOn := by
  refine ext_byteAt ?_ rfl
  intro k
  rw [byteAt_load]
  by_cases low : k < programStart
  · rw [if_pos low]
  · have beyond : Font.rows.length ≤ k - Font.base := by
      simp only [Font.length_rows, Font.glyphRows, Font.base, programStart] at *
      omega
    rw [if_neg low, byteAt_powerOn, if_neg (by simp only [programStart, Font.base] at *; omega)]
    simp [Rom.empty, beyond]

end Chip8.Memory
