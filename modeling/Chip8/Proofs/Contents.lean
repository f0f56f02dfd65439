import Chip8.Proofs.Memory
/-!
# What a memory holds

A memory under any sequence of reads, writes, loads and font installations. Whether an operation is
refused depends on nothing but the protection (`Operation.refusal`), and a refused operation changes
nothing. An operation that is carried out stores bytes at the addresses that it names
(`Operation.stored?`) and nowhere else (`perform_of_accepted`). So what a memory holds can be told
from the operations that were carried out (`byteAt_performAll`), as `performAll_history` says of
memories built with and without the font.
-/

namespace Chip8.Memory

/-- What can be asked of a memory. -/
inductive Operation where
  | read (address : Int)
  | write (address value : Int)
  | load (bytes : List UInt8)
  | installFont (rows : List UInt8)

/-- What a change has left, and how it ended. -/
def changed {ε : Type} (kind : ε → Error) :
    Memory × Except ε Unit → Memory × Except Error (Option UInt8)
  | (m, .ok ()) => (m, .ok none)
  | (m, .error error) => (m, .error (kind error))

/-- Carries out an operation. A read gives a byte. -/
def perform (m : Memory) : Operation → Memory × Except Error (Option UInt8)
  | .read address =>
    match m.read address with
    | .ok byte => (m, .ok (some byte))
    | .error fault => (m, .error (.machine fault))
  | .write address value => changed .machine (m.write address value)
  | .load bytes => changed .rom (m.loadBytes bytes)
  | .installFont rows => changed .range (m.installFont rows)

/-- The memory after some operations. -/
def performAll (m : Memory) : List Operation → Memory
  | [] => m
  | o :: rest => (m.perform o).1.performAll rest

/-- A new memory, with the digits or without them. -/
def built (font : Bool) : Memory := if font then powerOn else blank

namespace Operation

/-- Why an operation is refused, if so, by a memory whose protection is on or off. -/
def refusal (held : Bool) : Operation → Option Error
  | read a => if 0 ≤ a ∧ a < size then none else some (.machine (.addressOutOfRange (.address a)))
  | write a value =>
    if a < 0 ∨ size ≤ a then some (.machine (.addressOutOfRange (.address a)))
    else if held = true ∧ a < programStart then
      some (.machine (.protectedWrite a (.ofNat (value % 256).toNat)))
    else none
  | load bytes => if bytes.length ≤ Rom.maxSize then none else some (.rom (.tooLarge bytes.length))
  | installFont rows =>
    if Font.base + rows.length ≤ size then none else some (.range .fontTooLong)

/-- The byte that an operation stores at an address, if any. -/
def stored? (a : Nat) : Operation → Option UInt8
  | read _ => none
  | write b value => if b = a then some (.ofNat (value % 256).toNat) else none
  | load bytes => if programStart ≤ a then some (bytes.getD (a - programStart) 0) else none
  | installFont rows => if Font.base ≤ a then rows[a - Font.base]? else none

/-- Whether an operation turns the protection on. -/
def protects : Operation → Bool
  | installFont _ => true
  | _ => false

/-- Those of some operations that are carried out, by a memory whose protection is on or off. -/
def accepted (held : Bool) : List Operation → List Operation
  | [] => []
  | o :: rest =>
    match o.refusal held with
    | some _ => accepted held rest
    | none => o :: accepted (held || o.protects) rest

/-- The operations on a memory from the beginning: its font, if it has one, is installed first. -/
def sinceBuilt (font : Bool) (ops : List Operation) : List Operation :=
  if font then installFont Font.rows :: ops else ops

/-- The byte that operations have left at an address, which is the last one stored there, and zero
if there was none. -/
def lastStored (done : List Operation) (a : Nat) : UInt8 :=
  (done.filterMap (stored? a)).getLast?.getD 0

end Operation

variable {m : Memory} {o : Operation}

/-- All bytes of a blank memory are zero. -/
lemma byteAt_blank (k : Nat) : blank.byteAt k = 0 := by
  by_cases inside : k < size
  · simp only [byteAt, blank, Vector.getElem?_eq_getElem inside, Vector.getElem_replicate]
    rfl
  · simp only [byteAt, blank, Vector.getElem?_eq_none (Nat.le_of_not_lt inside)]
    rfl

/-- The byte of an integer is that of its remainder. -/
lemma ofInt_eq_ofNat (value : Int) : UInt8.ofInt value = .ofNat (value % 256).toNat := by
  apply UInt8.toNat_inj.1
  simp only [UInt8.ofInt, UInt8.toNat_ofNat']
  omega

/-- Installing a font that fits stores its rows and turns the protection on. -/
lemma installFont_of_fits (m : Memory) {rows : List UInt8} (fits : Font.base + rows.length ≤ size) :
    ∃ m', m.installFont rows = (m', .ok ()) ∧ m'.reservedProtected = true ∧
      ∀ k, m'.byteAt k = ((Operation.installFont rows).stored? k).getD (m.byteAt k) := by
  refine ⟨_, if_pos fits, rfl, ?_⟩
  intro k
  simp only [byteAt, Vector.getElem?_ofFn, Operation.stored?]
  by_cases inside : k < size
  · rw [dif_pos inside, Vector.getElem?_eq_getElem inside]
    by_cases low : k < Font.base
    · rw [if_neg (Nat.not_le_of_lt low)]
      simp [low]
    · rw [if_pos (Nat.le_of_not_lt low)]
      simp [low]
  · have beyond : rows.length ≤ k - Font.base := by omega
    rw [dif_neg inside, Vector.getElem?_eq_none (Nat.le_of_not_lt inside),
      List.getElem?_eq_none beyond, ite_self]
    rfl

/-- A write is refused for the reason that a byte cannot be stored for. -/
lemma refusal_write (m : Memory) (a value : Int) :
    (Operation.write a value).refusal m.reservedProtected =
      (m.refusal a (.ofInt value)).map .machine := by
  simp only [Operation.refusal, Memory.refusal, Bool.and_eq_true, decide_eq_true_eq,
    ofInt_eq_ofNat]
  split
  case isTrue => rfl
  case isFalse => split <;> rfl

/-- An operation that is refused changes nothing. -/
lemma perform_of_refused {error : Error} (refused : o.refusal m.reservedProtected = some error) :
    m.perform o = (m, .error error) := by
  cases o with
  | read a =>
    simp only [Operation.refusal, Option.ite_none_left_eq_some, Option.some.injEq] at refused
    obtain ⟨outside, rfl⟩ := refused
    rw [perform, read_outside (by omega)]
  | write a value =>
    rw [refusal_write] at refused
    obtain ⟨fault, held, rfl⟩ := Option.map_eq_some_iff.1 refused
    simp only [perform, write, held, changed]
  | load bytes =>
    simp only [Operation.refusal, Option.ite_none_left_eq_some, Option.some.injEq] at refused
    obtain ⟨tooMany, rfl⟩ := refused
    rw [perform, loadBytes, Rom.ofBytes, dif_neg tooMany, changed]
  | installFont rows =>
    simp only [Operation.refusal, Option.ite_none_left_eq_some, Option.some.injEq] at refused
    obtain ⟨tooMany, rfl⟩ := refused
    rw [perform, installFont, if_neg tooMany, changed]

/-- What an operation gives, a read the byte at its address. -/
def Operation.answer (m : Memory) : Operation → Option UInt8
  | .read a => some (m.byteAt a.toNat)
  | _ => none

/-- An operation that is not refused is carried out: it stores its bytes, and turns the protection
on if it is to do so. -/
lemma perform_of_accepted (accepted : o.refusal m.reservedProtected = none) :
    ∃ m', m.perform o = (m', .ok (o.answer m)) ∧
      m'.reservedProtected = (m.reservedProtected || o.protects) ∧
      ∀ k, m'.byteAt k = (o.stored? k).getD (m.byteAt k) := by
  cases o with
  | read a =>
    simp only [Operation.refusal, ite_eq_left_iff, reduceCtorEq, imp_false,
      Decidable.not_not] at accepted
    obtain ⟨a, rfl⟩ := Int.eq_ofNat_of_zero_le accepted.1
    refine ⟨m, ?_, (Bool.or_false _).symm, fun k => rfl⟩
    rw [perform, read_nat (by omega)]
    rfl
  | write a value =>
    have free : m.refusal a (.ofInt value) = none :=
      Option.map_eq_none_iff.1 ((refusal_write m a value).symm.trans accepted)
    have inside : 0 ≤ a ∧ a < size := by
      rw [refusal] at free
      split at free
      · cases free
      · omega
    refine ⟨m.set a (.ofInt value), ?_, (Bool.or_false _).symm, ?_⟩
    · simp only [perform, write, free]
      rfl
    · intro k
      rw [byteAt_set, Operation.stored?, ofInt_eq_ofNat]
      by_cases here : a = k
      · rw [if_pos (by omega), if_pos here]
        rfl
      · rw [if_neg (by omega), if_neg here]
        rfl
  | load bytes =>
    simp only [Operation.refusal, ite_eq_left_iff, reduceCtorEq, imp_false,
      Decidable.not_not] at accepted
    have loaded : m.perform (.load bytes) = (m.load ⟨bytes, accepted⟩, .ok none) := by
      rw [perform, loadBytes, Rom.ofBytes, dif_pos accepted, changed]
    have kept : (m.load ⟨bytes, accepted⟩).reservedProtected = m.reservedProtected := by rw [load]
    refine ⟨_, loaded, kept.trans (Bool.or_false _).symm, ?_⟩
    intro k
    rw [byteAt_load, Operation.stored?]
    by_cases low : k < programStart
    · rw [if_pos low, if_neg (Nat.not_le_of_lt low)]
      rfl
    · rw [if_neg low, if_pos (Nat.le_of_not_lt low)]
      rfl
  | installFont rows =>
    simp only [Operation.refusal, ite_eq_left_iff, reduceCtorEq, imp_false,
      Decidable.not_not] at accepted
    obtain ⟨m', run, protection, bytes⟩ := m.installFont_of_fits accepted
    refine ⟨m', ?_, protection.trans (Bool.or_true _).symm, bytes⟩
    rw [perform, run]
    rfl

/-- With the protection on, nothing is stored below the start of programs but by a font. -/
lemma stored?_of_low (accepted : o.refusal true = none) (other : o.protects = false) {k : Nat}
    (low : k < programStart) : o.stored? k = none := by
  cases o with
  | read => rfl
  | write a value =>
    rw [Operation.stored?, if_neg]
    rintro rfl
    rw [Operation.refusal] at accepted
    split at accepted
    · cases accepted
    · rw [if_pos ⟨rfl, by omega⟩] at accepted
      cases accepted
  | load bytes => exact if_neg (Nat.not_le_of_lt low)
  | installFont => cases other

/-- What operations have left at an address is what the last one stored there that was carried
out. -/
lemma byteAt_performAll (m : Memory) (ops : List Operation) :
    let done := Operation.accepted m.reservedProtected ops
    (m.performAll ops).reservedProtected = (m.reservedProtected || done.any Operation.protects) ∧
      ∀ k, (m.performAll ops).byteAt k =
        (done.filterMap (Operation.stored? k)).getLast?.getD (m.byteAt k) := by
  induction ops generalizing m with
  | nil => exact ⟨(Bool.or_false _).symm, fun k => rfl⟩
  | cons o rest ih =>
    cases refused : o.refusal m.reservedProtected with
    | some error =>
      simp only [performAll, perform_of_refused refused, Operation.accepted, refused]
      exact ih m
    | none =>
      obtain ⟨m', run, protection, bytes⟩ := perform_of_accepted refused
      obtain ⟨protection', bytes'⟩ := ih m'
      rw [protection] at protection' bytes'
      simp only [performAll, run, Operation.accepted, refused]
      refine ⟨?_, ?_⟩
      · rw [protection', List.any_cons, Bool.or_assoc]
      · intro k
        rw [bytes', bytes, List.filterMap_cons]
        cases o.stored? k with
        | none => rfl
        | some byte => rw [List.getLast?_cons, Option.getD_some, Option.getD_some]

/-- Installing the font into a blank memory is all there is to switching on. -/
lemma perform_installFont_blank : blank.perform (.installFont Font.rows) = (powerOn, .ok none) := by
  have fits : Font.base + Font.rows.length ≤ size := by decide
  obtain ⟨m, run, protection, bytes⟩ := blank.installFont_of_fits fits
  have same : m = powerOn := by
    refine ext_byteAt ?_ protection
    intro k
    rw [bytes, byteAt_blank, byteAt_powerOn, Operation.stored?]
    by_cases low : k < Font.base
    · rw [if_neg (Nat.not_le_of_lt low), if_pos low]
      rfl
    · rw [if_pos (Nat.le_of_not_lt low), if_neg low, List.getD_eq_getElem?_getD]
  rw [perform, run, same, changed]

/-- A memory that was built with the font is one into which it was installed. -/
lemma performAll_built (font : Bool) (ops : List Operation) :
    (built font).performAll ops = blank.performAll (Operation.sinceBuilt font ops) := by
  cases font with
  | false => rfl
  | true =>
    rw [Operation.sinceBuilt, if_pos rfl, performAll, perform_installFont_blank]
    rfl

/-- A memory that was built with or without the font, after any operations. A read succeeds at the
4096 addresses and gives the byte last stored there. The protection is on if a font was ever
installed, and stays on. An operation fails for the reason that it is refused for, and leaves the
memory as it was; with the protection on, nothing but a font changes a byte below `$200`. -/
theorem performAll_history (font : Bool) (ops : List Operation) :
    let m := (built font).performAll ops
    let done := Operation.accepted false (Operation.sinceBuilt font ops)
    (∀ a b, (m.perform (.read a)).2 = .ok (some b) ↔
      ∃ k : Nat, k < 4096 ∧ a = k ∧ b = Operation.lastStored done k) ∧
    m.reservedProtected = done.any Operation.protects ∧
    ∀ o : Operation,
      (∀ error, (m.perform o).2 = .error error ↔ o.refusal m.reservedProtected = some error) ∧
      (∀ error, (m.perform o).2 = .error error → (m.perform o).1 = m) ∧
      (m.reservedProtected = true → (m.perform o).1.reservedProtected = true ∧
        (o.protects = false → ∀ k < 0x200, (m.perform o).1.byteAt k = m.byteAt k)) := by
  intro m done
  have history := byteAt_performAll blank (Operation.sinceBuilt font ops)
  rw [← performAll_built] at history
  obtain ⟨protection, bytes⟩ := history
  have contents (k : Nat) : m.byteAt k = Operation.lastStored done k := by
    rw [Operation.lastStored, ← byteAt_blank k]
    exact bytes k
  refine ⟨?_, protection, ?_⟩
  · intro a b
    constructor
    · intro given
      by_cases inside : 0 ≤ a ∧ a < size
      · obtain ⟨k, rfl⟩ := Int.eq_ofNat_of_zero_le inside.1
        rw [perform, read_nat (by omega)] at given
        cases given
        exact ⟨k, Int.ofNat_lt.1 inside.2, rfl, contents k⟩
      · rw [perform, read_outside (by omega)] at given
        cases given
    · rintro ⟨k, inside, rfl, rfl⟩
      rw [perform, read_nat inside, contents]
  · intro o
    cases refused : o.refusal m.reservedProtected with
    | some reason =>
      rw [perform_of_refused refused]
      refine ⟨fun error => ?_, fun _ _ => rfl, fun held => ⟨held, fun _ _ _ => rfl⟩⟩
      rw [Except.error.injEq, Option.some.injEq]
    | none =>
      obtain ⟨m', run, protection', stored⟩ := perform_of_accepted refused
      rw [run]
      refine
        ⟨fun error => by simp only [reduceCtorEq], fun error failed => ?_, fun held => ⟨?_, ?_⟩⟩
      · cases failed
      · rw [protection', held, Bool.true_or]
      · intro other k low
        rw [stored, stored?_of_low (held ▸ refused) other low, Option.getD_none]

end Chip8.Memory
