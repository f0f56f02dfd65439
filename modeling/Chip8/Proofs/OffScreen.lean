import Chip8.Proofs.Drawing
import Chip8.Proofs.Screen
/-!
# Sprites that leave the screen

The remainder that reduces an origin keeps its sign, so that a sprite from a negative origin may
have bits to the left of the screen or above it. `Sprite.cells` are the bits that drawing visits,
row by row and from left to right: the set ones above the bottom edge (`mem_cells`). Drawing turns
over the pixels of those in front of the first that has no pixel, and stops there (`flipAll_stops`).
Hence it fails just if there is such a bit, and leaves nothing but the pixels before it changed
(`draw_stops`).
-/

namespace Chip8

namespace Sprite

variable {x y : Int} {rows : Sprite} {values : List Int} {cell cell' : Nat × Nat}

/-- Whether a bit of a sprite, given by its row and its column, is set and not below the screen. -/
def Draws (y : Int) (values : List Int) (cell : Nat × Nat) : Prop :=
  cell.1 < values.length ∧ cell.2 < 8 ∧ values.getD cell.1 0 / 2 ^ (7 - cell.2) % 2 = 1 ∧
    y.tmod 32 + cell.1 < 32

/-- Whether a bit of a sprite lies to the left of the screen or above it. -/
def Misses (x y : Int) (cell : Nat × Nat) : Prop :=
  x.tmod 64 + cell.2 < 0 ∨ y.tmod 32 + cell.1 < 0

/-- The position of a bit, columns being wrapped around. -/
def place (x y : Int) (cell : Nat × Nat) : Int × Int :=
  ((x.tmod 64 + cell.2).tmod 64, y.tmod 32 + cell.1)

/-- The bits that drawing visits, in their order. -/
def cells (y : Int) (rows : Sprite) : List (Nat × Nat) := cellsFrom (y.tmod Screen.height) 0 rows

/-- The positions that drawing turns over are those of the bits that it visits. -/
lemma targets_eq_map (x y : Int) (rows : Sprite) :
    targets x y rows = (cells y rows).map (place x y) :=
  targetsFrom_eq_map ..

/-- The bits that drawing visits are those that are set and not below the screen. -/
lemma mem_cells : cell ∈ cells y (ofInts values) ↔ Draws y values cell := by
  rw [cells, mem_cellsFrom, Draws]
  constructor
  · rintro ⟨r, row, at_, number, column, on, above⟩
    obtain rfl := number.trans (Nat.zero_add r)
    obtain ⟨inside, bit⟩ := (exists_lit_ofInts column).1 ⟨row, at_, on⟩
    exact ⟨inside, column, bit, above⟩
  · rintro ⟨inside, column, bit, above⟩
    obtain ⟨row, at_, on⟩ := (exists_lit_ofInts column).2 ⟨inside, bit⟩
    exact ⟨cell.1, row, at_, (Nat.zero_add _).symm, column, on, above⟩

/-- In a list that is in order, what comes before an element precedes it. -/
lemma mem_before_iff {before behind : List (Nat × Nat)}
    (order : (before ++ cell :: behind).Pairwise Precedes) :
    cell' ∈ before ↔ cell' ∈ before ++ cell :: behind ∧ Precedes cell' cell := by
  obtain ⟨-, later, across⟩ := List.pairwise_append.1 order
  rw [List.mem_append, List.mem_cons]
  constructor
  · exact fun member => ⟨.inl member, across _ member _ List.mem_cons_self⟩
  · rintro ⟨member | rfl | member, earlier⟩
    · exact member
    · simp [Precedes] at earlier
    · have after := (List.pairwise_cons.1 later).1 _ member
      simp only [Precedes] at earlier after
      omega

/-- It can be decided whether a bit is off the screen. -/
instance : Decidable (Misses x y cell) := inferInstanceAs (Decidable (_ ∨ _))

/-- Columns are wrapped around onto the screen, unless they are to the left of it. -/
lemma has_place_iff (drawn : Draws y values cell) :
    Screen.Has (place x y cell) ↔ ¬ Misses x y cell := by
  obtain ⟨-, column, -, above⟩ := drawn
  have left := Int.lt_tmod_of_pos x (b := 64) (by decide)
  simp only [Screen.Has, place, Misses, Screen.width, Screen.height, not_or, Int.not_lt]
  by_cases inside : 0 ≤ x.tmod 64 + cell.2
  · have wrapped := Int.tmod_nonneg 64 inside
    have bound := Int.tmod_lt_of_pos (x.tmod 64 + cell.2) (b := 64) (by decide)
    omega
  · have kept : (x.tmod 64 + cell.2).tmod 64 = x.tmod 64 + cell.2 := by
      rw [← Int.neg_neg (x.tmod 64 + cell.2), Int.neg_tmod,
        Int.tmod_eq_of_lt (by omega) (by omega)]
    rw [kept]
    omega

end Sprite

namespace Screen

open Sprite

/-- Positions one after the other are turned over in two parts. -/
lemma flipAll_append (s : Screen) (ps qs : List (Int × Int)) (hit : Bool) :
    s.flipAll (ps ++ qs) hit =
      match s.flipAll ps hit with
      | (s', .ok hit') => s'.flipAll qs hit'
      | (s', .error e) => (s', .error e) := by
  induction ps generalizing s hit with
  | nil => rfl
  | cons p rest ih =>
    rw [List.cons_append, flipAll, flipAll]
    cases index p.1 p.2 with
    | error => rfl
    | ok k => exact ih ..

/-- Turning pixels over stops at the first that does not exist. Those before it are turned over, if
they are all different. -/
lemma flipAll_stops (s : Screen) {ps : List (Int × Int)} {p : Int × Int} (rest : List (Int × Int))
    (hit : Bool) (on : ∀ q ∈ ps, Has q) (off : ¬ Has p) (nodup : ps.Nodup) :
    ∃ s', s.flipAll (ps ++ p :: rest) hit =
        (s', .error (.offScreen (.finite p.1) (.finite p.2))) ∧
      ∀ q, s'.lit q = (s.lit q ^^ decide (q ∈ ps)) := by
  obtain ⟨s', run, view⟩ := @flipAll_onScreen s _ hit on nodup
  refine ⟨s', ?_, view⟩
  rw [flipAll_append, run]
  simp only
  rw [flipAll, index_of_not_has off]

/-- What a bit at which drawing stops has to be, and what has been drawn before it. -/
structure Stopped (s s' : Screen) (x y : Int) (values : List Int) (cell : Nat × Nat) : Prop where
  draws : Draws y values cell
  misses : Misses x y cell
  /-- It is the first bit without a pixel. -/
  first : ∀ earlier, Draws y values earlier → Precedes earlier cell → ¬ Misses x y earlier
  /-- The pixels of the bits before it are turned over, and no others. -/
  changed : ∀ p, s'.lit p ≠ s.lit p ↔
    ∃ earlier, Draws y values earlier ∧ Precedes earlier cell ∧ p = place x y earlier

/-- Drawing either finds a pixel for every bit, or stops at the first that has none. -/
lemma draw_cases (s : Screen) (x y : Int) (values : List Int) :
    ((∀ cell, Draws y values cell → ¬ Misses x y cell) ∧
      ∃ s' hit, s.draw x y (ofInts values) = (s', .ok hit)) ∨
    ∃ cell s', Stopped s s' x y values cell ∧ s.draw x y (ofInts values) =
      (s', .error (.offScreen (.finite (place x y cell).1) (.finite (place x y cell).2))) := by
  have nodup := nodup_targets x y (ofInts values)
  have on : ∀ cell, Draws y values cell → ¬ Misses x y cell → Has (place x y cell) :=
    fun cell drawn => (has_place_iff drawn).2
  rw [draw]
  rw [targets_eq_map] at nodup ⊢
  cases found : (cells y (ofInts values)).find? (Misses x y ·) with
  | none =>
    have hits : ∀ cell, Draws y values cell → ¬ Misses x y cell := fun cell drawn => by
      simpa using List.find?_eq_none.1 found cell (mem_cells.2 drawn)
    have inside : ∀ p ∈ (cells y (ofInts values)).map (place x y), Has p := by
      intro p member
      obtain ⟨cell, drawn, rfl⟩ := List.mem_map.1 member
      exact on cell (mem_cells.1 drawn) (hits cell (mem_cells.1 drawn))
    obtain ⟨s', run, -⟩ := @flipAll_onScreen s _ false inside nodup
    exact .inl ⟨hits, s', _, run⟩
  | some cell =>
    obtain ⟨missed, before, behind, parts, clear⟩ := List.find?_eq_some_iff_append.1 found
    have misses : Misses x y cell := by simpa using missed
    have hits : ∀ earlier ∈ before, ¬ Misses x y earlier := by simpa using clear
    have drawn : Draws y values cell := mem_cells.1 (by rw [parts]; simp)
    have order := pairwise_cellsFrom (y.tmod height) 0 (ofInts values)
    rw [← cells, parts] at order
    have earlier_iff (earlier : Nat × Nat) :
        earlier ∈ before ↔ Draws y values earlier ∧ Precedes earlier cell := by
      rw [mem_before_iff order, ← parts, mem_cells]
    rw [parts, List.map_append, List.map_cons] at nodup ⊢
    have inside : ∀ p ∈ before.map (place x y), Has p := by
      intro p member
      obtain ⟨earlier, precedes, rfl⟩ := List.mem_map.1 member
      exact on earlier ((earlier_iff earlier).1 precedes).1 (hits earlier precedes)
    obtain ⟨s', run, view⟩ := s.flipAll_stops _ false inside
      (fun has => (has_place_iff drawn).1 has misses) (List.nodup_append.1 nodup).1
    refine .inr ⟨cell, s', ⟨drawn, misses, ?_, ?_⟩, run⟩
    · exact fun earlier draws precedes => hits earlier ((earlier_iff earlier).2 ⟨draws, precedes⟩)
    · intro p
      have turned : s'.lit p ≠ s.lit p ↔ p ∈ before.map (place x y) := by
        rw [view]
        cases s.lit p <;> simp
      simp only [turned, List.mem_map, earlier_iff, and_assoc, eq_comm]

/-- Drawing a sprite of any row values from any origin. It fails if and only if a bit that is set
and not below the screen lies to the left of the screen or above it. When it fails, it stops at the
first such bit, row by row and from left to right: the pixels of the set bits before that one have
been turned over, and nothing else has changed. -/
theorem draw_stops (s : Screen) (x y : Int) (values : List Int) :
    ((∃ s' e, s.draw x y (ofInts values) = (s', .error e)) ↔
      ∃ cell, Draws y values cell ∧ Misses x y cell) ∧
    ∀ s' e, s.draw x y (ofInts values) = (s', .error e) →
      ∃ cell, Stopped s s' x y values cell ∧
        e = .offScreen (.finite (place x y cell).1) (.finite (place x y cell).2) := by
  obtain ⟨hits, s', hit, drawn⟩ | ⟨cell, s', stopped, drawn⟩ := s.draw_cases x y values
  · rw [drawn]
    refine ⟨iff_of_false nofun ?_, nofun⟩
    rintro ⟨cell, draws, misses⟩
    exact hits cell draws misses
  · rw [drawn]
    refine ⟨iff_of_true ⟨_, _, rfl⟩ ⟨cell, stopped.draws, stopped.misses⟩, ?_⟩
    rintro _ _ ⟨⟩
    exact ⟨cell, stopped, rfl⟩

/-- The first row of a sprite is drawn, although its origin is to the left of the screen. In the
second row a bit has no pixel, so that the third row is not reached. -/
theorem draw_stops_in_second_row :
    ∃ s', blank.draw (-3) 64 (ofInts [0x1F, 0x180, 0xFF]) =
        (s', .error (.offScreen (.finite (-3)) (.finite 1))) ∧
      ∃ cell, Stopped blank s' (-3) 64 [0x1F, 0x180, 0xFF] cell := by
  have failed : (blank.draw (-3) 64 (ofInts [0x1F, 0x180, 0xFF])).2 =
      .error (.offScreen (.finite (-3)) (.finite 1)) := by decide
  have run : blank.draw (-3) 64 (ofInts [0x1F, 0x180, 0xFF]) =
      (_, .error (.offScreen (.finite (-3)) (.finite 1))) := Prod.ext rfl failed
  obtain ⟨cell, stopped, -⟩ := (draw_stops blank (-3) 64 [0x1F, 0x180, 0xFF]).2 _ _ run
  exact ⟨_, run, cell, stopped⟩

end Screen

end Chip8
