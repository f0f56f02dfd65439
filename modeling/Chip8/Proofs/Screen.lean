import Chip8.Screen
import Mathlib.Data.List.Nodup
import Mathlib.Tactic.Lemma
/-!
# Drawing as a mask

`lit` is the view of the screen that later proofs use: whether there is a pixel at a position and
it is on. Turning over positions that are all on the screen and all different turns over exactly
those (`flipAll_onScreen`). The positions that a sprite names are those of its bits, row by row
(`targetsFrom_eq_map`), all of them different (`nodup_targets`). From an origin that is not negative
they are on the screen, the set bits of the rows with columns wrapped around and rows below the
screen left out (`mem_targets`), so drawing combines the screen with that mask and reports whether
the mask met a pixel that was on (`draw_nat`).
-/

namespace Chip8

/-- The position in a column and a row, counted from the upper left corner. -/
def Screen.position (column row : Nat) : Int × Int := (column, row)

namespace Sprite

/-- The columns of a row are those of the bits that are set. -/
lemma mem_columns {row : UInt8} {c : Nat} : c ∈ columns row ↔ c < 8 ∧ lit row c = true := by
  simp [columns]

/-- Columns that are less than a screen apart stay apart when they are wrapped around. -/
lemma tmod_width_inj {x : Int} {c c' : Nat} (h : c < 8) (h' : c' < 8)
    (e : Int.tmod (x + c) Screen.width = Int.tmod (x + c') Screen.width) : c = c' := by
  have first := Int.mul_tdiv_add_tmod (x + c) Screen.width
  have second := Int.mul_tdiv_add_tmod (x + c') Screen.width
  simp only [Screen.width] at *
  omega

/-- Whether a bit of a sprite, given by its row and its column, comes before another one, row by row
and from left to right. -/
def Precedes (cell cell' : Nat × Nat) : Prop :=
  cell.1 < cell'.1 ∨ cell.1 = cell'.1 ∧ cell.2 < cell'.2

/-- The set bits of rows, the first of which has a number, as far as they are not below the
screen. -/
def cellsFrom (y : Int) : (number : Nat) → Sprite → List (Nat × Nat)
  | _, [] => []
  | n, row :: rows =>
    if (Screen.height : Int) ≤ y + n then []
    else (columns row).map (fun c => (n, c)) ++ cellsFrom y (n + 1) rows

/-- The positions of a sprite are those of its cells, wrapped around. -/
lemma targetsFrom_add_eq_map (x y : Int) (n : Nat) (rows : Sprite) :
    targetsFrom x (y + n) rows =
      (cellsFrom y n rows).map fun cell => ((x + cell.2).tmod Screen.width, y + cell.1) := by
  induction rows generalizing n with
  | nil => rfl
  | cons row rest ih =>
    have next : y + n + 1 = y + (n + 1 : Nat) := by omega
    rw [targetsFrom, cellsFrom, next, ih]
    split
    · rfl
    · rw [List.map_append, List.map_map]
      rfl

/-- The positions at which drawing turns pixels over are those of the bits, in the same order. -/
lemma targetsFrom_eq_map (x y : Int) (rows : Sprite) :
    targetsFrom x y rows =
      (cellsFrom y 0 rows).map fun cell => ((x + cell.2).tmod Screen.width, y + cell.1) := by
  rw [← targetsFrom_add_eq_map, Int.natCast_zero, Int.add_zero]

/-- The cells of a sprite are the bits that are set in rows not below the screen. -/
lemma mem_cellsFrom {y : Int} {n : Nat} {rows : Sprite} {cell : Nat × Nat} :
    cell ∈ cellsFrom y n rows ↔
      ∃ r row, rows[r]? = some row ∧ cell.1 = n + r ∧ cell.2 < 8 ∧ lit row cell.2 = true ∧
        y + cell.1 < Screen.height := by
  induction rows generalizing n with
  | nil => simp [cellsFrom]
  | cons row rest ih =>
    rw [cellsFrom]
    split
    · constructor
      · intro h; cases h
      · rintro ⟨r, row, -, number, -, -, above⟩
        omega
    · rw [List.mem_append, List.mem_map, ih]
      constructor
      · rintro (⟨c, column, rfl⟩ | ⟨r, row', at_, number, column, on, above⟩)
        · obtain ⟨column, on⟩ := mem_columns.1 column
          exact ⟨0, row, rfl, rfl, column, on, by simp only; omega⟩
        · exact ⟨r + 1, row', at_, by omega, column, on, above⟩
      · rintro ⟨r, row', at_, number, column, on, above⟩
        cases r with
        | zero =>
          cases at_
          exact .inl ⟨cell.2, mem_columns.2 ⟨column, on⟩, Prod.ext number.symm rfl⟩
        | succ r => exact .inr ⟨r, row', at_, by omega, column, on, above⟩

/-- Cells are visited in order. -/
lemma pairwise_cellsFrom (y : Int) (n : Nat) (rows : Sprite) :
    (cellsFrom y n rows).Pairwise Precedes := by
  induction rows generalizing n with
  | nil => exact List.Pairwise.nil
  | cons row rest ih =>
    rw [cellsFrom]
    split
    · exact List.Pairwise.nil
    · refine List.pairwise_append.2 ⟨?_, ih (n + 1), ?_⟩
      · rw [List.pairwise_map]
        exact (List.pairwise_lt_range.filter _).imp fun before => .inr ⟨rfl, before⟩
      -- Later rows have higher numbers.
      · intro first member second member'
        obtain ⟨c, -, rfl⟩ := List.mem_map.1 member
        obtain ⟨r, -, -, number, -⟩ := mem_cellsFrom.1 member'
        exact .inl (by simp only; omega)

/-- Bits that drawing visits are different, and so are the positions under them. -/
lemma nodup_targets (x y : Int) (rows : Sprite) : (targets x y rows).Nodup := by
  have nodup : (cellsFrom (y.tmod Screen.height) 0 rows).Nodup :=
    (pairwise_cellsFrom _ 0 rows).imp fun before same => by
      simp [same, Precedes] at before
  rw [targets, targetsFrom_eq_map]
  refine nodup.map_on ?_
  intro cell member cell' member' same
  obtain ⟨-, -, -, -, column, -⟩ := mem_cellsFrom.1 member
  obtain ⟨-, -, -, -, column', -⟩ := mem_cellsFrom.1 member'
  obtain ⟨columns, rows⟩ := Prod.ext_iff.1 same
  exact Prod.ext (by simp only at rows; omega) (tmod_width_inj column column' columns)

/-- The positions of a sprite with an origin that is not negative: the set bits of its rows, as far
as these are on the screen, in columns that wrap around. -/
lemma mem_targets {x y : Nat} {rows : Sprite} {p : Int × Int} :
    p ∈ targets x y rows ↔
      ∃ r row c, rows[r]? = some row ∧ c < 8 ∧ lit row c = true ∧
        y % Screen.height + r < Screen.height ∧
        p = Screen.position ((x % Screen.width + c) % Screen.width) (y % Screen.height + r) := by
  rw [targets, targetsFrom_eq_map, ← Int.ofNat_tmod, ← Int.ofNat_tmod, List.mem_map]
  constructor
  · rintro ⟨⟨r, c⟩, member, rfl⟩
    obtain ⟨_, row, at_, number, column, on, above⟩ := mem_cellsFrom.1 member
    obtain rfl := number.trans (Nat.zero_add _)
    exact ⟨r, row, c, at_, column, on, by omega, rfl⟩
  · rintro ⟨r, row, c, at_, column, on, above, rfl⟩
    refine ⟨(r, c), mem_cellsFrom.2 ⟨r, row, at_, (Nat.zero_add r).symm, column, on, ?_⟩, rfl⟩
    simp only
    omega

end Sprite

namespace Screen

/-- Whether a position is on the screen. -/
def Has (p : Int × Int) : Prop := 0 ≤ p.1 ∧ p.1 < width ∧ 0 ≤ p.2 ∧ p.2 < height

/-- Whether there is a pixel at a position and it is on. -/
def lit (s : Screen) (p : Int × Int) : Bool :=
  match index p.1 p.2 with
  | .ok k => s.pixels[k.val]?.getD false
  | .error _ => false

/-- A position on the screen has an index. -/
lemma index_of_has {p : Int × Int} (h : Has p) :
    ∃ k, index p.1 p.2 = .ok k ∧ (k.val : Int) = p.2 * width + p.1 := by
  refine ⟨_, dif_pos h, ?_⟩
  obtain ⟨h1, h2, h3, h4⟩ := h
  simp only [width] at *
  omega

/-- A position off the screen has none. -/
lemma index_of_not_has {p : Int × Int} (h : ¬ Has p) :
    index p.1 p.2 = .error (.offScreen (.finite p.1) (.finite p.2)) := dif_neg h

/-- Positions with the same index are the same. -/
lemma index_inj {p q : Int × Int} {k : Fin area} (hp : index p.1 p.2 = .ok k)
    (hq : index q.1 q.2 = .ok k) : p = q := by
  have onp : Has p := by
    by_contra h
    rw [index_of_not_has h] at hp
    cases hp
  have onq : Has q := by
    by_contra h
    rw [index_of_not_has h] at hq
    cases hq
  obtain ⟨k', e, value⟩ := index_of_has onp
  cases hp.symm.trans e
  obtain ⟨k', e, value'⟩ := index_of_has onq
  cases hq.symm.trans e
  obtain ⟨p1, p2, p3, p4⟩ := onp
  obtain ⟨q1, q2, q3, q4⟩ := onq
  simp only [width] at *
  exact Prod.ext (by omega) (by omega)

/-- Every index is that of a position. -/
lemma exists_index (k : Fin area) : ∃ p : Int × Int, index p.1 p.2 = .ok k := by
  have bound := k.isLt
  have on : Has (((k.val % width : Nat) : Int), ((k.val / width : Nat) : Int)) := by
    simp only [Has, area, width, height] at *
    omega
  obtain ⟨k', e, value⟩ := index_of_has on
  refine ⟨_, e.trans (congrArg _ (Fin.ext ?_))⟩
  simp only [width] at value
  omega

/-- Screens with the same pixels are the same. -/
lemma ext_lit {s s' : Screen} (h : ∀ p, s.lit p = s'.lit p) : s = s' := by
  obtain ⟨ps⟩ := s
  obtain ⟨ps'⟩ := s'
  congr 1
  apply Vector.ext
  intro i hi
  obtain ⟨p, e⟩ := exists_index ⟨i, hi⟩
  have := h p
  simp only [lit, e, Vector.getElem?_eq_getElem hi, Option.getD_some] at this
  exact this

/-- On a blank screen no pixel is on. -/
lemma lit_blank (p : Int × Int) : blank.lit p = false := by
  unfold lit
  split
  · simp [blank]
  · rfl

/-- Turning a pixel over changes that pixel only. -/
lemma lit_toggle {s : Screen} {p : Int × Int} {k : Fin area} (e : index p.1 p.2 = .ok k)
    (q : Int × Int) : (s.toggle k).2.lit q = (s.lit q ^^ decide (q = p)) := by
  by_cases same : q = p
  · subst same
    simp [lit, e, toggle]
  · simp only [same, decide_false, Bool.xor_false]
    simp only [lit, toggle]
    split
    · rename_i k' e'
      have differ : k ≠ k' := by
        rintro rfl
        exact same (index_inj e' e)
      simp [Fin.val_inj, differ]
    · rfl

/-- Turning over a pixel leaves the others as they are. -/
lemma lit_toggle_of_ne {s : Screen} {p q : Int × Int} {k : Fin area}
    (e : index p.1 p.2 = .ok k) (differ : q ≠ p) : (s.toggle k).2.lit q = s.lit q := by
  rw [lit_toggle e, decide_eq_false differ, Bool.xor_false]

/-- Turning over different positions on the screen turns over these and no others, and reports
whether one of them was on. -/
lemma flipAll_onScreen {s : Screen} {ps : List (Int × Int)} {hit : Bool} (on : ∀ p ∈ ps, Has p)
    (nodup : ps.Nodup) :
    ∃ s', s.flipAll ps hit = (s', .ok (hit || ps.any s.lit)) ∧
      ∀ q, s'.lit q = (s.lit q ^^ decide (q ∈ ps)) := by
  induction ps generalizing s hit with
  | nil =>
    refine ⟨s, ?_, ?_⟩
    · simp [flipAll]
    · simp
  | cons p rest ih =>
    obtain ⟨fresh, nodup'⟩ := List.nodup_cons.1 nodup
    obtain ⟨k, e, -⟩ := index_of_has (on p (List.mem_cons_self ..))
    have first : (s.toggle k).1 = s.lit p := by simp [toggle, lit, e]
    obtain ⟨s', run, view⟩ := @ih (s.toggle k).2 (hit || (s.toggle k).1)
      (fun q hq => on q (List.mem_cons_of_mem _ hq)) nodup'
    -- The other positions are not met again, so that they look as before the first was turned.
    have later : rest.any (s.toggle k).2.lit = rest.any s.lit := by
      rw [Bool.eq_iff_iff, List.any_eq_true, List.any_eq_true]
      apply exists_congr
      intro q
      apply and_congr_right
      intro hq
      rw [lit_toggle_of_ne e fun same => fresh (same ▸ hq)]
    refine ⟨s', ?_, ?_⟩
    · obtain ⟨x, y⟩ := p
      rw [flipAll]
      simp only at e
      rw [e]
      simp only
      rw [run, later, first, List.any_cons, Bool.or_assoc]
    · intro q
      rw [view, lit_toggle e]
      by_cases same : q = p
      · subst same
        simp [fresh]
      · simp [same]

/-- A sprite with an origin that is not negative stays on the screen. -/
lemma has_of_mem_targets {x y : Nat} {rows : Sprite} {p : Int × Int}
    (h : p ∈ Sprite.targets x y rows) : Has p := by
  obtain ⟨r, row, c, -, -, -, inside, rfl⟩ := Sprite.mem_targets.1 h
  simp only [Has, position, width, height] at *
  omega

/-- Drawing a sprite from an origin that is not negative combines the screen with its mask. -/
lemma draw_nat (s : Screen) (x y : Nat) (rows : Sprite) :
    ∃ s', s.draw x y rows = (s', .ok ((Sprite.targets x y rows).any s.lit)) ∧
      ∀ q, s'.lit q = (s.lit q ^^ decide (q ∈ Sprite.targets x y rows)) := by
  obtain ⟨s', run, view⟩ := @flipAll_onScreen s _ false (fun _ => has_of_mem_targets)
    (Sprite.nodup_targets x y rows)
  exact ⟨s', run.trans (by rw [Bool.false_or]), view⟩

end Screen

end Chip8
