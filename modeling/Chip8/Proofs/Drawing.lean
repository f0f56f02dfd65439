import Chip8.Proofs.Screen
import Mathlib.Data.Finset.Card
import Mathlib.Data.Finset.Prod
/-!
# Collisions and the number of pixels that are on

`Sprite.mask` is the set of positions that drawing a sprite of any row values turns over, as
arithmetic on the origin and the bits of the rows. Drawing visits each of them once
(`mask_eq_targets`), so that neither a pixel's later state nor a second visit blurs what is reported
and counted: `draw_mask` says which pixels are on afterwards, whether one of the mask was on before,
and how the number of pixels that are on has changed.
-/

namespace Chip8

namespace Sprite

/-- The positions under the set bits of rows, from an origin that is wrapped onto the screen.
Columns wrap around, and rows below the screen are left out. -/
def mask (x y : Nat) (values : List Int) : Finset (Int × Int) :=
  ((Finset.range 8 ×ˢ Finset.range values.length).filter fun (c, r) =>
    y % 32 + r < 32 ∧ values.getD r 0 / 2 ^ (7 - c) % 2 = 1).image
      fun (c, r) => Screen.position ((x % 64 + c) % 64) (y % 32 + r)

/-- The bits of a row are those of its value. -/
lemma lit_ofInt {value : Int} {c : Nat} (inside : c < 8) :
    lit (UInt8.ofInt value) c = true ↔ value / 2 ^ (7 - c) % 2 = 1 := by
  have low : (UInt8.ofInt value).toNat = (value % 256).toNat := by
    simp only [UInt8.ofInt, UInt8.toNat_ofNat']
    omega
  rw [lit, Nat.testBit_eq_decide_div_mod_eq, decide_eq_true_eq, low]
  obtain rfl | rfl | rfl | rfl | rfl | rfl | rfl | rfl :
    c = 0 ∨ c = 1 ∨ c = 2 ∨ c = 3 ∨ c = 4 ∨ c = 5 ∨ c = 6 ∨ c = 7 := by omega
  all_goals
    simp only [Nat.reduceSub, Nat.reducePow, Int.reducePow]
    omega

/-- Which bits are set in the rows that values make. -/
lemma exists_lit_ofInts {values : List Int} {r c : Nat} (inside : c < 8) :
    (∃ row, (ofInts values)[r]? = some row ∧ lit row c = true) ↔
      r < values.length ∧ values.getD r 0 / 2 ^ (7 - c) % 2 = 1 := by
  rw [ofInts, List.getElem?_map]
  constructor
  · rintro ⟨row, at_, on⟩
    obtain ⟨value, found, rfl⟩ := Option.map_eq_some_iff.1 at_
    obtain ⟨row, rfl⟩ := List.getElem?_eq_some_iff.1 found
    refine ⟨row, ?_⟩
    rw [List.getD_eq_getElem?_getD, found, Option.getD_some]
    exact (lit_ofInt inside).1 on
  · rintro ⟨row, bit⟩
    refine ⟨UInt8.ofInt (values.getD r 0), ?_, (lit_ofInt inside).2 bit⟩
    simp [row]

/-- Drawing turns over the positions of the mask. -/
lemma mask_eq_targets (x y : Nat) (values : List Int) :
    mask x y values = (targets x y (ofInts values)).toFinset := by
  ext p
  rw [List.mem_toFinset, mem_targets, mask, Finset.mem_image]
  constructor
  · rintro ⟨⟨c, r⟩, member, rfl⟩
    simp only [Finset.mem_filter, Finset.mem_product, Finset.mem_range] at member
    obtain ⟨⟨column, row⟩, inside, bit⟩ := member
    obtain ⟨bits, at_, on⟩ := (exists_lit_ofInts column).2 ⟨row, bit⟩
    exact ⟨r, bits, c, at_, column, on, inside, rfl⟩
  · rintro ⟨r, bits, c, at_, column, on, inside, rfl⟩
    obtain ⟨row, bit⟩ := (exists_lit_ofInts column).1 ⟨bits, at_, on⟩
    refine ⟨(c, r), ?_, rfl⟩
    simp only [Finset.mem_filter, Finset.mem_product, Finset.mem_range]
    exact ⟨⟨column, row⟩, inside, bit⟩

end Sprite

namespace Screen

variable {s : Screen}

/-- Turning a pixel over adds it to those that are on, or takes it from them. -/
lemma countLit_toggle (s : Screen) (k : Fin area) :
    (s.toggle k).2.countLit + 2 * (if (s.toggle k).1 then 1 else 0) = s.countLit + 1 := by
  have inside : k.val < s.pixels.toList.length := by
    rw [Vector.length_toList]
    exact k.isLt
  have pixel : s.pixels.toList[k.val] = s.pixels[k] := by
    simp
  have some_ : 0 < s.pixels.toList.count s.pixels[k] := by
    rw [List.count_pos_iff, ← pixel]
    exact List.getElem_mem inside
  simp only [toggle, countLit, Vector.toList_set]
  rw [List.count_set inside, pixel]
  obtain on | off := Bool.eq_false_or_eq_true s.pixels[k]
  · rw [on] at some_
    simp only [on, beq_self_eq_true, if_true, Bool.not_true, Bool.false_beq, Bool.false_eq_true,
      if_false]
    omega
  · simp only [off, Bool.not_false, beq_self_eq_true, if_true, Bool.false_beq, Bool.not_true,
      Bool.false_eq_true, if_false]
    omega

/-- Turning over different positions on the screen adds those to the pixels that are on that were
off, and takes those from them that were on. -/
lemma countLit_flipAll {ps : List (Int × Int)} {hit : Bool} (on : ∀ p ∈ ps, Has p)
    (nodup : ps.Nodup) :
    (s.flipAll ps hit).1.countLit + 2 * ps.countP s.lit = s.countLit + ps.length := by
  induction ps generalizing s hit with
  | nil => rfl
  | cons p rest ih =>
    obtain ⟨fresh, nodup'⟩ := List.nodup_cons.1 nodup
    obtain ⟨k, e, -⟩ := index_of_has (on p List.mem_cons_self)
    have first : (s.toggle k).1 = s.lit p := by simp [toggle, lit, e]
    have turned := s.countLit_toggle k
    have later := @ih (s.toggle k).2 (hit || (s.toggle k).1)
      (fun q hq => on q (List.mem_cons_of_mem _ hq)) nodup'
    have same : rest.countP (s.toggle k).2.lit = rest.countP s.lit := by
      apply List.countP_congr
      intro q hq
      rw [lit_toggle_of_ne e fun same => fresh (same ▸ hq)]
    obtain ⟨x, y⟩ := p
    rw [flipAll]
    simp only at e
    rw [e]
    simp only
    rw [same] at later
    rw [first] at turned
    rw [List.countP_cons, List.length_cons]
    omega

/-- Drawing a sprite of any row values from an origin that is not negative. It succeeds, turns over
the pixels of its mask and no others, and reports whether one of them was on before. To the number
of pixels that are on it adds the size of the mask less twice the number of those in it that were
on. -/
theorem draw_mask (s : Screen) (x y : Nat) (values : List Int) :
    ∃ s' hit, s.draw x y (Sprite.ofInts values) = (s', .ok hit) ∧
      (∀ p, s'.lit p = if p ∈ Sprite.mask x y values then !s.lit p else s.lit p) ∧
      (hit = true ↔ ∃ p ∈ Sprite.mask x y values, s.lit p = true) ∧
      s'.countLit + 2 * ((Sprite.mask x y values).filter fun p => s.lit p = true).card =
        s.countLit + (Sprite.mask x y values).card := by
  have nodup := Sprite.nodup_targets x y (Sprite.ofInts values)
  have count := @countLit_flipAll s _ false (fun _ => has_of_mem_targets) nodup
  have size := List.toFinset_card_of_nodup nodup
  have lit := List.toFinset_card_of_nodup (nodup.filter fun p => s.lit p)
  rw [← List.countP_eq_length_filter, List.toFinset_filter] at lit
  rw [Sprite.mask_eq_targets]
  obtain ⟨s', run, view⟩ := s.draw_nat x y (Sprite.ofInts values)
  refine ⟨s', _, run, ?_, ?_, ?_⟩
  · intro p
    rw [view]
    by_cases covered : p ∈ Sprite.targets x y (Sprite.ofInts values)
    · rw [if_pos (List.mem_toFinset.2 covered), decide_eq_true covered, Bool.xor_true]
    · rw [if_neg (fun h => covered (List.mem_toFinset.1 h)), decide_eq_false covered,
        Bool.xor_false]
  · rw [List.any_eq_true]
    simp only [List.mem_toFinset]
  · rw [← draw, run] at count
    rw [lit, size]
    exact count

end Screen

end Chip8
