import Chip8.Proofs.Drawing
import Mathlib.Algebra.Ring.Parity
/-!
# Sprites on top of each other

Any number of sprites drawn on a screen one after the other. None of them fails, and what is seen in
the end depends on nothing but how many of the sprites lie over a pixel: an odd number of them turns
it over (`drawAll_stamps`). So the order of drawing makes no difference, and drawing everything once
more restores the screen, in whatever order that is done, as `drawAll_perm` says. What a single
drawing reports does depend on the order; of a sprite that is drawn twice in succession it is known,
since the second time its pixels are the other way round.
-/

namespace Chip8

/-- A sprite of any row values with the origin that it is drawn from. -/
structure Stamp where
  x : Nat
  y : Nat
  values : List Int
deriving DecidableEq

namespace Stamp

/-- The positions that a sprite lies over. -/
def mask (d : Stamp) : Finset (Int × Int) := Sprite.mask d.x d.y d.values

/-- Whether an odd number of sprites lies over a position. -/
def turnOver (ds : List Stamp) (p : Int × Int) : Bool :=
  decide (Odd (ds.countP fun d => p ∈ d.mask))

/-- One sprite more turns over the pixels that it lies over. -/
lemma turnOver_cons (d : Stamp) (ds : List Stamp) (p : Int × Int) :
    turnOver (d :: ds) p = (decide (p ∈ d.mask) ^^ turnOver ds p) := by
  rw [turnOver, List.countP_cons]
  by_cases inside : p ∈ d.mask
  · simp only [inside, decide_true, if_true, Nat.odd_add_one, decide_not, Bool.true_xor, turnOver]
  · simp only [inside, decide_false, Bool.false_eq_true, if_false, Nat.add_zero, Bool.false_xor,
      turnOver]

/-- The order of the sprites makes no difference. -/
lemma turnOver_of_perm {ds ds' : List Stamp} (same : ds.Perm ds') : turnOver ds = turnOver ds' := by
  funext p
  rw [turnOver, turnOver, same.countP_eq]

end Stamp

namespace Screen

/-- Draws a sprite where it is to be. -/
def stamp (s : Screen) (d : Stamp) : Screen × Except InputError Bool :=
  s.draw d.x d.y (Sprite.ofInts d.values)

/-- Draws sprites one after the other, up to the first that fails. The result says of each of them
whether that turned a pixel off. -/
def drawAll (s : Screen) : List Stamp → Screen × Except InputError (List Bool)
  | [] => (s, .ok [])
  | d :: rest =>
    match s.stamp d with
    | (s', .error e) => (s', .error e)
    | (s', .ok hit) =>
      match s'.drawAll rest with
      | (s'', hits) => (s'', (hit :: ·) <$> hits)

/-- A single sprite turns over the pixels that it lies over, and reports whether one of them was
on. -/
lemma stamp_mask (s : Screen) (d : Stamp) :
    ∃ s' hit, s.stamp d = (s', .ok hit) ∧ (∀ p, s'.lit p = (s.lit p ^^ decide (p ∈ d.mask))) ∧
      (hit = true ↔ ∃ p ∈ d.mask, s.lit p = true) := by
  obtain ⟨s', drawn, view⟩ := s.draw_nat d.x d.y (Sprite.ofInts d.values)
  refine ⟨s', _, drawn, ?_, ?_⟩
  · intro p
    rw [view, Stamp.mask, Sprite.mask_eq_targets]
    simp only [List.mem_toFinset]
  · rw [List.any_eq_true, Stamp.mask, Sprite.mask_eq_targets]
    simp only [List.mem_toFinset]

/-- Sprites that are drawn one after the other turn over the pixels that an odd number of them lies
over. -/
lemma drawAll_stamps (s : Screen) (ds : List Stamp) :
    ∃ s' hits, s.drawAll ds = (s', .ok hits) ∧
      ∀ p, s'.lit p = (s.lit p ^^ Stamp.turnOver ds p) := by
  induction ds generalizing s with
  | nil =>
    refine ⟨s, [], rfl, ?_⟩
    intro p
    simp [Stamp.turnOver]
  | cons d rest ih =>
    obtain ⟨s₁, hit, first, view, -⟩ := s.stamp_mask d
    obtain ⟨s₂, hits, later, view'⟩ := ih s₁
    refine ⟨s₂, hit :: hits, ?_, ?_⟩
    · rw [drawAll, first]
      simp only [later]
      rfl
    · intro p
      rw [view', view, Stamp.turnOver_cons, Bool.xor_assoc]

/-- Sprites of any row values drawn from origins that are not negative, in any order. They leave the
same screen in whatever order they are drawn, and restore it from there when they are drawn again in
whatever order. One sprite drawn twice in succession restores the screen as well, and the second
time reports whether a pixel that it lies over was off at first. -/
theorem drawAll_perm (s : Screen) :
    (∀ ds ds' : List Stamp, ds.Perm ds' →
      ∃ s' hits hits' again, s.drawAll ds = (s', .ok hits) ∧ s.drawAll ds' = (s', .ok hits') ∧
        s'.drawAll ds' = (s, .ok again)) ∧
    ∀ (x y : Nat) (values : List Int),
      ∃ s' hit again, s.draw x y (Sprite.ofInts values) = (s', .ok hit) ∧
        s'.draw x y (Sprite.ofInts values) = (s, .ok again) ∧
        (again = true ↔ ∃ p ∈ Sprite.mask x y values, s.lit p = false) := by
  refine ⟨?_, ?_⟩
  · intro ds ds' same
    obtain ⟨s₁, hits, drawn, view⟩ := s.drawAll_stamps ds
    obtain ⟨s₂, hits', drawn', view'⟩ := s.drawAll_stamps ds'
    obtain ⟨s₃, again, back, view''⟩ := s₁.drawAll_stamps ds'
    have reordered : s₂ = s₁ := by
      apply ext_lit
      intro p
      rw [view', view, Stamp.turnOver_of_perm same]
    have restored : s₃ = s := by
      apply ext_lit
      intro p
      rw [view'', view, Stamp.turnOver_of_perm same, Bool.xor_assoc, Bool.xor_self, Bool.xor_false]
    subst reordered restored
    exact ⟨s₂, hits, hits', again, drawn, drawn', back⟩
  · intro x y values
    obtain ⟨s₁, hit, drawn, view, -⟩ := s.stamp_mask ⟨x, y, values⟩
    obtain ⟨s₂, again, back, view', met⟩ := s₁.stamp_mask ⟨x, y, values⟩
    have restored : s₂ = s := by
      apply ext_lit
      intro p
      rw [view', view, Bool.xor_assoc, Bool.xor_self, Bool.xor_false]
    subst restored
    refine ⟨s₁, hit, again, drawn, back, met.trans (exists_congr fun p => and_congr_right ?_)⟩
    intro inside
    rw [view, decide_eq_true inside, Bool.xor_true, Bool.not_eq_true']

/-- Two sprites that overlap where one of them is wrapped around and both are cut off. -/
theorem drawAll_perm_wrapped :
    ([⟨62, 30, [-1, 0x1FF, 255]⟩, ⟨64, 63, [0x80, 1]⟩] : List Stamp).Perm
      [⟨64, 63, [0x80, 1]⟩, ⟨62, 30, [-1, 0x1FF, 255]⟩] ∧
    ∃ s' hits hits' again,
      blank.drawAll [⟨62, 30, [-1, 0x1FF, 255]⟩, ⟨64, 63, [0x80, 1]⟩] = (s', .ok hits) ∧
      blank.drawAll [⟨64, 63, [0x80, 1]⟩, ⟨62, 30, [-1, 0x1FF, 255]⟩] = (s', .ok hits') ∧
      s'.drawAll [⟨64, 63, [0x80, 1]⟩, ⟨62, 30, [-1, 0x1FF, 255]⟩] = (blank, .ok again) :=
  ⟨.swap .., (drawAll_perm blank).1 _ _ (.swap ..)⟩

end Screen

end Chip8
