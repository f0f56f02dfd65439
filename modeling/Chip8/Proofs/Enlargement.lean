import Chip8.Picture
import Chip8.Proofs.Screen
import Mathlib.Data.List.Induction
/-!
# Enlarged pictures

When the picture of a screen is the screen enlarged (`Enlarges`): every pixel of the screen becomes
a square of pixels in one of two colours. Painting goes through the pixels of the picture one after
the other (`paintScreen_eq`) and comes to each of them (`mem_squares`). It stores the bytes of a
pixel where the pixel is in the data, as long as that is below two to the thirty-first
(`shows_paintAll`), and stores nothing behind that at all (`getElem?_paintAll`). Data of that size
belong to the factor 512, so that a picture is right with factors up to this one and with no others,
as `make_enlarges_iff` says.
-/

namespace Chip8

/-- The colour of three numbers, of each of which the low eight bits count. -/
def Colour.ofInts (components : Int × Int × Int) : Colour :=
  ⟨.ofInt components.1, .ofInt components.2.1, .ofInt components.2.2⟩

namespace Picture

/-- What the data hold from the start of a pixel on: the pixel's colour, opaque. -/
structure Shows (data : ByteArray) (position : Nat) (c : Colour) : Prop where
  red : data[4 * position]? = some c.red
  green : data[4 * position + 1]? = some c.green
  blue : data[4 * position + 2]? = some c.blue
  opacity : data[4 * position + 3]? = some 255

/-- A picture that is a screen enlarged by a factor, in a colour for the pixels that are on and one
for those that are off. -/
structure Enlarges (p : Picture) (s : Screen) (scale : Nat) (on off : Colour) : Prop where
  width : p.width = 64 * scale
  height : p.height = 32 * scale
  size : p.data.size = 4 * (p.width * p.height)
  pixel : ∀ x < 64 * scale, ∀ y < 32 * scale,
    Shows p.data (y * (64 * scale) + x)
      (if s.lit (Screen.position (x / scale) (y / scale)) then on else off)

section Bytes

variable {data : ByteArray} {c : Colour} {q k j : Nat}

/-- The bytes of an array are those of its data. -/
lemma getElem?_eq_data (data : ByteArray) (k : Nat) : data[k]? = data.data[k]? := rfl

/-- The data of an array of zeros. -/
lemma data_zeros (n : Nat) : (zeros n).data = Array.replicate n 0 := by
  have whole : ∀ start : ByteArray,
      (n.fold (fun _ _ data => data.push 0) start).data = start.data ++ Array.replicate n 0 := by
    intro start
    induction n with
    | zero => simp
    | succ n ih =>
      rw [Nat.fold_succ, ByteArray.data_push, ih, Array.replicate_succ, Array.append_push]
  exact (whole _).trans (Array.empty_append ..)

/-- As many zeros as asked for. -/
lemma size_zeros (n : Nat) : (zeros n).size = n := by
  rw [ByteArray.size, data_zeros, Array.size_replicate]

/-- The bytes of an array of zeros. -/
lemma getElem?_zeros (n j : Nat) : (zeros n)[j]? = if j < n then some 0 else none := by
  rw [getElem?_eq_data, data_zeros, Array.getElem?_replicate]

/-- Storing a byte leaves the size as it is. -/
lemma size_store (data : ByteArray) (k : Nat) (value : UInt8) :
    (store data k value).size = data.size := by
  unfold store
  split
  · rw [ByteArray.size, ByteArray.data_set, Array.size_set]
    rfl
  · rfl

/-- Storing a byte changes that byte, if there is one, and no other. -/
lemma getElem?_store (data : ByteArray) (k j : Nat) (value : UInt8) :
    (store data k value)[j]? = if j = k ∧ k < data.size then some value else data[j]? := by
  unfold store
  split
  · rename_i inside
    simp only [inside, and_true, getElem?_eq_data, ByteArray.data_set, Array.getElem?_set,
      eq_comm (a := k)]
  · rename_i outside
    rw [if_neg fun h => outside h.2]

/-- The bytes of a pixel start at four times its number as long as that does not overflow. -/
lemma offset?_of_lt (small : 4 * q < 2147483648) : offset? q = some (4 * q) := by
  simp only [offset?, signed32?]
  rw [Nat.mod_eq_of_lt (by omega), if_pos small]

/-- The bytes of a pixel are never stored behind two to the thirty-first. -/
lemma lt_of_offset? (h : offset? q = some k) : k + 3 < 2147483648 := by
  simp only [offset?, signed32?] at h
  split at h
  · cases h
    omega
  · cases h

/-- Painting a pixel leaves the size as it is. -/
lemma size_paint (data : ByteArray) (q : Nat) (c : Colour) : (paint data q c).size = data.size := by
  unfold paint
  split
  · simp only [size_store]
  · rfl

/-- Painting a pixel changes nothing but the four bytes at its place. -/
lemma getElem?_paint_of_outside (outside : ∀ k, offset? q = some k → j < k ∨ k + 3 < j) :
    (paint data q c)[j]? = data[j]? := by
  unfold paint
  split
  · rename_i k place
    have away := outside k place
    simp only [getElem?_store]
    rw [if_neg (by omega), if_neg (by omega), if_neg (by omega), if_neg (by omega)]
  · rfl

/-- A pixel that has been painted is there, if its place is in the data and is no greater than what
thirty-two bits with a sign can hold. -/
lemma shows_paint (small : 4 * q < 2147483648) (inside : 4 * q + 3 < data.size) :
    Shows (paint data q c) q c := by
  unfold paint
  rw [offset?_of_lt small]
  constructor <;> simp only [getElem?_store, size_store]
  · rw [if_neg (by omega), if_neg (by omega), if_neg (by omega), if_pos ⟨trivial, by omega⟩]
  · rw [if_neg (by omega), if_neg (by omega), if_pos ⟨trivial, by omega⟩]
  · rw [if_neg (by omega), if_pos ⟨trivial, by omega⟩]
  · rw [if_pos ⟨trivial, inside⟩]

/-- A painted pixel stays so when another one is painted. -/
lemma Shows.paint {q' : Nat} {c' : Colour} (shown : Shows data q c) (differ : q' ≠ q)
    (small : 4 * q' < 2147483648) : Shows (paint data q' c') q c := by
  have same (i : Nat) (less : i < 4) :
      (Picture.paint data q' c')[4 * q + i]? = data[4 * q + i]? := by
    apply getElem?_paint_of_outside
    intro k place
    cases (offset?_of_lt small).symm.trans place
    omega
  constructor
  · exact (same 0 (by decide)).trans shown.red
  · exact (same 1 (by decide)).trans shown.green
  · exact (same 2 (by decide)).trans shown.blue
  · exact (same 3 (by decide)).trans shown.opacity

end Bytes

section Strokes

variable {data : ByteArray} {colour : Nat → Colour} {qs : List Nat} {q j : Nat}

/-- Paints pixels one after the other, each in the colour that belongs to its position. -/
def paintAll (colour : Nat → Colour) (qs : List Nat) (data : ByteArray) : ByteArray :=
  qs.foldl (fun data q => paint data q (colour q)) data

/-- The last of some pixels is painted behind the others. -/
lemma paintAll_concat (colour : Nat → Colour) (qs : List Nat) (q : Nat) (data : ByteArray) :
    paintAll colour (qs ++ [q]) data = paint (paintAll colour qs data) q (colour q) := by
  rw [paintAll, List.foldl_append]
  rfl

/-- Painting pixels leaves the size as it is. -/
lemma size_paintAll (colour : Nat → Colour) (qs : List Nat) (data : ByteArray) :
    (paintAll colour qs data).size = data.size := by
  induction qs using List.reverseRecOn with
  | nil => rfl
  | append_singleton qs q ih => rw [paintAll_concat, size_paint, ih]

/-- Whatever is painted, the bytes from two to the thirty-first on stay as they are. -/
lemma getElem?_paintAll (beyond : 2147483648 ≤ j) : (paintAll colour qs data)[j]? = data[j]? := by
  induction qs using List.reverseRecOn with
  | nil => rfl
  | append_singleton qs q ih =>
    rw [paintAll_concat, getElem?_paint_of_outside, ih]
    intro k place
    have := lt_of_offset? place
    omega

/-- Below two to the thirty-first, every pixel that is painted is there in the end. -/
lemma shows_paintAll (inside : ∀ q ∈ qs, 4 * q + 3 < data.size) (small : data.size ≤ 2147483648)
    (member : q ∈ qs) : Shows (paintAll colour qs data) q (colour q) := by
  induction qs using List.reverseRecOn with
  | nil => cases member
  | append_singleton qs last ih =>
    have final := inside last (List.mem_append_right _ List.mem_cons_self)
    rw [paintAll_concat]
    by_cases same : q = last
    · subst same
      apply shows_paint (by omega)
      rw [size_paintAll]
      exact final
    · have earlier : q ∈ qs := by simpa [same] using member
      have shown := ih (fun q h => inside q (List.mem_append_left _ h)) earlier
      exact shown.paint (fun e => same e.symm) (by omega)

end Strokes

section Squares

variable {s : Screen} {scale x y q : Nat} {on off : Colour}

/-- The positions of the pixels in the square of a screen pixel, in the order of painting. -/
def square (scale x y : Nat) : List Nat :=
  (List.range scale).flatMap fun dy => (List.range scale).map fun dx =>
    (y * scale + dy) * (64 * scale) + (x * scale + dx)

/-- The positions of all pixels of a picture, in the order of painting. -/
def squares (scale : Nat) : List Nat :=
  (List.range 32).flatMap fun y => (List.range 64).flatMap fun x => square scale x y

/-- The colour that belongs to a position of the picture. -/
def colourAt (s : Screen) (scale : Nat) (on off : Colour) (q : Nat) : Colour :=
  if s.lit (Screen.position (q % (64 * scale) / scale) (q / (64 * scale) / scale)) then on else off

/-- Counting up to a number goes through the naturals below it. -/
lemma fold_eq_foldl {α : Type} (f : α → Nat → α) (n : Nat) (start : α) :
    n.fold (fun i _ a => f a i) start = (List.range n).foldl f start := by
  induction n with
  | zero => rfl
  | succ n ih => rw [Nat.fold_succ, ih, List.range_succ, List.foldl_append]; rfl

/-- The column and the row of a position, and the screen pixel that it belongs to. -/
lemma mem_square (h : q ∈ square scale x y) (column : x < 64) :
    q % (64 * scale) / scale = x ∧ q / (64 * scale) / scale = y := by
  simp only [square, List.mem_flatMap, List.mem_map, List.mem_range] at h
  obtain ⟨dy, down, dx, right, rfl⟩ := h
  have room : (x + 1) * scale ≤ 64 * scale := Nat.mul_le_mul_right scale column
  rw [Nat.add_mul, Nat.one_mul] at room
  have less : x * scale + dx < 64 * scale := by omega
  have some_ : 0 < scale := by omega
  rw [Nat.mul_comm (y * scale + dy), Nat.mul_add_mod, Nat.mod_eq_of_lt less,
    Nat.mul_add_div (by omega), Nat.div_eq_of_lt less, Nat.add_zero, Nat.mul_comm x, Nat.mul_comm y,
    Nat.mul_add_div some_, Nat.mul_add_div some_, Nat.div_eq_of_lt right, Nat.div_eq_of_lt down]
  exact ⟨rfl, rfl⟩

/-- The pixels of all squares are those of the picture. -/
lemma mem_squares : q ∈ squares scale ↔ q < 32 * scale * (64 * scale) := by
  simp only [squares, List.mem_flatMap, List.mem_range]
  constructor
  · rintro ⟨y, row, x, column, h⟩
    have positive : 0 < scale := by
      by_contra none_
      obtain rfl : scale = 0 := by omega
      cases h
    obtain ⟨-, rfl⟩ := mem_square h column
    rw [Nat.div_lt_iff_lt_mul positive, Nat.div_lt_iff_lt_mul (by omega)] at row
    exact row
  · intro less
    have positive : 0 < scale := by
      by_contra none_
      obtain rfl : scale = 0 := by omega
      omega
    refine ⟨q / (64 * scale) / scale, ?_, q % (64 * scale) / scale, ?_, ?_⟩
    · rw [Nat.div_lt_iff_lt_mul positive, Nat.div_lt_iff_lt_mul (by omega)]
      exact less
    · rw [Nat.div_lt_iff_lt_mul positive]
      exact Nat.mod_lt _ (by omega)
    · simp only [square, List.mem_flatMap, List.mem_map, List.mem_range]
      refine ⟨q / (64 * scale) % scale, Nat.mod_lt _ positive, q % (64 * scale) % scale,
        Nat.mod_lt _ positive, ?_⟩
      rw [Nat.div_add_mod', Nat.div_add_mod', Nat.div_add_mod']

/-- The pixel of a position is at its place in the rows. -/
lemma getD_pixels (column : x < 64) (row : y < 32) :
    s.pixels.toArray.getD (y * Screen.width + x) false = s.lit (Screen.position x y) := by
  have on : Screen.Has (Screen.position x y) := by
    simp only [Screen.Has, Screen.position, Screen.width, Screen.height]
    omega
  obtain ⟨k, e, place⟩ := Screen.index_of_has on
  have same : k.val = y * Screen.width + x := by
    simp only [Screen.position, Screen.width] at place ⊢
    omega
  rw [Screen.lit, e]
  simp only [same]
  rw [Array.getD_eq_getD_getElem?, Vector.getElem?_toArray]

/-- A cell is painted pixel by pixel. -/
lemma paintCell_eq (scale x y : Nat) (c : Colour) (data : ByteArray) :
    paintCell scale x y c data = paintAll (fun _ => c) (square scale x y) data := by
  rw [paintAll, square, List.foldl_flatMap]
  refine (fold_eq_foldl (fun data dy => scale.fold (fun dx _ data =>
    paint data ((y * scale + dy) * (64 * scale) + (x * scale + dx)) c) data) scale data).trans ?_
  apply List.foldl_ext
  intro data dy _
  rw [List.foldl_map]
  exact fold_eq_foldl (fun data dx => paint data _ c) scale data

/-- Painting a screen paints the pixels of the picture one after the other. -/
lemma paintScreen_eq (s : Screen) (scale : Nat) (on off : Colour) (data : ByteArray) :
    paintScreen s scale on off data = paintAll (colourAt s scale on off) (squares scale) data := by
  rw [paintScreen, paintAll, squares, List.foldl_flatMap]
  apply List.foldl_ext
  intro data y row
  rw [List.foldl_flatMap]
  apply List.foldl_ext
  intro data x column
  rw [List.mem_range] at row column
  rw [paintCell_eq, paintAll]
  apply List.foldl_ext
  intro data q member
  obtain ⟨x_eq, y_eq⟩ := mem_square member column
  rw [colourAt, x_eq, y_eq, getD_pixels column row]

/-- With a factor of at most 512, every pixel that is painted is there. -/
lemma shows_paintScreen (bound : scale ≤ 512) (less : q < 32 * scale * (64 * scale)) :
    Shows (paintScreen s scale on off (zeros (4 * (64 * scale * (32 * scale))))) q
      (colourAt s scale on off q) := by
  have whole := Nat.mul_le_mul (Nat.mul_le_mul_left 32 bound) (Nat.mul_le_mul_left 64 bound)
  rw [paintScreen_eq]
  apply shows_paintAll _ _ (mem_squares.2 less)
  · intro q member
    have := mem_squares.1 member
    rw [size_zeros, Nat.mul_comm (64 * scale)]
    omega
  · rw [size_zeros, Nat.mul_comm (64 * scale)]
    omega

/-- With any factor, nothing is painted from two to the thirty-first on. -/
lemma getElem?_paintScreen {j size : Nat} (beyond : 2147483648 ≤ j) :
    (paintScreen s scale on off (zeros size))[j]? = if j < size then some 0 else none := by
  rw [paintScreen_eq, getElem?_paintAll beyond, getElem?_zeros]

end Squares

section Factor

variable {scale : Nat}

/-- A side that does not overflow is enlarged by the factor. -/
lemma enlarged_of_lt {extent : Nat} (small : extent * scale < 2147483648) :
    enlarged extent scale = extent * scale := by
  rw [enlarged, signed32?]
  simp only [Nat.mod_eq_of_lt (show extent * scale < 4294967296 by omega), small, if_true,
    Option.getD_some]

/-- The width of a picture with a factor up to 512. -/
lemma enlarged_width (bound : scale ≤ 512) : enlarged Screen.width scale = 64 * scale :=
  enlarged_of_lt (by simp only [Screen.width]; omega)

/-- The height of a picture with a factor up to 512. -/
lemma enlarged_height (bound : scale ≤ 512) : enlarged Screen.height scale = 32 * scale :=
  enlarged_of_lt (by simp only [Screen.height]; omega)

/-- The number of bytes of a picture with a factor up to 512. -/
lemma dataSize_of_le (bound : scale ≤ 512) :
    dataSize scale = 4 * (64 * scale * (32 * scale)) := by
  rw [dataSize, enlarged_width bound, enlarged_height bound, Nat.mul_assoc]

/-- There is room for the data of a picture with a factor of at most 512. -/
lemma refusal_of_le (positive : 1 ≤ scale) (bound : scale ≤ 512) : refusal scale = none := by
  have small := Nat.mul_le_mul (Nat.mul_le_mul_left 64 bound) (Nat.mul_le_mul_left 32 bound)
  have some_ := Nat.mul_le_mul (Nat.mul_le_mul_left 64 positive) (Nat.mul_le_mul_left 32 positive)
  simp only [refusal, dataSize_of_le bound, Buffer.byteLimit]
  rw [if_neg (by omega), if_neg (by omega)]

/-- A whole factor from one on is taken as it is. -/
lemma factor?_nat (positive : 1 ≤ scale) : factor? (.finite scale) = some scale := by
  have whole : (scale : Rat).floor = scale := Rat.floor_intCast scale
  have larger : (max 1 (scale : Int)).toNat = scale := by omega
  rw [factor?, whole, larger]

/-- With a whole factor from one on a picture is made or refused for its size. -/
lemma make_nat (positive : 1 ≤ scale) (s : Screen) (on off : Colour) :
    make s (.finite scale) on off =
      match refusal scale with
      | some e => .error e
      | none => .ok (ofScreen s scale on off) := by
  simp only [make, factor, factor?_nat positive]
  cases refusal scale <;> rfl

/-- A picture with a factor of at most 512 is the enlarged screen. -/
lemma enlarges_ofScreen (bound : scale ≤ 512) (s : Screen) (on off : Colour) :
    (ofScreen s scale on off).Enlarges s scale on off := by
  refine ⟨enlarged_width bound, enlarged_height bound, ?_, ?_⟩
  · rw [ofScreen, paintScreen_eq, size_paintAll, size_zeros, dataSize_of_le bound,
      enlarged_width bound, enlarged_height bound]
  · intro x column y row
    have room := Nat.mul_le_mul_right (64 * scale) (Nat.succ_le_of_lt row)
    rw [Nat.succ_mul] at room
    have shown := @shows_paintScreen s scale (y * (64 * scale) + x) on off bound (by omega)
    rw [colourAt, Nat.mul_comm y, Nat.mul_add_mod, Nat.mod_eq_of_lt column,
      Nat.mul_add_div (by omega), Nat.div_eq_of_lt column, Nat.add_zero,
      Nat.mul_comm (64 * scale) y] at shown
    rw [ofScreen, dataSize_of_le bound]
    exact shown

/-- With a greater factor, the first pixel whose bytes lie from two to the thirty-first on is part
of the picture, and is left as it was. -/
lemma not_enlarges_ofScreen (large : 512 < scale) (s : Screen) (on off : Colour) :
    ¬ (ofScreen s scale on off).Enlarges s scale on off := by
  intro enlarges
  have whole := Nat.mul_le_mul (Nat.mul_le_mul_left 32 large) (Nat.mul_le_mul_left 64 large)
  have inside : 536870912 / (64 * scale) < 32 * scale := by
    rw [Nat.div_lt_iff_lt_mul (by omega)]
    omega
  have shown := enlarges.pixel (536870912 % (64 * scale)) (Nat.mod_lt _ (by omega)) _ inside
  have opacity := shown.opacity
  rw [Nat.div_add_mod', ofScreen, getElem?_paintScreen (by decide)] at opacity
  split at opacity <;> cases opacity

/-- A picture has as many bytes as are claimed for it. -/
lemma size_ofScreen (s : Screen) (scale : Nat) (on off : Colour) :
    (ofScreen s scale on off).data.size = dataSize scale := by
  rw [ofScreen, paintScreen_eq, size_paintAll, size_zeros]

/-- A program makes the same picture, provided that there is memory for its data. -/
theorem makeWithin_eq_ok_iff {memory : Nat} {s : Screen} {scale : Number} {on off : Colour}
    {p : Picture} :
    makeWithin memory s scale on off = .ok p ↔
      make s scale on off = .ok p ∧ p.data.size ≤ memory := by
  rw [makeWithin, make]
  cases factor scale with
  | error e =>
    refine ⟨fun made => ?_, fun made => ?_⟩
    · cases made
    · cases made.1
  | ok n =>
    have size := size_ofScreen s n on off
    by_cases room : dataSize n ≤ memory
    · have claimed : Buffer.claim memory (dataSize n) = .ok () := if_neg (Nat.not_lt_of_le room)
      simp only [bind, Except.bind, claimed]
      refine ⟨fun made => ⟨made, ?_⟩, fun made => made.1⟩
      cases made
      rwa [size]
    · have refused : Buffer.claim memory (dataSize n) = .error .bufferMemory :=
        if_pos (Nat.lt_of_not_le room)
      simp only [bind, Except.bind, refused]
      constructor
      · rintro ⟨⟩
      · rintro ⟨⟨⟩, fits⟩
        rw [size] at fits
        exact absurd fits room

/-- With a whole factor from one on and any two colours, a picture is made that is the enlarged
screen exactly if the factor is at most 512. -/
theorem make_enlarges_iff (s : Screen) {scale : Nat} (positive : 1 ≤ scale)
    (on off : Int × Int × Int) :
    (∃ p, make s (.finite scale) (.ofInts on) (.ofInts off) = .ok p ∧
      p.Enlarges s scale (.ofInts on) (.ofInts off)) ↔ scale ≤ 512 := by
  rw [make_nat positive]
  constructor
  · rintro ⟨p, made, enlarges⟩
    by_contra large
    split at made
    · cases made
    · cases made
      exact not_enlarges_ofScreen (Nat.lt_of_not_le large) _ _ _ enlarges
  · intro bound
    rw [refusal_of_le positive bound]
    exact ⟨_, rfl, enlarges_ofScreen bound _ _ _⟩

/-- The greatest factor, and components that do not fit into a byte. -/
theorem make_enlarges_iff_greatest :
    1 ≤ 512 ∧
    ∃ p, make .blank (.finite (512 : Nat)) (.ofInts (300, 20, -1)) (.ofInts (0, 0, 0)) = .ok p ∧
      p.Enlarges .blank 512 ⟨44, 20, 255⟩ .black :=
  ⟨by decide, (make_enlarges_iff .blank (by decide) (300, 20, -1) (0, 0, 0)).2 (by decide)⟩

/-- With the factor 513 a picture is made, but the pixel in the first column of row 16384 is
transparent. -/
theorem make_transparent :
    ∃ p, make .blank (.finite (513 : Nat)) (.ofInts (255, 255, 255)) (.ofInts (0, 0, 0)) = .ok p ∧
      p.width = 64 * 513 ∧ p.height = 32 * 513 ∧
      p.data[4 * (16384 * (64 * 513) + 0) + 3]? = some 0 := by
  rw [make_nat (by decide), show refusal 513 = none from rfl]
  refine ⟨_, rfl, rfl, rfl, ?_⟩
  rw [ofScreen, getElem?_paintScreen (by decide)]
  rfl

end Factor

end Picture

end Chip8
