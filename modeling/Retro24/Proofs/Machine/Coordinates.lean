/-
  File:      Retro24/Proofs/Machine/Coordinates.lean
  Subject:   Columns and rows of a frame, and where their pixels stand.

  * `Frame.area`, `Frame.place`: how many pixels a frame should have, and which of them belongs to a
    column and a row, both in unbounded numbers. Every place below the area belongs to one column
    and row (`exists_place`), and to no other (`place_inj`).
  * `Frame.exactPixel?`: the color at a place that is found in this way.
  * `blank?_eq`, `pixel?_eq`: products and sums are counted in words of 32 bits, and where one of
    them overflows there is no frame and no color.
  * `forall_exact_iff`: so the colors of a frame are all found exactly if its sides stand for up to
    2^32 pixels.
  * `pixels_found`: all of it together; the frame of a machine is small. `tall_frame_breaks_off`: a
    frame that is too large.
-/
import Retro24.Proofs.Machine.Invariant

namespace Retro24

namespace Frame

variable {f : Frame} {x y x' y' : UInt32} {i : Nat}

/-! ## 1. Places in unbounded numbers -/

/-- The number of pixels that the sides of a frame stand for. -/
def area (f : Frame) : Nat := f.width.toNat * f.height.toNat

/-- A column and a row that a frame has. -/
abbrev Contains (f : Frame) (x y : UInt32) : Prop := x < f.width ∧ y < f.height

/-- Where the pixel in column `x` and row `y` stands, row after row. -/
def place (f : Frame) (x y : UInt32) : Nat := y.toNat * f.width.toNat + x.toNat

/-- The color in column `x` and row `y`, found in unbounded numbers. -/
def exactPixel? (f : Frame) (x y : UInt32) : Option UInt32 :=
  if f.Contains x y then f.pixels[f.place x y]? else none

theorem place_lt_area (inside : f.Contains x y) : f.place x y < f.area := by
  have column : x.toNat < f.width.toNat := inside.1
  have rows : (y.toNat + 1) * f.width.toNat ≤ f.height.toNat * f.width.toNat :=
    Nat.mul_le_mul_right f.width.toNat inside.2
  rw [Nat.succ_mul] at rows
  rw [place, area, Nat.mul_comm f.width.toNat]
  omega

/-- Every place below the area belongs to a column and a row. -/
theorem exists_place (below : i < f.area) : ∃ x y, f.Contains x y ∧ f.place x y = i := by
  have wide : 0 < f.width.toNat := Nat.pos_of_mul_pos_right (Nat.zero_lt_of_lt below)
  have column : i % f.width.toNat < f.width.toNat := Nat.mod_lt i wide
  have row : i / f.width.toNat < f.height.toNat := Nat.div_lt_of_lt_mul below
  -- both are words, since they are smaller than the sides
  have x_eq : (UInt32.ofNat (i % f.width.toNat)).toNat = i % f.width.toNat :=
    UInt32.toNat_ofNat_of_lt' (Nat.lt_trans column f.width.toNat_lt)
  have y_eq : (UInt32.ofNat (i / f.width.toNat)).toNat = i / f.width.toNat :=
    UInt32.toNat_ofNat_of_lt' (Nat.lt_trans row f.height.toNat_lt)
  refine ⟨.ofNat (i % f.width.toNat), .ofNat (i / f.width.toNat), ⟨?_, ?_⟩, ?_⟩
  · rw [UInt32.lt_iff_toNat_lt, x_eq]
    exact column
  · rw [UInt32.lt_iff_toNat_lt, y_eq]
    exact row
  · rw [place, x_eq, y_eq]
    exact Nat.div_add_mod' i f.width.toNat

/-- And it belongs to no other. -/
theorem place_inj (inside : f.Contains x y) (inside' : f.Contains x' y')
    (same : f.place x y = f.place x' y') : x = x' ∧ y = y' := by
  have column : x.toNat < f.width.toNat := inside.1
  have column' : x'.toNat < f.width.toNat := inside'.1
  have wide : 0 < f.width.toNat := Nat.zero_lt_of_lt column
  have rows := congrArg (· / f.width.toNat) same
  have columns := congrArg (· % f.width.toNat) same
  simp only [place, Nat.mul_add_mod_self_right, Nat.mod_eq_of_lt column,
    Nat.mod_eq_of_lt column'] at columns
  simp only [place, Nat.mul_comm _ f.width.toNat, Nat.mul_add_div wide, Nat.div_eq_of_lt column,
    Nat.div_eq_of_lt column', Nat.add_zero] at rows
  exact ⟨UInt32.toNat_inj.mp columns, UInt32.toNat_inj.mp rows⟩

/-! ## 2. Places in words of 32 bits -/

/-- **A frame is made if the product of its sides is a word**, and has as many pixels then. -/
theorem blank?_eq (width height : UInt32) :
    blank? width height =
      if width.toNat * height.toNat < 0x100000000 then some (blank width height) else none := by
  by_cases small : width.toNat * height.toNat < 0x100000000
  · obtain ⟨size, product, same⟩ := longWord?_eq_some small
    rw [if_pos small, blank?, product, Option.map_some, same, blank]
  · rw [if_neg small, blank?, longWord?_eq_none (Nat.not_lt.mp small)]
    rfl

theorem size_blank (width height : UInt32) :
    (blank width height).pixels.size = width.toNat * height.toNat :=
  Array.size_replicate

/-- Of two sums in a row it is enough to look at the second one. -/
theorem bind_longWord?_add {α : Type} (n m : Nat) (found : UInt32 → α) :
    ((longWord? n).bind fun w => (longWord? (w.toNat + m)).map found) =
      (longWord? (n + m)).map found := by
  by_cases small : n < 0x100000000
  · obtain ⟨w, word, same⟩ := longWord?_eq_some small
    rw [word, Option.bind_some, same]
  · have large := Nat.not_lt.mp small
    rw [longWord?_eq_none large, longWord?_eq_none (Nat.le_trans large (Nat.le_add_right n m))]
    rfl

/-- **A color is looked up at its place, unless that is no word.** -/
theorem pixel?_eq (f : Frame) (x y : UInt32) :
    f.pixel? x y =
      if f.Contains x y ∧ 0x100000000 ≤ f.place x y then none else some (f.exactPixel? x y) := by
  by_cases inside : f.Contains x y
  · rw [pixel?, exactPixel?, if_pos inside, if_pos inside, bind_longWord?_add, ← place]
    by_cases small : f.place x y < 0x100000000
    · obtain ⟨place, word, here⟩ := longWord?_eq_some small
      rw [if_neg fun large => Nat.not_le.mpr small large.2, word, Option.map_some, here]
    · have large := Nat.not_lt.mp small
      rw [if_pos ⟨inside, large⟩, longWord?_eq_none large]
      rfl
  · rw [pixel?, exactPixel?, if_neg inside, if_neg inside, if_neg fun both => inside both.1]

/-- **All colors of a frame are found exactly if it has up to 2^32 places**, whether there are
    pixels for them or not. -/
theorem forall_exact_iff :
    (∀ x y, f.pixel? x y = some (f.exactPixel? x y)) ↔ f.area ≤ 0x100000000 := by
  constructor
  · intro exact
    refine Nat.not_lt.mp fun large => ?_
    obtain ⟨x, y, inside, last⟩ := exists_place large
    have here := exact x y
    rw [pixel?_eq, if_pos ⟨inside, Nat.le_of_eq last.symm⟩] at here
    cases here
  · intro small x y
    rw [pixel?_eq, if_neg]
    rintro ⟨inside, large⟩
    exact Nat.not_le.mpr (Nat.lt_of_lt_of_le (place_lt_area inside) small) large

end Frame

/-! ## 3. The frame of a machine -/

namespace Machine

variable {m : Machine}

theorem Sound.area_frame (h : m.Sound) : m.frame.area = pixelCount := by
  rw [Frame.area, h.width, h.height]
  rfl

/-- **Every pixel of the screen is found**, and nothing beside it. -/
theorem Sound.pixel?_frame (h : m.Sound) (x y : UInt32) :
    m.frame.pixel? x y = some (m.frame.exactPixel? x y) ∧
      ((m.frame.exactPixel? x y).isSome ↔ x < 64 ∧ y < 64) := by
  have small : m.frame.area ≤ 0x100000000 := by
    rw [h.area_frame]
    decide
  refine ⟨Frame.forall_exact_iff.mpr small x y, ?_⟩
  rw [Frame.exactPixel?]
  by_cases inside : m.frame.Contains x y
  · have found : m.frame.place x y < m.frame.pixels.size := by
      rw [h.pixels, ← h.area_frame]
      exact Frame.place_lt_area inside
    rw [if_pos inside, Array.getElem?_eq_getElem found]
    rw [Frame.Contains, h.width, h.height] at inside
    exact iff_of_true rfl inside
  · rw [if_neg inside]
    rw [Frame.Contains, h.width, h.height] at inside
    exact iff_of_false nofun inside

end Machine

/-! ## 4. Frames of any size -/

namespace Frame

/-- **The pixels of a frame stand where its sides say, unless a word of 32 bits overflows.** A frame
    that is made has as many pixels as its sides stand for, and every answer that there is to a
    column and a row is the color at their place, and at no other, or tells that there is none. But
    a frame whose number of pixels is no word of 32 bits cannot be made, and of a place that is none
    there is no answer; all answers are there exactly if the sides stand for up to 2^32 places. The
    frame of a machine has 64 columns and rows, and every pixel of it is found. -/
theorem pixels_found (width height : UInt32) (f : Frame) :
    (∀ made, blank? width height = some made →
      made = blank width height ∧ made.pixels.size = width.toNat * height.toNat) ∧
    (blank? width height = none ↔ 0x100000000 ≤ width.toNat * height.toNat) ∧
    (∀ x y color, f.pixel? x y = some color → color = f.exactPixel? x y) ∧
    (∀ x y, f.pixel? x y = none ↔ f.Contains x y ∧ 0x100000000 ≤ f.place x y) ∧
    (∀ x y x' y', f.Contains x y → f.Contains x' y' → f.place x y = f.place x' y' →
      x = x' ∧ y = y') ∧
    ((∀ x y, f.pixel? x y = some (f.exactPixel? x y)) ↔ f.area ≤ 0x100000000) ∧
    (∀ m : Machine, m.Reachable → ∀ x y, m.frame.pixel? x y = some (m.frame.exactPixel? x y) ∧
      ((m.frame.exactPixel? x y).isSome ↔ x < 64 ∧ y < 64)) := by
  refine ⟨?_, ?_, ?_, ?_, fun _ _ _ _ => place_inj, forall_exact_iff,
    fun m reachable => (Machine.sound_of_reachable reachable).pixel?_frame⟩
  · intro made ok
    rw [blank?_eq] at ok
    split at ok
    · cases ok
      exact ⟨rfl, size_blank width height⟩
    · cases ok
  · rw [blank?_eq]
    split
    · next small => exact iff_of_false nofun (Nat.not_le.mpr small)
    · next large => exact iff_of_true rfl (Nat.not_lt.mp large)
  · intro x y color found
    rw [pixel?_eq] at found
    split at found
    · cases found
    · exact (Option.some.inj found).symm
  · intro x y
    rw [pixel?_eq]
    split
    · next overflows => exact iff_of_true rfl overflows
    · next fits => exact iff_of_false nofun fits

/-- The largest frame whose places are all words, with two pixels only: the second one is found, and
    nothing at the last place. -/
theorem pixels_found_largest :
    let f : Frame := ⟨65536, 65536, #[5, 6]⟩
    f.area ≤ 0x100000000 ∧ f.pixel? 1 0 = some (some 6) ∧ f.pixel? 65535 65535 = some none ∧
    f.place 65535 0 ≠ f.place 0 1 ∧
    (∃ made, blank? 64 64 = some made ∧ made.pixels.size = 4096) ∧
    (Machine.powerOn.frame.exactPixel? 63 63).isSome := by
  intro f
  have small : f.area ≤ 0x100000000 := by decide
  obtain ⟨made, overflows, -, -, apart, exact, screen⟩ := pixels_found 64 64 f
  have found := exact.mpr small
  obtain ⟨first, ok⟩ := Option.ne_none_iff_exists'.mp (mt overflows.mp (by decide))
  have shown := (screen Machine.powerOn .powerOn 63 63).2
  refine ⟨small, found 1 0, found 65535 65535, fun same => ?_, ⟨first, ok, (made first ok).2⟩,
    shown.mpr (by decide)⟩
  have ends : (0 : UInt32) = 1 := (apart 65535 0 0 1 (by decide) (by decide) same).2
  exact absurd ends (by decide)

/-- **A frame of 2^32 pixels and one row more cannot be made**, and of one that was read from a data
    file the first pixel is found, but at the first place of the last row there is neither a color
    nor the answer that there is none. -/
theorem tall_frame_breaks_off :
    let f : Frame := ⟨65536, 65537, #[7]⟩
    blank? 65536 65537 = none ∧ f.pixel? 0 0 = some (some 7) ∧
    f.exactPixel? 0 65536 = none ∧ f.pixel? 0 65536 ≠ some none ∧ f.pixel? 0 65536 = none := by
  intro f
  have overflows : f.Contains 0 65536 ∧ 0x100000000 ≤ f.place 0 65536 := by decide
  have silent : f.pixel? 0 65536 = none := by rw [pixel?_eq, if_pos overflows]
  refine ⟨by rw [blank?_eq, if_neg (by decide)], by rw [pixel?_eq, if_neg (by decide)]; rfl, ?_, ?_,
    silent⟩
  · rw [exactPixel?, if_pos overflows.1, Array.getElem?_eq_none]
    decide
  · rw [silent]
    nofun

end Frame
end Retro24
