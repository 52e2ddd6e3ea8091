/-
  File:      Retro24/Frame.lean
  Subject:   Pictures: a width, a height and the colors of the pixels, row after row.

  * `Frame.blank`: a frame of zero pixels, as many as its sides stand for; `Frame.blank?`: there is
    one only if their number is a word of 32 bits.
  * `Frame.pixel?`: the color at a place, unless its number is no word of 32 bits.
  * `Frame.rows`: the pixels cut into rows.
-/
import Retro24.Word

namespace Retro24

/-- A picture. -/
structure Frame where
  width : UInt32
  height : UInt32
  pixels : Array UInt32
  deriving DecidableEq

namespace Frame

/-- A frame of zero pixels. -/
def blank (width height : UInt32) : Frame :=
  ⟨width, height, Array.replicate (width.toNat * height.toNat) 0⟩

/-- A frame of zero pixels, whose number is counted in a word of 32 bits. There is none if the word
    overflows. -/
def blank? (width height : UInt32) : Option Frame :=
  (longWord? (width.toNat * height.toNat)).map fun size =>
    ⟨width, height, Array.replicate size.toNat 0⟩

/-- The color in column `x` and row `y`; none outside the frame and behind its last pixel. Its place
    is counted in a word of 32 bits, and there is no answer if the word overflows. -/
def pixel? (f : Frame) (x y : UInt32) : Option (Option UInt32) :=
  if x < f.width ∧ y < f.height then
    (longWord? (y.toNat * f.width.toNat)).bind fun start =>
      (longWord? (start.toNat + x.toNat)).map fun place => f.pixels[place.toNat]?
  else some none

end Frame

/-- A list cut into pieces of one length, of which the last may be shorter. Nothing is cut into
    pieces of length zero. -/
def pieces {α : Type} (size : Nat) (xs : List α) : List (List α) :=
  if _h : size = 0 ∨ xs = [] then []
  else xs.take size :: pieces size (xs.drop size)
termination_by xs.length
decreasing_by
  have := List.length_pos_iff.2 (fun e => _h (.inr e))
  simp only [List.length_drop]
  omega

end Retro24
