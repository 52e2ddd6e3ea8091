/-
  File:      Retro24/Palette.lean
  Subject:   Palettes of colors and the index that bitplanes make.

  * `Palette`: colors as words of alpha, red, green and blue; an index without an entry shows opaque
    black, and setting it changes nothing.
  * `paletteIndex`: the bits of a pixel across the planes, the first plane the most significant.
-/

namespace Retro24

/-- Colors by their index. -/
structure Palette where
  colors : Array UInt32
  deriving DecidableEq

/-- Opaque black. -/
def opaqueBlack : UInt32 := 0xFF000000

namespace Palette

/-- A palette of one size that holds opaque black only. -/
def blank (size : Nat) : Palette := ⟨Array.replicate size opaqueBlack⟩

/-- The color of an index. -/
def get (p : Palette) (index : Nat) : UInt32 := p.colors[index]?.getD opaqueBlack

/-- The palette with the color of one index replaced, if it has one. -/
def set (p : Palette) (index : Nat) (color : UInt32) : Palette :=
  ⟨p.colors.setIfInBounds index color⟩

@[simp] theorem size_set (p : Palette) (index : Nat) (color : UInt32) :
    (p.set index color).colors.size = p.colors.size := by
  simp [set]

/-- The color just set is shown, and every other index shows what it did. -/
theorem get_set (p : Palette) (i j : Nat) (color : UInt32) (h : i < p.colors.size) :
    (p.set i color).get j = if i = j then color else p.get j := by
  simp only [get, set, Array.getElem?_setIfInBounds]
  split <;> simp

end Palette

/-- The index of a pixel from its bits in the planes. Only the last 64 planes count. -/
def paletteIndex (bits : List Bool) : UInt64 :=
  bits.foldl (fun index bit => index <<< 1 ||| bit.toUInt64) 0

end Retro24
