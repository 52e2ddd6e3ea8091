/-
  File:      Retro24/Proofs/Memory/Lettering.lean
  Subject:   Text in the brightness plane, glyph by glyph.

  * `TextPixel`: the pixels of glyphs in one row of text, each of them eight columns right of the
    one before, in unbounded numbers.
  * `lit_drawGlyphs?`: a text that is drawn lights the pixels of its glyphs, by induction on the
    glyphs.
  * `text_placed`: so it drops what is off the screen, but it is not drawn at all if the column of
    one of its glyphs is no machine word; `text_breaks_off`: two letters of which the second one
    stands there.
-/
import Retro24.Proofs.Memory.Bitmaps
import Retro24.Glyph

namespace Retro24

/-! ## 1. The pixels of a text -/

/-- The pixels of glyphs with their top in one row, of which the first one stands in a column and
    each other one eight columns right of the one before. -/
def TextPixel (glyphs : List Glyph) (column row x y : Nat) : Prop :=
  ∃ i g, glyphs[i]? = some g ∧ BitmapPixel g.toList (column + 8 * i) row x y

/-- The first glyph, or one of the others. -/
theorem textPixel_cons_iff {g : Glyph} {gs : List Glyph} {column row x y : Nat} :
    TextPixel (g :: gs) column row x y ↔
      BitmapPixel g.toList column row x y ∨ TextPixel gs (column + 8) row x y := by
  have behind (i : Nat) : column + 8 + 8 * i = column + 8 * (i + 1) := by omega
  constructor
  · rintro ⟨i, g', found, here⟩
    cases i with
    | zero =>
      cases found
      exact .inl here
    | succ i => exact .inr ⟨i, g', found, behind i ▸ here⟩
  · rintro (here | ⟨i, g', found, here⟩)
    · exact ⟨0, g, rfl, here⟩
    · exact ⟨i + 1, g', found, behind i ▸ here⟩

/-! ## 2. Text that is drawn -/

namespace Bus

variable {b b' : Bus} {row : UInt64} {glyphs : List Glyph}

/-- **A text that is drawn lights the pixels of its glyphs**, and nothing else. -/
theorem lit_drawGlyphs? {column : Nat} (drawn : b.drawGlyphs? column row glyphs = some b') :
    b.Lit (TextPixel glyphs column row.toNat) b' := by
  induction glyphs generalizing b column with
  | nil =>
    cases drawn
    exact Lit.of_none _ fun x y _ _ ⟨_, _, found, _⟩ => nomatch found
  | cons g gs ih =>
    rw [drawGlyphs?, Option.bind_eq_some_iff] at drawn
    obtain ⟨x, word, rest⟩ := drawn
    have here := lit_drawPattern b g.toList x row
    refine (here.trans (ih rest)).congr fun x' y' _ _ => ?_
    rw [toNat_of_machineWord? word, textPixel_cons_iff]

/-- **A text drops what is off the screen, unless a column overflows.** Where it is drawn it lights
    the pixels of its glyphs, each of them eight columns right of the one before in unbounded
    numbers, and changes no other byte; so a glyph beyond the right edge is not seen. But there is
    no answer at all if the column of some glyph is no machine word, although nothing of that glyph
    would be on the screen. A text that ends in front of column 2^64 is drawn. -/
theorem text_placed (b : Bus) (column row : UInt64) (glyphs : List Glyph) :
    (∀ b', b.drawText? column row glyphs = some b' →
      b.Lit (TextPixel glyphs column.toNat row.toNat) b') ∧
    (b.drawText? column row glyphs = none ↔
      ∃ i < glyphs.length, 0x10000000000000000 ≤ column.toNat + 8 * i) ∧
    ∀ room, b.Lit (TextPixel glyphs column.toNat row.toNat) (b.drawText column row glyphs room) :=
  ⟨fun _ => lit_drawGlyphs?, drawGlyphs?_eq_none_iff,
    fun _ => lit_drawGlyphs? (Option.some_get _).symm⟩

/-- Two letters of which the second one is cut off at the right edge. -/
theorem text_placed_edge :
    ∃ b', blank.drawText? 53 0 [Glyph.t, Glyph.t] = some b' ∧
      b'.read 0xE03E = 1 ∧ b'.read 0xE040 = 0 := by
  obtain ⟨placed, overflows, -⟩ := text_placed blank 53 0 [Glyph.t, Glyph.t]
  have fits : ¬ ∃ i < [Glyph.t, Glyph.t].length,
      0x10000000000000000 ≤ (53 : UInt64).toNat + 8 * i := by decide
  obtain ⟨b', drawn⟩ := Option.ne_none_iff_exists'.mp (mt overflows.mp fits)
  have lit := placed b' drawn
  refine ⟨b', drawn,
    lit.lit 62 0 ⟨1, Glyph.t, rfl, 1, 0, 0x7E, by decide, rfl, by decide, rfl, rfl⟩,
    (lit.dark 0 1 ?_).trans (by decide +kernel)⟩
  rintro ⟨i, g, -, dx, dy, bits, -, -, -, left, -⟩
  have column : (53 : UInt64).toNat = 53 := rfl
  have zero : (0 : Fin 64).val = 0 := rfl
  omega

/-- The second one of two letters would stand at column 2^64. No pixel of the two is on the screen,
    but instead of banks that are as they were there is no answer. -/
theorem text_breaks_off :
    (∀ x y, x < 64 → y < 64 →
      ¬ TextPixel [Glyph.r, Glyph.r] (18446744073709551608 : UInt64).toNat (0 : UInt64).toNat
        x y) ∧
    blank.drawText? 18446744073709551608 0 [Glyph.r, Glyph.r] ≠ some blank ∧
    blank.drawText? 18446744073709551608 0 [Glyph.r, Glyph.r] = none := by
  have none : blank.drawText? 18446744073709551608 0 [Glyph.r, Glyph.r] = none :=
    drawGlyphs?_eq_none_iff.mpr ⟨1, by decide, by decide⟩
  refine ⟨?_, ?_, none⟩
  · rintro x y left top ⟨i, g, -, dx, dy, bits, -, -, -, column, -⟩
    have start : (18446744073709551608 : UInt64).toNat = 18446744073709551608 := rfl
    omega
  · rw [none]
    nofun

end Bus
end Retro24
