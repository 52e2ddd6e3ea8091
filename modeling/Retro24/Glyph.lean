/-
  File:      Retro24/Glyph.lean
  Subject:   The letters of the boot title, and text drawn with them.

  * `Glyph`: seven rows of eight columns, the most significant bit on the left.
  * `Bus.drawText?`: glyphs from left to right, eight columns apart, as long as their columns are
    machine words; `Bus.drawText`: those of a text for which they are.
  * `Bus.drawTitle`: the two lines that the screen shows after a hard reset.
-/
import Retro24.Bus

namespace Retro24

/-- A letter: seven rows of eight pixels. -/
abbrev Glyph := Vector UInt8 7

namespace Glyph

/-- The letter R. -/
def r : Glyph := #v[0x7C, 0x42, 0x42, 0x7C, 0x48, 0x44, 0x42]

/-- The letter E. -/
def e : Glyph := #v[0x7E, 0x40, 0x40, 0x7C, 0x40, 0x40, 0x7E]

/-- The letter T. -/
def t : Glyph := #v[0x7E, 0x10, 0x10, 0x10, 0x10, 0x10, 0x10]

/-- The letter O. -/
def o : Glyph := #v[0x3C, 0x42, 0x42, 0x42, 0x42, 0x42, 0x3C]

/-- The digit 2. -/
def two : Glyph := #v[0x3C, 0x42, 0x04, 0x08, 0x10, 0x20, 0x7E]

/-- The digit 4. -/
def four : Glyph := #v[0x08, 0x18, 0x28, 0x48, 0x7E, 0x08, 0x08]

/-- The glyph of a character of the title. -/
def ofChar? : Char → Option Glyph
  | 'R' => some r
  | 'E' => some e
  | 'T' => some t
  | 'O' => some o
  | '2' => some two
  | '4' => some four
  | _ => none

end Glyph

namespace Bus

/-- Glyphs drawn from left to right, the first with its top left pixel in a column and a row, each
    eight columns right of the one before. There is no answer if the column of one of them is no
    machine word. -/
def drawGlyphs? (b : Bus) (column : Nat) (row : UInt64) : List Glyph → Option Bus
  | [] => some b
  | g :: gs => (machineWord? column).bind fun x =>
      drawGlyphs? (b.drawPattern g.toList x row) (column + 8) row gs

/-- A text drawn at a position that is given in machine words. -/
def drawText? (b : Bus) (column row : UInt64) (glyphs : List Glyph) : Option Bus :=
  b.drawGlyphs? column.toNat row glyphs

/-- There is no answer exactly if the column of some glyph overflows. -/
theorem drawGlyphs?_eq_none_iff {b : Bus} {column : Nat} {row : UInt64} {glyphs : List Glyph} :
    b.drawGlyphs? column row glyphs = none ↔
      ∃ i < glyphs.length, 0x10000000000000000 ≤ column + 8 * i := by
  induction glyphs generalizing b column with
  | nil => exact ⟨nofun, nofun⟩
  | cons g gs ih =>
    by_cases small : column < 0x10000000000000000
    · obtain ⟨x, word, -⟩ := machineWord?_eq_some small
      rw [drawGlyphs?, word, Option.bind_some, ih, List.length_cons]
      constructor
      · rintro ⟨i, inside, large⟩
        exact ⟨i + 1, by omega, by omega⟩
      · rintro ⟨i, inside, large⟩
        exact ⟨i - 1, by omega, by omega⟩
    · have large := Nat.not_lt.mp small
      rw [drawGlyphs?, machineWord?_eq_none large]
      exact iff_of_true rfl ⟨0, Nat.succ_pos _, large⟩

theorem isSome_drawGlyphs? (b : Bus) {column : Nat} (row : UInt64) {glyphs : List Glyph}
    (room : column + 8 * glyphs.length ≤ 0x10000000000000000) :
    (b.drawGlyphs? column row glyphs).isSome = true := by
  rw [Option.isSome_iff_ne_none, Ne, drawGlyphs?_eq_none_iff]
  rintro ⟨i, inside, large⟩
  omega

/-- A text that ends in a column of a machine word, drawn. -/
def drawText (b : Bus) (column row : UInt64) (glyphs : List Glyph)
    (room : column.toNat + 8 * glyphs.length ≤ 0x10000000000000000) : Bus :=
  (b.drawText? column row glyphs).get (b.isSome_drawGlyphs? row room)

/-- The boot title, in two lines. -/
def drawTitle (b : Bus) : Bus :=
  (b.drawText 12 21 [Glyph.r, Glyph.e, Glyph.t, Glyph.r, Glyph.o] (by decide)).drawText 24 31
    [Glyph.two, Glyph.four] (by decide)

end Bus

end Retro24
