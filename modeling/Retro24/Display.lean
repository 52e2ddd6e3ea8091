/-
  File:      Retro24/Display.lean
  Subject:   The screen of 64 rows and 64 columns, drawn from the two video planes.

  * `ScreenColor`: the four colors, picked by a bit of brightness and a bit of color; a plane byte
    counts as a set bit unless it is zero.
  * `Display`: the palette that says how the four are shown; `Display.recolor` changes one.
  * `Display.drawOver`, `Display.picture`: the picture of the planes.
  * `screenText`: the picture in characters, one line a row.
-/
import Retro24.Bus
import Retro24.Frame
import Retro24.Palette

namespace Retro24

/-! ## 1. The four colors -/

/-- A color of the screen, in the order of the palette. -/
inductive ScreenColor where
  | black
  | blue
  | white
  | yellow
  deriving DecidableEq

namespace ScreenColor

/-- The colors in the order of the palette. -/
def all : List ScreenColor := [black, blue, white, yellow]

/-- The color of a pixel with the given bits. -/
def ofPlanes (bright color : Bool) : ScreenColor :=
  match bright, color with
  | true, true => yellow
  | true, false => white
  | false, true => blue
  | false, false => black

/-- The place in the palette. -/
def index : ScreenColor → Nat
  | black => 0
  | blue => 1
  | white => 2
  | yellow => 3

/-- The color as it is shown unless the palette is changed. -/
def argb : ScreenColor → UInt32
  | black => 0xFF000000
  | blue => 0xFF0000FF
  | white => 0xFFFFFFFF
  | yellow => 0xFFFFFF00

/-- The character that stands for the color in text. -/
def symbol : ScreenColor → Char
  | black => ' '
  | blue => '+'
  | white => '#'
  | yellow => '@'

/-- The name of the color in data files. -/
def name : ScreenColor → String
  | black => "Black"
  | blue => "Blue"
  | white => "White"
  | yellow => "Yellow"

/-- The bits of a pixel make the place of its color in the palette. -/
theorem paletteIndex_eq_index (bright color : Bool) :
    (paletteIndex [bright, color]).toNat = (ofPlanes bright color).index := by
  cases bright <;> cases color <;> rfl

end ScreenColor

/-! ## 2. Pictures of the planes -/

/-- The number of pixels on the screen. -/
@[reducible] def pixelCount : Nat := 4096

/-- Whether a pixel is bright. -/
def Bus.isBright (b : Bus) (i : Fin pixelCount) : Bool := b.get ⟨.brightness, i⟩ != 0

/-- Whether a pixel is colored. -/
def Bus.isColored (b : Bus) (i : Fin pixelCount) : Bool := b.get ⟨.color, i⟩ != 0

/-- The color of a pixel. -/
def Bus.colorAt (b : Bus) (i : Fin pixelCount) : ScreenColor :=
  .ofPlanes (b.isBright i) (b.isColored i)

/-- How the four colors are shown. -/
structure Display where
  palette : Palette
  deriving DecidableEq

namespace Display

/-- The display as power comes on. -/
def powerOn : Display := ⟨⟨(ScreenColor.all.map ScreenColor.argb).toArray⟩⟩

/-- The display with one color shown in another way. -/
def recolor (d : Display) (c : ScreenColor) (argb : UInt32) : Display :=
  ⟨d.palette.set c.index argb⟩

/-- What is shown for a pixel. -/
def shade (d : Display) (b : Bus) (i : Fin pixelCount) : UInt32 :=
  d.palette.get (paletteIndex [b.isBright i, b.isColored i]).toNat

/-- The picture of the planes drawn over the first pixels of a frame. -/
def drawOver (d : Display) (b : Bus) (f : Frame) : Frame :=
  { f with pixels := f.pixels.mapIdx fun i p => if h : i < pixelCount then d.shade b ⟨i, h⟩ else p }

/-- The picture of the planes. -/
def picture (d : Display) (b : Bus) : Frame := d.drawOver b (Frame.blank 64 64)

/-- Drawing over a frame keeps its size. -/
@[simp] theorem size_drawOver (d : Display) (b : Bus) (f : Frame) :
    (d.drawOver b f).pixels.size = f.pixels.size := by
  simp [drawOver]

end Display

/-! ## 3. Pictures in characters -/

/-- The pixel in a column and a row. -/
def pixelAt (x y : Fin 64) : Fin pixelCount := ⟨64 * y.val + x.val, by show _ < 4096; omega⟩

/-- The characters of row `y`. -/
def Bus.rowText (b : Bus) (y : Fin 64) : String :=
  String.ofList ((List.finRange 64).map fun x => (b.colorAt (pixelAt x y)).symbol)

/-- The screen in characters; every row ends its line. -/
def screenText (b : Bus) : String :=
  String.join ((List.finRange 64).map fun y => b.rowText y ++ "\n")

end Retro24
