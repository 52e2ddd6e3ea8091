/-
  File:      Retro24/Proofs/Machine/Screens.lean
  Subject:   The screen in pixels and in characters.

  * `Display.recolorAll`, `ScreenColor.assigned`: colors that are changed one after another, and what
    the changes leave of them: the last one of each color counts (`shown_recolorAll`).
  * `Bus.Typed`: a text that is the screen line by line (`typed_screenText`).
  * `Frame.Overdrawn`: a frame that a picture was drawn over, of whatever size it is
    (`overdrawn_drawOver`).
  * `Bus.SameLights`: planes with the same bytes that are not zero. They have the same colors
    (`SameLights.colorAt`), and nothing else of memory is looked at.
  * `screens_agree`: the pixels of a picture, those drawn over a frame and the characters are made of
    the same colors.
-/
import Retro24.Proofs.Machine.Pictures

namespace Retro24

/-! ## 1. Changed colors -/

/-- How a color is shown behind changes: as the last change of this color says. A color that is not
    changed is shown as it was when power came on. -/
def ScreenColor.assigned (changes : List (ScreenColor × UInt32)) (c : ScreenColor) : UInt32 :=
  (changes.reverse.lookup c).getD c.argb

theorem ScreenColor.index_inj {c c' : ScreenColor} : c.index = c'.index ↔ c = c' := by
  cases c <;> cases c' <;> decide

namespace Display

variable {d : Display}

/-- A display behind changes of colors, one after another. -/
def recolorAll (d : Display) (changes : List (ScreenColor × UInt32)) : Display :=
  changes.foldl (fun d change => d.recolor change.1 change.2) d

theorem shown_powerOn (c : ScreenColor) : powerOn.shown c = c.argb := by
  cases c <;> rfl

/-- One change: it is shown, and every other color is shown as before. -/
theorem shown_recolor (four : d.palette.colors.size = 4) (c c' : ScreenColor) (argb : UInt32) :
    (d.recolor c argb).shown c' = if c = c' then argb else d.shown c' := by
  have inside : c.index < d.palette.colors.size := by
    rw [four]
    cases c <;> decide
  unfold shown recolor
  rw [Palette.get_set _ _ _ _ inside]
  by_cases same : c = c'
  · rw [if_pos (congrArg _ same), if_pos same]
  · rw [if_neg (mt ScreenColor.index_inj.mp same), if_neg same]

/-- **Many changes**: the last one of each color is shown. -/
theorem shown_recolorAll (four : d.palette.colors.size = 4)
    (changes : List (ScreenColor × UInt32)) (c : ScreenColor) :
    (d.recolorAll changes).shown c = (changes.reverse.lookup c).getD (d.shown c) := by
  induction changes generalizing d with
  | nil => rfl
  | cons change changes ih =>
    have four' : (d.recolor change.1 change.2).palette.colors.size = 4 :=
      (Palette.size_set _ _ _).trans four
    have behind : (d.recolorAll (change :: changes)).shown c = _ := ih four'
    rw [behind, List.reverse_cons, List.lookup_append, Option.getD_or, shown_recolor four]
    congr 1
    by_cases same : change.1 = c
    · rw [if_pos same, List.lookup_cons, beq_iff_eq.mpr same.symm]
      rfl
    · rw [if_neg same, List.lookup_cons, beq_eq_false_iff_ne.mpr (Ne.symm same)]
      rfl

theorem shown_assigned (changes : List (ScreenColor × UInt32)) (c : ScreenColor) :
    (powerOn.recolorAll changes).shown c = c.assigned changes := by
  rw [shown_recolorAll rfl, shown_powerOn]
  rfl

end Display

/-! ## 2. Characters -/

namespace Bus

/-- The lines of the screen, one for each row. -/
def lines (b : Bus) : List (List Char) := (List.finRange 64).map fun y => (b.rowText y).toList

/-- A text that is the screen in characters: 64 lines of 64 characters, each of them ended by a
    newline and without another one, and in each place the symbol of the pixel's color. -/
structure Typed (b : Bus) (text : String) : Prop where
  joined : text.toList = b.lines.flatMap (· ++ ['\n'])
  rows : b.lines.length = 64
  columns : ∀ line ∈ b.lines, line.length = 64 ∧ '\n' ∉ line
  symbol : ∀ x y : Fin 64,
    b.lines[y.val]?.bind (·[x.val]?) = some (b.colorAt (pixelAt x y)).symbol

theorem toList_rowText (b : Bus) (y : Fin 64) :
    (b.rowText y).toList = (List.finRange 64).map fun x => (b.colorAt (pixelAt x y)).symbol := by
  rw [rowText, String.toList_ofList]

theorem typed_screenText (b : Bus) : b.Typed (screenText b) where
  joined := by
    have line (y : Fin 64) : (b.rowText y ++ "\n").toList = (b.rowText y).toList ++ ['\n'] :=
      String.toList_append
    rw [screenText, String.toList_join, lines, List.flatMap_map, List.flatMap_map, funext line]
  rows := by rw [lines, List.length_map, List.length_finRange]
  columns := by
    intro line inside
    obtain ⟨y, -, rfl⟩ := List.mem_map.mp inside
    rw [toList_rowText]
    constructor
    · rw [List.length_map, List.length_finRange]
    · intro newline
      obtain ⟨x, -, same⟩ := List.mem_map.mp newline
      cases color : b.colorAt (pixelAt x y) <;> rw [color] at same <;> cases same
  symbol := by
    intro x y
    have place (z : Fin 64) : (List.finRange 64)[z.val]? = some z := by
      rw [List.getElem?_eq_getElem (by rw [List.length_finRange]; exact z.isLt), List.getElem_finRange]
      rfl
    rw [lines, List.getElem?_map, place, Option.map_some, Option.bind_some, toList_rowText,
      List.getElem?_map, place, Option.map_some]

end Bus

/-! ## 3. Pixels -/

/-- A frame that a picture was drawn over: as many of its first pixels as the picture and the frame
    have are those of the picture, whatever they were, and all others are what they were. -/
structure Frame.Overdrawn (picture : Fin pixelCount → UInt32) (f drawn : Frame) : Prop where
  width : drawn.width = f.width
  height : drawn.height = f.height
  size : drawn.pixels.size = f.pixels.size
  first : ∀ i : Fin pixelCount, i.val < f.pixels.size → drawn.pixels[i.val]? = some (picture i)
  further : ∀ n, pixelCount ≤ n → drawn.pixels[n]? = f.pixels[n]?

namespace Display

theorem overdrawn_drawOver (d : Display) (b : Bus) (f : Frame) :
    Frame.Overdrawn (fun i => d.shown (b.colorAt i)) f (d.drawOver b f) where
  width := rfl
  height := rfl
  size := size_drawOver d b f
  first := by
    intro i inside
    rw [drawOver, Array.getElem?_mapIdx, Array.getElem?_eq_getElem inside, Option.map_some,
      dif_pos i.isLt, shade_eq]
  further := by
    intro n beyond
    have outside : ¬n < pixelCount := Nat.not_lt.mpr beyond
    rw [drawOver, Array.getElem?_mapIdx]
    simp only [dif_neg outside]
    exact congrFun Option.map_id_fun' _

end Display

/-- Memories whose planes have the same bytes that are not zero. -/
def Bus.SameLights (b b' : Bus) : Prop :=
  ∀ a : UInt16, 0xE000 ≤ a → (Memory.read b a = 0 ↔ Memory.read b' a = 0)

theorem Bus.SameLights.colorAt {b b' : Bus} (same : b.SameLights b') (i : Fin pixelCount) :
    b.colorAt i = b'.colorAt i := by
  have lit {n : Nat} (planes : 0xE000 ≤ n) (inside : n < 65536) :
      (Memory.read b (UInt16.ofNat n) != 0) = (Memory.read b' (UInt16.ofNat n) != 0) := by
    have place : (0xE000 : UInt16) ≤ UInt16.ofNat n := by
      rw [UInt16.le_iff_toNat_le, UInt16.toNat_ofNat_of_lt' inside]
      exact planes
    rw [Bool.eq_iff_iff, bne_iff_ne, bne_iff_ne]
    exact not_congr (same _ place)
  have bound : i.val < 4096 := i.isLt
  rw [colorAt_eq, colorAt_eq, lit (by omega) (by omega), lit (by omega) (by omega)]

/-! ## 4. The screen -/

/-- **The ways to the screen agree**, for any memory and behind any changes of colors. A picture has
    64 columns and rows, and each pixel is what its color was changed to; the text has the symbol of
    the same color in its place; a picture drawn over a frame has the same pixels as a new one, and
    over the frame of a machine it is a new one. None of it depends on more of memory than which
    bytes of the planes are zero. -/
theorem screens_agree (changes : List (ScreenColor × UInt32)) (b : Bus) :
    let d := Display.powerOn.recolorAll changes
    ((d.picture b).width = 64 ∧ (d.picture b).height = 64 ∧
      (d.picture b).pixels.size = pixelCount ∧
      ∀ i : Fin pixelCount, (d.picture b).pixels[i.val]? = some ((b.colorAt i).assigned changes)) ∧
    (∀ c : ScreenColor, c.assigned [] = c.argb) ∧
    b.Typed (screenText b) ∧
    (∀ f, Frame.Overdrawn (fun i => (b.colorAt i).assigned changes) f (d.drawOver b f)) ∧
    (∀ m : Machine, m.Reachable → d.drawOver b m.frame = d.picture b) ∧
    ∀ b' : Bus, b.SameLights b' → d.picture b = d.picture b' ∧ screenText b = screenText b' := by
  intro d
  have filled (f : Frame) :
      Frame.Overdrawn (fun i => (b.colorAt i).assigned changes) f (d.drawOver b f) := by
    rw [← funext fun i => Display.shown_assigned changes (b.colorAt i)]
    exact d.overdrawn_drawOver b f
  have fresh : (d.picture b).pixels.size = pixelCount := by
    rw [Display.picture_eq, Array.size_ofFn]
  refine ⟨⟨rfl, rfl, fresh, ?_⟩, fun _ => rfl, b.typed_screenText, filled, ?_, ?_⟩
  · intro i
    have drawn := filled (Frame.blank 64 64)
    have whole : (Frame.blank 64 64).pixels.size = pixelCount := drawn.size.symm.trans fresh
    refine drawn.first i ?_
    rw [whole]
    exact i.isLt
  · intro m reachable
    have sound := Machine.sound_of_reachable reachable
    exact Machine.drawOver_eq_picture d b sound.width sound.height sound.pixels
  · intro b' same
    have rows : b.rowText = b'.rowText := by
      funext y
      simp only [Bus.rowText, same.colorAt]
    constructor
    · rw [Display.picture_eq_iff]
      intro i
      rw [same.colorAt]
    · unfold screenText
      rw [rows]

/-- A bright pixel with color in row 1, in a yellow that was changed twice: it is shown in the last
    yellow and by `@`, and other bytes that are not zero show the same. -/
theorem screens_agree_yellow :
    let b := Memory.write (Memory.write Bus.blank 0xE041 0x05) 0xF041 0x80
    let d := Display.powerOn.recolorAll [(.yellow, 0xFF111111), (.blue, 0), (.yellow, 0xFF00FF00)]
    (d.picture b).pixels[65]? = some 0xFF00FF00 ∧
    b.lines[1]?.bind (·[1]?) = some '@' ∧
    screenText b =
      screenText (Memory.write (Memory.write Bus.blank 0xE041 0xFF) 0xF041 0x01) := by
  intro b d
  obtain ⟨⟨-, -, -, pixel⟩, -, text, -, -, same⟩ :=
    screens_agree [(.yellow, 0xFF111111), (.blue, 0), (.yellow, 0xFF00FF00)] b
  have color : b.colorAt (pixelAt 1 1) = .yellow := by
    rw [Bus.colorAt_eq, Memory.read_write, Memory.read_write, Memory.read_write]
    decide
  refine ⟨?_, ?_, ?_⟩
  · have shown := pixel (pixelAt 1 1)
    rw [color] at shown
    exact shown
  · have symbol := text.symbol 1 1
    rw [color] at symbol
    exact symbol
  · refine (same _ ?_).2
    intro a planes
    rw [Memory.read_write, Memory.read_write, Memory.read_write, Memory.read_write]
    by_cases colored : a = 0xF041
    · rw [if_pos colored, if_pos colored]
      decide
    · by_cases bright : a = 0xE041
      · rw [if_neg colored, if_neg colored, if_pos bright, if_pos bright]
        decide
      · rw [if_neg colored, if_neg colored, if_neg bright, if_neg bright]

end Retro24
