/-
  File:      Retro24/Proofs/Output/Enlargement.lean
  Subject:   Frames that are enlarged for a picture file, pixel by pixel.

  * `getElem?_repeated`, `size_repeated`: parts put behind one another, each a number of times. Rows
    are made of pixels in this way, and pictures of rows.
  * `Shows`: four bytes that are the red, green, blue and alpha of a color; `readColor?` puts the
    color together again.
  * `Frame.Enlarged`: a picture in which every pixel of a frame is a square; `Frame.reduced` reads one
    pixel of each square.
  * `longAt_encode`: the size that the header of a picture file announces;
    `Enlarged.exists_pictureFile?`: the file of an enlarged picture.
  * `enlarged_exactly`: the statement about every frame and every scale.
-/
import Mathlib.Tactic.Ring
import Retro24.Picture
import Retro24.Proofs.Output.Pieces

namespace Retro24

/-! ## 1. Parts that are repeated -/

section Repeated

variable {α : Type} {part : α → Array UInt8} {xs : List α} {times size : Nat}

/-- Parts put behind one another, each of them a number of times. -/
def repeated (part : α → Array UInt8) (times : Nat) (xs : List α) : Array UInt8 :=
  xs.foldl (fun out x => appendTimes (part x) times out) #[]

theorem toList_appendTimes (bytes : Array UInt8) (times : Nat) (out : Array UInt8) :
    (appendTimes bytes times out).toList =
      out.toList ++ (List.replicate times bytes).flatMap Array.toList := by
  induction times generalizing out with
  | zero => exact (List.append_nil _).symm
  | succ times ih =>
    rw [appendTimes, ih, Array.toList_append, List.replicate_succ, List.flatMap_cons,
      List.append_assoc]

theorem toList_repeated (part : α → Array UInt8) (times : Nat) (xs : List α) :
    (repeated part times xs).toList =
      xs.flatMap fun x => (List.replicate times (part x)).flatMap Array.toList := by
  have behind (out : Array UInt8) :
      (xs.foldl (fun out x => appendTimes (part x) times out) out).toList =
        out.toList ++ xs.flatMap fun x => (List.replicate times (part x)).flatMap Array.toList := by
    induction xs generalizing out with
    | nil => exact (List.append_nil _).symm
    | cons x xs ih =>
      rw [List.foldl_cons, ih, toList_appendTimes, List.flatMap_cons, List.append_assoc]
  exact behind #[]

theorem length_of_copy {bytes copy : Array UInt8} (parts : bytes.size = size)
    (inside : copy ∈ List.replicate times bytes) : copy.toList.length = size := by
  rw [List.eq_of_mem_replicate inside, Array.length_toList, parts]

theorem length_replicated {bytes : Array UInt8} (parts : bytes.size = size) (times : Nat) :
    ((List.replicate times bytes).flatMap Array.toList).length = size * times := by
  rw [length_flatMap_blocks fun _ inside => length_of_copy parts inside, List.length_replicate]

theorem size_repeated (parts : ∀ x ∈ xs, (part x).size = size) (times : Nat) :
    (repeated part times xs).size = size * times * xs.length := by
  rw [← Array.length_toList, toList_repeated, length_flatMap_blocks]
  intro x inside
  exact length_replicated (parts x inside) times

/-- **A byte of repeated parts**, by the part, the repetition and the place in it. -/
theorem getElem?_repeated (parts : ∀ x ∈ xs, (part x).size = size) (i : Nat) {r j : Nat}
    (repetition : r < times) (inside : j < size) :
    (repeated part times xs)[size * times * i + (size * r + j)]? =
      xs[i]?.bind fun x => (part x)[j]? := by
  have below : size * r + j < size * times := by
    have := Nat.mul_le_mul_left size repetition
    rw [Nat.mul_succ] at this
    omega
  rw [← Array.getElem?_toList, toList_repeated,
    getElem?_flatMap (fun x inside => length_replicated (parts x inside) times) i below]
  cases found : xs[i]? with
  | none => rfl
  | some x =>
    have size := parts x (List.mem_of_getElem? found)
    rw [Option.bind_some, Option.bind_some,
      getElem?_flatMap (fun _ copy => length_of_copy size copy) r inside,
      List.getElem?_replicate_of_lt repetition, Option.bind_some, Array.getElem?_toList]

end Repeated

/-! ## 2. Colors in bytes -/

/-- A color by its bytes, of which alpha has the highest place. -/
def colorNumber (alpha red green blue : UInt8) : Nat :=
  0x1000000 * alpha.toNat + 0x10000 * red.toNat + 0x100 * green.toNat + blue.toNat

/-- The bytes from `4 * i` on are the red, green, blue and alpha of a color. -/
def Shows (rgba : Array UInt8) (i : Nat) (argb : UInt32) : Prop :=
  ∃ alpha red green blue, argb.toNat = colorNumber alpha red green blue ∧
    rgba[4 * i]? = some red ∧ rgba[4 * i + 1]? = some green ∧ rgba[4 * i + 2]? = some blue ∧
    rgba[4 * i + 3]? = some alpha

/-- The color in the four bytes from `4 * i` on. -/
def readColor? (rgba : Array UInt8) (i : Nat) : Option UInt32 := do
  let red ← rgba[4 * i]?
  let green ← rgba[4 * i + 1]?
  let blue ← rgba[4 * i + 2]?
  let alpha ← rgba[4 * i + 3]?
  return UInt32.ofNat (colorNumber alpha red green blue)

variable {rgba : Array UInt8} {argb : UInt32}

theorem size_rgbaBytes (argb : UInt32) : (rgbaBytes argb).size = 4 := rfl

/-- The bytes of a color show it. -/
theorem shows_rgbaBytes {i : Nat} (bytes : ∀ c < 4, rgba[4 * i + c]? = (rgbaBytes argb)[c]?) :
    Shows rgba i argb := by
  refine ⟨(argb >>> 24).toUInt8, (argb >>> 16).toUInt8, (argb >>> 8).toUInt8, argb.toUInt8, ?_,
    bytes 0 (by decide), bytes 1 (by decide), bytes 2 (by decide), bytes 3 (by decide)⟩
  have := argb.toNat_lt
  simp only [colorNumber, UInt32.toNat_toUInt8, UInt32.toNat_shiftRight, UInt32.reduceToNat,
    Nat.reduceMod, Nat.shiftRight_eq_div_pow, Nat.reducePow]
  omega

/-- A color that is shown is read. -/
theorem Shows.readColor? {i : Nat} (h : Shows rgba i argb) : readColor? rgba i = some argb := by
  obtain ⟨alpha, red, green, blue, number, first, second, third, fourth⟩ := h
  unfold Retro24.readColor?
  rw [first, second, third, fourth, ← UInt32.ofNat_toNat (x := argb), number]
  rfl

/-! ## 3. Enlarged frames -/

namespace Frame

variable {f : Frame} {times : Nat}

/-- Bytes in which every pixel of a frame is a square of `times` columns and rows. -/
structure Enlarged (f : Frame) (times : Nat) (rgba : Array UInt8) : Prop where
  size : rgba.size = 4 * (f.width.toNat * times) * (f.height.toNat * times)
  shows (x y : Nat) (inRow : x < f.width.toNat * times) (inColumn : y < f.height.toNat * times) :
    ∃ argb, f.pixels[y / times * f.width.toNat + x / times]? = some argb ∧
      Shows rgba (y * (f.width.toNat * times) + x) argb

/-- One pixel of each square of an enlarged picture, the one in column `dx` and row `dy` of it. The
    squares stand in rows of `width`. -/
def reduced (rgba : Array UInt8) (times width height dx dy : Nat) : List (Option UInt32) :=
  (List.range (width * height)).map fun i =>
    readColor? rgba ((times * (i / width) + dy) * (width * times) + (times * (i % width) + dx))

/-- **Each square gives its pixel back**, whichever of its places is read. -/
theorem Enlarged.reduced (h : f.Enlarged times rgba)
    (full : f.pixels.size = f.width.toNat * f.height.toNat) {dx dy : Nat} (column : dx < times)
    (row : dy < times) :
    reduced rgba times f.width.toNat f.height.toNat dx dy = f.pixels.toList.map some := by
  have positive : 0 < times := Nat.zero_lt_of_lt column
  have inside {q r n : Nat} (below : q < n) (place : r < times) : times * q + r < n * times := by
    have := Nat.mul_le_mul_left times below
    rw [Nat.mul_succ, Nat.mul_comm times n] at this
    omega
  have square {q r : Nat} (place : r < times) : (times * q + r) / times = q := by
    rw [Nat.mul_add_div positive, Nat.div_eq_of_lt place, Nat.add_zero]
  refine List.ext_getElem? fun i => ?_
  rw [Frame.reduced, List.getElem?_map, List.getElem?_map]
  by_cases count : i < f.width.toNat * f.height.toNat
  · have wide : 0 < f.width.toNat := Nat.pos_of_mul_pos_right (Nat.zero_lt_of_lt count)
    obtain ⟨argb, found, shown⟩ := h.shows (times * (i % f.width.toNat) + dx)
      (times * (i / f.width.toNat) + dy) (inside (Nat.mod_lt i wide) column)
      (inside (Nat.div_lt_of_lt_mul count) row)
    rw [square row, square column, Nat.mul_comm, Nat.div_add_mod] at found
    rw [List.getElem?_range count, Array.getElem?_toList, found, Option.map_some, Option.map_some,
      shown.readColor?]
  · have none : (List.range (f.width.toNat * f.height.toNat))[i]? = none :=
      List.getElem?_eq_none (by rw [List.length_range]; omega)
    rw [none, Array.getElem?_toList, Array.getElem?_eq_none (by omega)]
    rfl

/-- The rows of a frame with as many pixels as its sides say. -/
theorem length_rows (wide : 0 < f.width.toNat)
    (full : f.pixels.size = f.width.toNat * f.height.toNat) :
    (pieces f.width.toNat f.pixels.toList).length = f.height.toNat := by
  have even : f.pixels.toList.length = f.width.toNat * f.height.toNat := full
  have total := length_flatMap_blocks (f := id) fun row inside =>
    length_of_mem_pieces wide even inside
  rw [List.flatMap_id, flatten_pieces wide, even] at total
  exact (Nat.eq_of_mul_eq_mul_left wide total).symm

/-- Rows of a frame that are repeated in both directions have the same size. -/
theorem size_scaledRow (wide : 0 < f.width.toNat)
    (full : f.pixels.size = f.width.toNat * f.height.toNat) (times : Nat) :
    ∀ row ∈ pieces f.width.toNat f.pixels.toList,
      (scaledRow times row).size = 4 * times * f.width.toNat := by
  intro row inside
  rw [← length_of_mem_pieces wide full inside]
  exact size_repeated (fun argb _ => size_rgbaBytes argb) times

theorem getElem?_scaledRow (row : List UInt32) (i : Nat) {r c : Nat} (column : r < times)
    (channel : c < 4) : (scaledRow times row)[4 * times * i + (4 * r + c)]? =
      row[i]?.bind fun argb => (rgbaBytes argb)[c]? :=
  getElem?_repeated (fun argb _ => size_rgbaBytes argb) i column channel

/-- **The bytes of a frame enlarge it.** -/
theorem enlarged_scaledRows (wide : 0 < f.width.toNat)
    (full : f.pixels.size = f.width.toNat * f.height.toNat) (times : Nat) :
    f.Enlarged times (scaledRows times (pieces f.width.toNat f.pixels.toList)) := by
  have rowSize := size_scaledRow wide full times
  constructor
  · have size := size_repeated rowSize times
    rw [length_rows wide full] at size
    refine size.trans ?_
    ring
  · intro x y inRow inColumn
    have positive : 0 < times := Nat.pos_of_mul_pos_left (Nat.zero_lt_of_lt inRow)
    have pixelColumn : x / times < f.width.toNat := Nat.div_lt_of_lt_mul (by rwa [Nat.mul_comm])
    have pixelRow : y / times < f.height.toNat := Nat.div_lt_of_lt_mul (by rwa [Nat.mul_comm])
    have dx : x % times < times := Nat.mod_lt x positive
    have dy : y % times < times := Nat.mod_lt y positive
    have found : y / times * f.width.toNat + x / times < f.pixels.size := by
      rw [full, Nat.mul_comm (y / times)]
      have := Nat.mul_le_mul_left f.width.toNat pixelRow
      rw [Nat.mul_succ] at this
      omega
    refine ⟨_, Array.getElem?_eq_getElem found, shows_rgbaBytes fun c channel => ?_⟩
    have inside : 4 * times * (x / times) + (4 * (x % times) + c) < 4 * times * f.width.toNat := by
      have := Nat.mul_le_mul_left (4 * times) pixelColumn
      rw [Nat.mul_succ] at this
      omega
    have place : 4 * (y * (f.width.toNat * times) + x) + c =
        4 * times * f.width.toNat * times * (y / times) +
          (4 * times * f.width.toNat * (y % times) +
            (4 * times * (x / times) + (4 * (x % times) + c))) := by
      conv_lhs => rw [← Nat.div_add_mod y times, ← Nat.div_add_mod x times]
      ring
    have byte := getElem?_repeated rowSize (y / times) dy inside
    simp only [getElem?_scaledRow _ _ dx channel] at byte
    rw [← Option.bind_assoc, getElem?_piece _ _ pixelColumn, Nat.mul_comm f.width.toNat (y / times),
      Array.getElem?_toList, Array.getElem?_eq_getElem found, Option.bind_some, ← place] at byte
    exact byte

end Frame

/-! ## 4. Picture files -/

namespace Png

theorem toList_append (out : ByteArray) (bytes : List UInt8) :
    (append out bytes).data.toList = out.data.toList ++ bytes := by
  induction bytes generalizing out with
  | nil => exact (List.append_nil _).symm
  | cons b bytes ih =>
    show (append (out.push b) bytes).data.toList = _
    rw [ih, ByteArray.data_push, Array.toList_push, List.append_assoc]
    rfl

/-- A long word is read where it was written. -/
theorem longAt_eq {bytes : ByteArray} {front behind : List UInt8} {n : UInt32}
    (written : bytes.data.toList = front ++ (longBytes n ++ behind)) :
    longAt bytes front.length = n.toNat := by
  have four : bytes.extract front.length (front.length + 4) = ⟨(longBytes n).toArray⟩ := by
    apply ByteArray.ext
    apply Array.toList_inj.mp
    rw [ByteArray.data_extract, Array.toList_extract, written, List.extract_eq_take_drop,
      List.drop_left, Nat.add_sub_cancel_left]
    exact List.take_left' rfl
  have digits : ByteArray.foldl (fun n b => 256 * n + b.toNat) 0 ⟨(longBytes n).toArray⟩ =
      256 * (256 * (256 * (256 * 0 + (n >>> 24).toUInt8.toNat) + (n >>> 16).toUInt8.toNat) +
        (n >>> 8).toUInt8.toNat) + n.toUInt8.toNat := rfl
  have := n.toNat_lt
  rw [longAt, four, digits]
  simp only [UInt32.toNat_toUInt8, UInt32.toNat_shiftRight, UInt32.reduceToNat, Nat.reduceMod,
    Nat.shiftRight_eq_div_pow, Nat.reducePow]
  omega

/-- A picture of as many bytes as its sides say is encoded. -/
theorem exists_encode {width height : UInt32} {rgba : ByteArray} (wide : width ≠ 0)
    (high : height ≠ 0) (size : rgba.size = width.toNat * 4 * height.toNat) :
    ∃ file, encode width height rgba = .ok file := by
  have checked : check width height rgba.size = .ok () := by
    rw [check, if_neg wide, if_neg high]
    exact if_pos size
  rw [encode, checked]
  exact ⟨_, rfl⟩

/-- What stands in front of the sides of a picture: the signature, and the length and the name of
    the header. -/
def opening : List UInt8 := signature ++ (longBytes 13 ++ [0x49, 0x48, 0x44, 0x52])

theorem toList_encode {width height : UInt32} {rgba file : ByteArray}
    (encoded : encode width height rgba = .ok file) :
    ∃ behind, file.data.toList = opening ++ (longBytes width ++ (longBytes height ++ behind)) := by
  have name : "IHDR".toUTF8.data.toList = [0x49, 0x48, 0x44, 0x52] := by decide +kernel
  have length : (append .empty (longBytes width ++ longBytes height ++
      [8, 6, 0, 0, 0])).size.toUInt32 = 13 := by
    rw [← ByteArray.size_data, ← Array.length_toList, toList_append]
    rfl
  unfold encode at encoded
  cases checked : check width height rgba.size with
  | error e =>
    rw [checked] at encoded
    cases encoded
  | ok _ =>
    rw [checked] at encoded
    rw [← Except.ok.inj encoded]
    simp only [chunk]
    rw [length]
    simp only [ByteArray.data_append, ByteArray.data_empty, Array.toList_append, Array.toList_empty,
      toList_append, name, opening, List.append_assoc, List.nil_append]
    exact ⟨_, rfl⟩

/-- **The header of a picture file announces the sides that it was encoded with.** -/
theorem longAt_encode {width height : UInt32} {rgba file : ByteArray}
    (encoded : encode width height rgba = .ok file) :
    longAt file 16 = width.toNat ∧ longAt file 20 = height.toNat := by
  obtain ⟨behind, written⟩ := toList_encode encoded
  have first : opening.length = 16 := rfl
  have second : (opening ++ longBytes width).length = 20 := rfl
  rw [← first, longAt_eq written, ← second]
  rw [← List.append_assoc] at written
  exact ⟨rfl, longAt_eq written⟩

end Png

namespace Frame

/-- A side of an enlarged picture that is a machine word. -/
theorem toNat_enlargedSide {side scale : UInt32}
    (fits : side.toNat * max scale.toNat 1 < 0x100000000) :
    (side * max scale 1).toNat = side.toNat * max scale.toNat 1 := by
  rw [UInt32.toNat_mul, UInt32.toNat_max]
  exact Nat.mod_eq_of_lt fits

theorem longWord?_enlargedSide {side scale : UInt32}
    (fits : side.toNat * max scale.toNat 1 < 0x100000000) :
    longWord? (side.toNat * (max scale 1).toNat) = some (side * max scale 1) := by
  have small : side.toNat * (max scale 1).toNat < 0x100000000 := by
    rw [UInt32.toNat_max]
    exact fits
  rw [longWord?, if_pos small, UInt32.ofNat_mul, UInt32.ofNat_toNat, UInt32.ofNat_toNat]

theorem enlargedSide_ne_zero {side scale : UInt32} (positive : 1 ≤ side.toNat)
    (fits : side.toNat * max scale.toNat 1 < 0x100000000) : side * max scale 1 ≠ 0 := by
  intro zero
  have size := toNat_enlargedSide fits
  rw [zero] at size
  have : 0 < side.toNat * max scale.toNat 1 :=
    Nat.mul_pos positive (Nat.le_max_right scale.toNat 1)
  exact Nat.ne_of_lt this size

/-- The bytes of an enlarged picture are those of its rows. -/
theorem enlarged?_eq {f : Frame} (scale : UInt32) (wide : 1 ≤ f.width.toNat) :
    enlarged? f scale =
      some (scaledRows (max scale.toNat 1) (pieces f.width.toNat f.pixels.toList)) := by
  have nonzero : f.width ≠ 0 := by
    intro zero
    rw [zero] at wide
    exact absurd wide (by decide)
  rw [enlarged?, if_neg nonzero, UInt32.toNat_max]
  rfl

/-- **The picture file of a frame that is enlarged** is encoded from its bytes, and announces their
    sides. -/
theorem Enlarged.exists_pictureFile? {f : Frame} {scale : UInt32} {rgba : Array UInt8}
    (h : f.Enlarged (max scale.toNat 1) rgba) (found : enlarged? f scale = some rgba)
    (wide : 1 ≤ f.width.toNat) (high : 1 ≤ f.height.toNat)
    (widthFits : f.width.toNat * max scale.toNat 1 < 0x100000000)
    (heightFits : f.height.toNat * max scale.toNat 1 < 0x100000000) :
    ∃ file, pictureFile? f scale = some (.ok file) ∧
      Png.encode (f.width * max scale 1) (f.height * max scale 1) ⟨rgba⟩ = .ok file ∧
      Png.longAt file 16 = f.width.toNat * max scale.toNat 1 ∧
      Png.longAt file 20 = f.height.toNat * max scale.toNat 1 := by
  have across := enlargedSide_ne_zero wide widthFits
  have down := enlargedSide_ne_zero high heightFits
  have size : (ByteArray.mk rgba).size =
      (f.width * max scale 1).toNat * 4 * (f.height * max scale 1).toNat := by
    rw [toNat_enlargedSide widthFits, toNat_enlargedSide heightFits]
    refine h.size.trans ?_
    ring
  obtain ⟨file, encoded⟩ := Png.exists_encode across down size
  have made : pictureFile? f scale = some (.ok file) := by
    rw [pictureFile?, longWord?_enlargedSide widthFits, Option.bind_some,
      longWord?_enlargedSide heightFits, Option.map_some, if_neg across, if_neg down, found]
    exact congrArg some encoded
  have sides := Png.longAt_encode encoded
  rw [toNat_enlargedSide widthFits, toNat_enlargedSide heightFits] at sides
  exact ⟨file, made, encoded, sides⟩

/-- **A frame is enlarged pixel by pixel.** A frame with a width and as many pixels as its sides say
    has an enlarged picture for every scale, of which zero counts as one: it has four bytes for each
    place, every place shows the pixel in whose square it lies, and any one place of the squares
    gives all pixels back. If the frame has a height and its enlarged sides are machine words, then
    its picture file is written from these bytes, and the sides that its header announces are the
    enlarged ones, for which the bytes are as many as there have to be. -/
theorem enlarged_exactly (f : Frame) (scale : UInt32) (wide : 1 ≤ f.width.toNat)
    (full : f.pixels.size = f.width.toNat * f.height.toNat) :
    ∃ rgba, enlarged? f scale = some rgba ∧ f.Enlarged (max scale.toNat 1) rgba ∧
      (∀ dx < max scale.toNat 1, ∀ dy < max scale.toNat 1,
        reduced rgba (max scale.toNat 1) f.width.toNat f.height.toNat dx dy =
          f.pixels.toList.map some) ∧
      (1 ≤ f.height.toNat → f.width.toNat * max scale.toNat 1 < 0x100000000 →
        f.height.toNat * max scale.toNat 1 < 0x100000000 →
        ∃ file, pictureFile? f scale = some (.ok file) ∧
          Png.encode (f.width * max scale 1) (f.height * max scale 1) ⟨rgba⟩ = .ok file ∧
          Png.longAt file 16 = f.width.toNat * max scale.toNat 1 ∧
          Png.longAt file 20 = f.height.toNat * max scale.toNat 1 ∧
          rgba.size = 4 * Png.longAt file 16 * Png.longAt file 20) := by
  have enlarged := enlarged_scaledRows wide full (max scale.toNat 1)
  have found := enlarged?_eq scale wide
  generalize scaledRows (max scale.toNat 1) _ = rgba at found enlarged
  refine ⟨rgba, found, enlarged, fun dx column dy row => enlarged.reduced full column row,
    fun high widthFits heightFits => ?_⟩
  obtain ⟨file, made, encoded, across, down⟩ :=
    enlarged.exists_pictureFile? found wide high widthFits heightFits
  refine ⟨file, made, encoded, across, down, ?_⟩
  rw [across, down]
  exact enlarged.size

/-- A blue pixel beside a yellow one. -/
def blueYellow : Frame := ⟨2, 1, #[0xFF0000FF, 0xFFFFFF00]⟩

/-- The yellow one is the square on the right of the picture at scale two. -/
theorem enlarged_exactly_blueYellow :
    ∃ rgba file, enlarged? blueYellow 2 = some rgba ∧ rgba.size = 32 ∧
      Shows rgba 6 0xFFFFFF00 ∧ pictureFile? blueYellow 2 = some (.ok file) ∧
      Png.longAt file 16 = 4 ∧
      reduced rgba 2 2 1 1 0 = [some 0xFF0000FF, some 0xFFFFFF00] := by
  obtain ⟨rgba, found, enlarged, reduced, written⟩ := enlarged_exactly blueYellow 2 (by decide) rfl
  obtain ⟨file, made, -, across, -, -⟩ := written (by decide) (by decide) (by decide)
  obtain ⟨argb, pixel, shown⟩ := enlarged.shows 2 1 (by decide) (by decide)
  have yellow : argb = 0xFFFFFF00 := Option.some.inj (pixel.symm.trans (by decide))
  rw [yellow] at shown
  exact ⟨rgba, file, found, enlarged.size, shown, made, across,
    reduced 1 (by decide) 0 (by decide)⟩

end Frame
end Retro24
