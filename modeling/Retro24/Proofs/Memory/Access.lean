/-
  File:      Retro24/Proofs/Memory/Access.lean
  Subject:   Accesses to three arrays of any size, which fail where an index is out of range.

  * `BusImage.read?`, `BusImage.write?`: the byte at an address, routed to its array.
  * `BusImage.region?`: the bytes of a region; the planes are cut out of the video array.
  * `BusImage.pixel?`, `BusImage.text?`, `BusImage.paint?`: the color of a pixel, the screen in
    characters, and the picture drawn over a frame with a palette that must have the color.
  * `BusImage.drawRows?`: a bitmap, which breaks off at the right and at the lower edge.
  * `…_ofBus`: on the arrays of the banks each of them succeeds and does what the banks do.
-/
import Retro24.Display

namespace Retro24.BusImage

/-! ## 1. Bytes -/

/-- An array with the byte in one place replaced, if it has that place. -/
def put? (bytes : Array UInt8) (n : Nat) (v : UInt8) : Option (Array UInt8) :=
  if h : n < bytes.size then some (bytes.set n v) else none

theorem put?_toArray {k : Nat} (bytes : Vector UInt8 k) {n : Nat} (h : n < k) (v : UInt8) :
    put? bytes.toArray n v = some (bytes.set n v).toArray := by
  unfold put?
  rw [dif_pos (by rw [Vector.size_toArray]; exact h), Vector.toArray_set]

/-- The byte of a cell. -/
def get? (i : BusImage) : Cell → Option UInt8
  | ⟨.io, n⟩ => i.io[n.val]?
  | ⟨.ram, n⟩ => i.ram[n.val]?
  | ⟨.brightness, n⟩ => i.video[n.val]?
  | ⟨.color, n⟩ => i.video[4096 + n.val]?

/-- The arrays with the byte of one cell replaced. -/
def set? (i : BusImage) (c : Cell) (v : UInt8) : Option BusImage :=
  match c with
  | ⟨.io, n⟩ => (put? i.io n.val v).map ({ i with io := · })
  | ⟨.ram, n⟩ => (put? i.ram n.val v).map ({ i with ram := · })
  | ⟨.brightness, n⟩ => (put? i.video n.val v).map ({ i with video := · })
  | ⟨.color, n⟩ => (put? i.video (4096 + n.val) v).map ({ i with video := · })

/-- The byte at an address. -/
def read? (i : BusImage) (a : UInt16) : Option UInt8 := i.get? (Region.locate a)

/-- The arrays with the byte at one address replaced. -/
def write? (i : BusImage) (a : UInt16) (v : UInt8) : Option BusImage := i.set? (Region.locate a) v

theorem place?_toArray {k : Nat} (bytes : Vector UInt8 k) {n : Nat} (h : n < k) :
    bytes.toArray[n]? = some bytes[n] := by
  rw [Vector.getElem?_toArray, Vector.getElem?_eq_getElem h]

theorem get?_ofBus (b : Bus) (c : Cell) : (ofBus b).get? c = some (b.get c) := by
  obtain ⟨r, n⟩ := c
  cases r with
  | io => exact place?_toArray b.io n.isLt
  | ram => exact place?_toArray b.ram n.isLt
  | brightness =>
    have inside : n.val < 8192 := Nat.lt_trans n.isLt (by decide)
    exact place?_toArray b.video inside
  | color => exact place?_toArray b.video (Bus.colorOffset_lt n)

theorem set?_ofBus (b : Bus) (c : Cell) (v : UInt8) :
    (ofBus b).set? c v = some (ofBus (b.set c v)) := by
  obtain ⟨r, n⟩ := c
  cases r with
  | io => simp only [set?, ofBus, put?_toArray b.io n.isLt]; rfl
  | ram => simp only [set?, ofBus, put?_toArray b.ram n.isLt]; rfl
  | brightness =>
    have inside : n.val < 8192 := Nat.lt_trans n.isLt (by decide)
    simp only [set?, ofBus, put?_toArray b.video inside]
    rfl
  | color => simp only [set?, ofBus, put?_toArray b.video (Bus.colorOffset_lt n)]; rfl

/-- **A read of the banks stays inside them.** -/
theorem read?_ofBus (b : Bus) (a : UInt16) : (ofBus b).read? a = some (b.read a) :=
  get?_ofBus b (Region.locate a)

/-- **A write to the banks stays inside them.** -/
theorem write?_ofBus (b : Bus) (a : UInt16) (v : UInt8) :
    (ofBus b).write? a v = some (ofBus (b.write a v)) :=
  set?_ofBus b (Region.locate a) v

/-! ## 2. Regions and pixels -/

/-- The bytes of a region. -/
def region? (i : BusImage) : Region → Option (List UInt8)
  | .io => some i.io.toList
  | .ram => some i.ram.toList
  | .brightness => if 4096 ≤ i.video.size then some (i.video.toList.take 4096) else none
  | .color => if 4096 ≤ i.video.size then some (i.video.toList.drop 4096) else none

/-- The color of a pixel. -/
def pixel? (i : BusImage) (n : Nat) : Option ScreenColor := do
  let brights ← i.region? .brightness
  let colors ← i.region? .color
  let bright ← brights[n]?
  let color ← colors[n]?
  some (.ofPlanes (bright != 0) (color != 0))

theorem toList_region_eq {b : Bus} {r : Region} {bytes : List UInt8} (size : bytes.length = r.size)
    (same : ∀ n (h : n < bytes.length) (h' : n < r.size), bytes[n] = b.get ⟨r, ⟨n, h'⟩⟩) :
    bytes = (b.region r).toList := by
  refine List.ext_getElem ?_ fun n h _ => ?_
  · rw [Vector.length_toList, size]
  · rw [Vector.getElem_toList, Bus.getElem_region]
    exact same n h (size ▸ h)

/-- **A region of the banks is cut out inside them.** -/
theorem region?_ofBus (b : Bus) (r : Region) :
    (ofBus b).region? r = some (b.region r).toList := by
  have size : (ofBus b).video.size = 8192 := b.video.size_toArray
  cases r with
  | io => exact congrArg some (toList_region_eq b.io.length_toList fun _ _ _ => rfl)
  | ram => exact congrArg some (toList_region_eq b.ram.length_toList fun _ _ _ => rfl)
  | brightness =>
    simp only [region?, size]
    refine congrArg some (toList_region_eq ?_ fun n h h' => ?_)
    · rw [List.length_take, Array.length_toList, size]
      rfl
    · rw [List.getElem_take]
      rfl
  | color =>
    simp only [region?, size]
    refine congrArg some (toList_region_eq ?_ fun n h h' => ?_)
    · rw [List.length_drop, Array.length_toList, size]
    · rw [List.getElem_drop]
      rfl

theorem getElem?_region (b : Bus) (r : Region) {n : Nat} (h : n < r.size) :
    (b.region r).toList[n]? = some (b.get ⟨r, ⟨n, h⟩⟩) := by
  rw [List.getElem?_eq_getElem (by rwa [Vector.length_toList]), Vector.getElem_toList,
    Bus.getElem_region]

/-- **A pixel of the screen has its bytes in both planes.** -/
theorem pixel?_ofBus (b : Bus) (n : Fin pixelCount) :
    (ofBus b).pixel? n.val = some (b.colorAt n) := by
  have bright := getElem?_region b .brightness n.isLt
  have color := getElem?_region b .color n.isLt
  rw [pixel?, region?_ofBus, region?_ofBus, Option.bind_eq_bind, Option.bind_some,
    Option.bind_eq_bind, Option.bind_some, bright, color]
  rfl

/-! ## 3. Pictures -/

/-- The characters of row `y`. -/
def rowText? (i : BusImage) (y : Fin 64) : Option String :=
  ((List.finRange 64).mapM fun x => (i.pixel? (64 * y.val + x.val)).map ScreenColor.symbol).map
    String.ofList

/-- The screen in characters; every row ends its line. -/
def text? (i : BusImage) : Option String :=
  ((List.finRange 64).mapM fun y => (i.rowText? y).map (· ++ "\n")).map String.join

/-- The planes drawn over the first pixels of a frame. The palette must have every color needed. -/
def paint? (i : BusImage) (d : Display) (f : Frame) : Option Frame := do
  let brights ← i.region? .brightness
  let colors ← i.region? .color
  let shades ← (f.pixels.toList.zip (brights.zip colors)).mapM fun pixel =>
    d.palette.colors[(paletteIndex [pixel.2.1 != 0, pixel.2.2 != 0]).toNat]?
  some { f with pixels := (shades ++ f.pixels.toList.drop shades.length).toArray }

theorem mapM_some {α β : Type} {f : α → Option β} {g : α → β} (h : ∀ x, f x = some (g x))
    (xs : List α) : xs.mapM f = some (xs.map g) := by
  rw [show f = fun x => pure (g x) from funext h]
  exact List.mapM_pure

theorem rowText?_ofBus (b : Bus) (y : Fin 64) : (ofBus b).rowText? y = some (b.rowText y) := by
  have symbols (x : Fin 64) : ((ofBus b).pixel? (64 * y.val + x.val)).map ScreenColor.symbol =
      some (b.colorAt (pixelAt x y)).symbol :=
    congrArg (Option.map ScreenColor.symbol) (pixel?_ofBus b (pixelAt x y))
  rw [rowText?, mapM_some symbols]
  rfl

/-- **The screen in characters looks at pixels that exist.** -/
theorem text?_ofBus (b : Bus) : (ofBus b).text? = some (screenText b) := by
  have rows (y : Fin 64) : ((ofBus b).rowText? y).map (· ++ "\n") = some (b.rowText y ++ "\n") := by
    rw [rowText?_ofBus]
    rfl
  rw [text?, mapM_some rows]
  rfl

/-- Two planes make one of the first four places of a palette. -/
theorem paletteIndex_lt (bright color : Bool) : (paletteIndex [bright, color]).toNat < 4 := by
  cases bright <;> cases color <;> decide

/-- What is drawn, as the planes' bytes one behind the other. -/
theorem pixels_drawOver (b : Bus) (d : Display) (f : Frame) (hf : f.pixels.size = pixelCount) :
    (d.drawOver b f).pixels.toList =
      (f.pixels.toList.zip ((b.region .brightness).toList.zip (b.region .color).toList)).map
        fun pixel => d.palette.get (paletteIndex [pixel.2.1 != 0, pixel.2.2 != 0]).toNat := by
  have brights : (b.region .brightness).toList.length = 4096 := Vector.length_toList
  have colors : (b.region .color).toList.length = 4096 := Vector.length_toList
  have pixels : f.pixels.toList.length = 4096 := hf
  refine List.ext_getElem ?_ fun n h _ => ?_
  · rw [List.length_map, List.length_zip, List.length_zip, brights, colors, pixels, Array.length_toList,
      Display.size_drawOver, hf]
    rfl
  · have inside : n < pixelCount := by
      rw [Array.length_toList, Display.size_drawOver, hf] at h
      exact h
    rw [List.getElem_map, List.getElem_zip, List.getElem_zip, Vector.getElem_toList,
      Vector.getElem_toList, Bus.getElem_region, Bus.getElem_region, Array.getElem_toList]
    simp only [Display.drawOver, Array.getElem_mapIdx, dif_pos inside]
    rfl

/-- **A picture over as many pixels as the planes have needs no other color than the palette's.** -/
theorem paint?_ofBus (b : Bus) (d : Display) (f : Frame) (hp : d.palette.colors.size = 4)
    (hf : f.pixels.size = pixelCount) : (ofBus b).paint? d f = some (d.drawOver b f) := by
  have found (pixel : UInt32 × UInt8 × UInt8) :
      d.palette.colors[(paletteIndex [pixel.2.1 != 0, pixel.2.2 != 0]).toNat]? =
        some (d.palette.get (paletteIndex [pixel.2.1 != 0, pixel.2.2 != 0]).toNat) := by
    have inside := paletteIndex_lt (pixel.2.1 != 0) (pixel.2.2 != 0)
    rw [← hp] at inside
    rw [Palette.get, Array.getElem?_eq_getElem inside, Option.getD_some]
  have drawn := pixels_drawOver b d f hf
  have rest : f.pixels.toList.drop (d.drawOver b f).pixels.toList.length = [] := by
    rw [Array.length_toList, Display.size_drawOver, ← Array.length_toList]
    exact List.drop_length
  rw [paint?, region?_ofBus, region?_ofBus, Option.bind_eq_bind, Option.bind_some,
    Option.bind_eq_bind, Option.bind_some, mapM_some found, ← drawn, Option.bind_some,
    rest, List.append_nil, Array.toArray_toList]
  rfl

/-! ## 4. Bitmaps -/

/-- The brightness byte in place `n` set. -/
def light? (i : BusImage) (n : Nat) : Option BusImage :=
  (put? i.video n 1).map ({ i with video := · })

/-- The set bits of one byte lit in row `y`, for the columns of a list. The first column beyond the
    edge ends the row. -/
def drawBits? (bits : UInt8) (x y : Nat) : List Nat → BusImage → Option BusImage
  | [], i => some i
  | n :: ns, i =>
    if 64 ≤ x + n then some i
    else if Bus.bitFromLeft bits n then (i.light? (64 * y + (x + n))).bind (drawBits? bits x y ns)
    else drawBits? bits x y ns i

/-- A bitmap of eight columns. The first row beyond the edge ends the bitmap. -/
def drawRows? (x y : Nat) : List UInt8 → BusImage → Option BusImage
  | [], i => some i
  | bits :: rows, i =>
    if 64 ≤ y then some i
    else (drawBits? bits x y (List.range 8) i).bind (drawRows? x (y + 1) rows)

/-- A bitmap drawn at a position that is given in machine words. -/
def drawPattern? (i : BusImage) (pattern : List UInt8) (column row : UInt64) : Option BusImage :=
  drawRows? column.toNat row.toNat pattern i

theorem light?_ofBus (b : Bus) {x y : Nat} (hx : x < 64) (hy : y < 64) :
    (ofBus b).light? (64 * y + x) = some (ofBus (b.lightPixel x y)) := by
  have inside : 64 * y + x < 8192 := by omega
  rw [Bus.lightPixel, dif_pos ⟨hx, hy⟩, light?]
  show (put? b.video.toArray (64 * y + x) 1).map _ = _
  rw [put?_toArray b.video inside]
  rfl

theorem lightPixel_outside (b : Bus) {x y : Nat} (h : 64 ≤ x ∨ 64 ≤ y) : b.lightPixel x y = b :=
  dif_neg (by omega)

/-- Columns beyond the edge are dropped. -/
theorem foldl_outside (b : Bus) (bits : UInt8) {x y : Nat} {ns : List Nat}
    (h : ∀ n ∈ ns, 64 ≤ x + n ∨ 64 ≤ y) :
    ns.foldl (fun b n => if Bus.bitFromLeft bits n then b.lightPixel (x + n) y else b) b = b := by
  induction ns with
  | nil => rfl
  | cons n ns ih =>
    rw [List.foldl_cons, lightPixel_outside b (h n List.mem_cons_self), ite_self]
    exact ih fun m hm => h m (List.mem_cons_of_mem n hm)

/-- A row that breaks off draws what a row that drops its columns draws. -/
theorem drawBits?_ofBus (b : Bus) (bits : UInt8) {x y : Nat} (hy : y < 64) {ns : List Nat}
    (rising : ns.Pairwise (· < ·)) :
    drawBits? bits x y ns (ofBus b) = some (ofBus
      (ns.foldl (fun b n => if Bus.bitFromLeft bits n then b.lightPixel (x + n) y else b) b)) := by
  induction ns generalizing b with
  | nil => rfl
  | cons n ns ih =>
    obtain ⟨first, rising⟩ := List.pairwise_cons.mp rising
    by_cases outside : 64 ≤ x + n
    · have dropped : ∀ m ∈ n :: ns, 64 ≤ x + m ∨ 64 ≤ y := by
        intro m hm
        rcases List.mem_cons.mp hm with rfl | hm
        · exact .inl outside
        · have := first m hm
          omega
      rw [drawBits?, if_pos outside, foldl_outside b bits dropped]
    · rw [drawBits?, if_neg outside, List.foldl_cons]
      by_cases lit : Bus.bitFromLeft bits n = true
      · rw [if_pos lit, if_pos lit, light?_ofBus b (by omega) hy, Option.bind_some]
        exact ih (b.lightPixel (x + n) y) rising
      · rw [if_neg lit, if_neg lit]
        exact ih b rising

theorem drawRows_outside (b : Bus) {x y : Nat} (h : 64 ≤ y) (rows : List UInt8) :
    b.drawRows x y rows = b := by
  induction rows generalizing y with
  | nil => rfl
  | cons bits rows ih =>
    rw [Bus.drawRows, Bus.drawBits, foldl_outside b bits fun _ _ => .inr h]
    exact ih (Nat.le_succ_of_le h)

theorem drawRows?_ofBus (b : Bus) (x y : Nat) (rows : List UInt8) :
    drawRows? x y rows (ofBus b) = some (ofBus (b.drawRows x y rows)) := by
  induction rows generalizing b y with
  | nil => rfl
  | cons bits rows ih =>
    by_cases outside : 64 ≤ y
    · rw [drawRows?, if_pos outside, drawRows_outside b outside]
    · rw [drawRows?, if_neg outside, drawBits?_ofBus b bits (by omega) List.pairwise_lt_range,
        Option.bind_some]
      exact ih (b.drawBits bits x y) (y + 1)

/-- **A bitmap, wherever it is drawn, stays inside the planes.** -/
theorem drawPattern?_ofBus (b : Bus) (pattern : List UInt8) (column row : UInt64) :
    (ofBus b).drawPattern? pattern column row = some (ofBus (b.drawPattern pattern column row)) :=
  drawRows?_ofBus b column.toNat row.toNat pattern

end Retro24.BusImage
