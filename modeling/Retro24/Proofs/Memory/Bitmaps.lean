/-
  File:      Retro24/Proofs/Memory/Bitmaps.lean
  Subject:   Bitmaps in the brightness plane, and the screen's edges that clip them.

  * `Bus.Lit`: from one state of the banks to another the pixels of a set were lit, and nothing else
    was changed. There is one such state only (`Lit.unique`), and lighting one set behind another
    lights both (`Lit.trans`, `lit_foldl`).
  * `BitmapPixel`: the pixels of a bitmap, in unbounded numbers; `lit_drawPattern`: these are lit.
  * `BusImage.litRows?`: the bitmap drawn in arrays of any size, with every position computed in
    machine words; it fails where a sum or a product is none. `litRows?_eq`: none ever fails there,
    since the drawing breaks off at the first position that is off the screen.
  * `Bus.drawAll`: bitmaps drawn one after another, in any order and as often as one likes
    (`drawAll_congr`).
  * `bitmap_clipped`: all of it together.
-/
import Retro24.Proofs.Memory.Access
import Retro24.Proofs.Memory.Spans

namespace Retro24

/-! ## 1. Pixels that are lit -/

namespace Bus

variable {b b' b'' : Bus} {s t : Nat → Nat → Prop}

/-- Between two states of the banks the pixels of a set were lit: their brightness bytes are one,
    and every other byte of the banks, in whatever region, is what it was. -/
structure Lit (b : Bus) (pixels : Nat → Nat → Prop) (b' : Bus) : Prop where
  lit (x y : Fin 64) : pixels x y → b'.get ⟨.brightness, pixelAt x y⟩ = 1
  dark (x y : Fin 64) : ¬ pixels x y →
    b'.get ⟨.brightness, pixelAt x y⟩ = b.get ⟨.brightness, pixelAt x y⟩
  rest (c : Cell) : c.region ≠ .brightness → b'.get c = b.get c

theorem pixelAt_inj {x y x' y' : Fin 64} : pixelAt x y = pixelAt x' y' ↔ x = x' ∧ y = y' := by
  unfold pixelAt
  rw [Fin.mk.injEq, Fin.ext_iff, Fin.ext_iff]
  omega

theorem exists_pixelAt (i : Fin pixelCount) : ∃ x y, pixelAt x y = i := by
  have inside : i.val < 4096 := i.isLt
  refine ⟨⟨i.val % 64, by omega⟩, ⟨i.val / 64, by omega⟩, Fin.ext ?_⟩
  show 64 * (i.val / 64) + i.val % 64 = i.val
  omega

/-- **The pixels that were lit say everything.** -/
theorem Lit.unique (h : b.Lit s b') (h' : b.Lit s b'') : b' = b'' := by
  have cells (c : Cell) : b'.get c = b''.get c := by
    by_cases plane : c.region = .brightness
    · obtain ⟨r, i⟩ := c
      cases plane
      obtain ⟨x, y, rfl⟩ := exists_pixelAt i
      by_cases set : s x y
      · rw [h.lit x y set, h'.lit x y set]
      · rw [h.dark x y set, h'.dark x y set]
    · rw [h.rest c plane, h'.rest c plane]
  exact eq_of_agree fun a => cells (Region.locate a)

/-- It does not matter what a set says about pixels off the screen. -/
theorem Lit.congr (h : b.Lit s b') (same : ∀ x y, x < 64 → y < 64 → (s x y ↔ t x y)) :
    b.Lit t b' where
  lit x y set := h.lit x y ((same x y x.isLt y.isLt).mpr set)
  dark x y clear := h.dark x y (mt (same x y x.isLt y.isLt).mp clear)
  rest := h.rest

/-- A set without a pixel on the screen changes nothing. -/
theorem Lit.of_none (b : Bus) (none : ∀ x y, x < 64 → y < 64 → ¬ s x y) : b.Lit s b where
  lit x y set := absurd set (none x y x.isLt y.isLt)
  dark _ _ _ := rfl
  rest _ _ := rfl

/-- **One set behind another**: the pixels of both are lit. -/
theorem Lit.trans (h : b.Lit s b') (h' : b'.Lit t b'') : b.Lit (fun x y => s x y ∨ t x y) b'' where
  lit x y set := by
    by_cases late : t x y
    · exact h'.lit x y late
    · rw [h'.dark x y late]
      exact h.lit x y (set.resolve_right late)
  dark x y clear :=
    (h'.dark x y (mt Or.inr clear)).trans (h.dark x y (mt Or.inl clear))
  rest c plane := (h'.rest c plane).trans (h.rest c plane)

/-- Many sets one behind another. -/
theorem lit_foldl {α : Type} {step : Bus → α → Bus} {pixels : α → Nat → Nat → Prop}
    (each : ∀ (b : Bus) n, b.Lit (pixels n) (step b n)) (b : Bus) (ns : List α) :
    b.Lit (fun x y => ∃ n ∈ ns, pixels n x y) (ns.foldl step b) := by
  induction ns generalizing b with
  | nil => exact Lit.of_none b fun x y _ _ => nofun
  | cons n ns ih =>
    refine ((each b n).trans (ih (step b n))).congr fun x y _ _ => ?_
    simp only [List.mem_cons, exists_eq_or_imp]

/-! ## 2. The pixels of a bitmap -/

/-- One pixel is lit, unless it is off the screen. -/
theorem lit_lightPixel (b : Bus) (x y : Nat) :
    b.Lit (fun x' y' => x' = x ∧ y' = y) (b.lightPixel x y) := by
  by_cases inside : x < 64 ∧ y < 64
  · have here : b.lightPixel x y = b.set ⟨.brightness, pixelAt ⟨x, inside.1⟩ ⟨y, inside.2⟩⟩ 1 :=
      dif_pos inside
    rw [here]
    refine ⟨fun x' y' ⟨left, top⟩ => ?_, fun x' y' other => ?_, fun c plane => ?_⟩
    · subst left top
      exact get_set_self b _ 1
    · refine get_set_of_ne b 1 fun same => other ?_
      have pixel := eq_of_heq (Cell.mk.inj same).2
      obtain ⟨rfl, rfl⟩ := pixelAt_inj.mp pixel
      exact ⟨rfl, rfl⟩
    · exact get_set_of_ne b 1 fun same => plane (congrArg Cell.region same)
  · have outside : b.lightPixel x y = b := dif_neg inside
    rw [outside]
    exact Lit.of_none b fun x' y' left top ⟨hx, hy⟩ => inside ⟨hx ▸ left, hy ▸ top⟩

/-- A row of a bitmap: the pixels of the bits that are set. -/
theorem lit_drawBits (b : Bus) (bits : UInt8) (x y : Nat) :
    b.Lit (fun x' y' => ∃ n < 8, bits.toNat.testBit (7 - n) = true ∧ x' = x + n ∧ y' = y)
      (b.drawBits bits x y) := by
  have each (b : Bus) (n : Nat) :
      b.Lit (fun x' y' => bits.toNat.testBit (7 - n) = true ∧ x' = x + n ∧ y' = y)
        (if bitFromLeft bits n then b.lightPixel (x + n) y else b) := by
    by_cases set : bitFromLeft bits n = true
    · rw [if_pos set]
      exact (lit_lightPixel b (x + n) y).congr fun x' y' _ _ => (and_iff_right set).symm
    · rw [if_neg set]
      exact Lit.of_none b fun x' y' _ _ here => set here.1
  refine (lit_foldl each b (List.range 8)).congr fun x' y' _ _ => ?_
  simp only [List.mem_range]

end Bus

/-- The pixels of a bitmap whose top left one is in a column and a row: those of the bits that are
    set, eight to a byte and the most significant one on the left. -/
def BitmapPixel (rows : List UInt8) (column row x y : Nat) : Prop :=
  ∃ dx dy bits, dx < 8 ∧ rows[dy]? = some bits ∧ bits.toNat.testBit (7 - dx) = true ∧
    x = column + dx ∧ y = row + dy

/-- The first row, or one of the others. -/
theorem bitmapPixel_cons_iff {bits : UInt8} {rows : List UInt8} {column row x y : Nat} :
    BitmapPixel (bits :: rows) column row x y ↔
      (∃ n < 8, bits.toNat.testBit (7 - n) = true ∧ x = column + n ∧ y = row) ∨
        BitmapPixel rows column (row + 1) x y := by
  constructor
  · rintro ⟨dx, dy, bits', inside, found, set, left, top⟩
    cases dy with
    | zero =>
      cases found
      exact .inl ⟨dx, inside, set, left, top⟩
    | succ dy => exact .inr ⟨dx, dy, bits', inside, found, set, left, by omega⟩
  · rintro (⟨dx, inside, set, left, top⟩ | ⟨dx, dy, bits', inside, found, set, left, top⟩)
    · exact ⟨dx, 0, bits, inside, rfl, set, left, top⟩
    · exact ⟨dx, dy + 1, bits', inside, found, set, left, by omega⟩

namespace Bus

theorem lit_drawRows (b : Bus) (rows : List UInt8) (x y : Nat) :
    b.Lit (BitmapPixel rows x y) (b.drawRows x y rows) := by
  induction rows generalizing b y with
  | nil => exact Lit.of_none b fun x' y' _ _ ⟨_, _, _, _, found, _⟩ => nomatch found
  | cons bits rows ih =>
    refine ((lit_drawBits b bits x y).trans (ih (b.drawBits bits x y) (y + 1))).congr ?_
    exact fun x' y' _ _ => bitmapPixel_cons_iff.symm

/-- **A bitmap lights its pixels, as far as they are on the screen.** -/
theorem lit_drawPattern (b : Bus) (pattern : List UInt8) (column row : UInt64) :
    b.Lit (BitmapPixel pattern column.toNat row.toNat) (b.drawPattern pattern column row) :=
  lit_drawRows b pattern column.toNat row.toNat

end Bus

/-! ## 3. Positions in machine words -/

namespace BusImage

/-- The set bits of one byte lit in a row, for the columns of a list, with every position in machine
    words. The first column beyond the edge ends the row. -/
def litColumns? (bits : UInt8) (column y : UInt64) : List Nat → BusImage → Option BusImage
  | [], i => some i
  | dx :: rest, i =>
    (machineWord? (column.toNat + dx)).bind fun x =>
      if 64 ≤ x then some i
      else if bits.toNat.testBit (7 - dx) then
        (machineWord? (y.toNat * 64)).bind fun start =>
          (machineWord? (start.toNat + x.toNat)).bind fun place =>
            (i.light? place.toNat).bind (litColumns? bits column y rest)
      else litColumns? bits column y rest i

/-- A bitmap of which `dy` rows are drawn, with every position in machine words. The first row
    beyond the edge ends the bitmap. -/
def litRows? (column row : UInt64) (dy : Nat) : List UInt8 → BusImage → Option BusImage
  | [], i => some i
  | bits :: rows, i =>
    (machineWord? (row.toNat + dy)).bind fun y =>
      if 64 ≤ y then some i
      else (litColumns? bits column y (List.range 8) i).bind (litRows? column row (dy + 1) rows)

theorem edge_iff {w : UInt64} {n : Nat} (same : w.toNat = n) : 64 ≤ w ↔ 64 ≤ n := by
  rw [UInt64.le_iff_toNat_le, same]
  rfl

/-- **No position of a row is beyond the machine words.** The column at hand is the first one, or
    stands behind one on the screen, so that it is on the screen or just beyond the edge. -/
theorem litColumns?_eq (bits : UInt8) {column y : UInt64} (onScreen : y.toNat < 64) {k : Nat}
    (reached : k = 0 ∨ column.toNat + k ≤ 64) (m : Nat) (i : BusImage) :
    litColumns? bits column y (List.range' k m) i =
      drawBits? bits column.toNat y.toNat (List.range' k m) i := by
  induction m generalizing k i with
  | zero => rfl
  | succ m ih =>
    have small : column.toNat + k < 0x10000000000000000 := by
      have := column.toNat_lt
      omega
    obtain ⟨x, sum, left⟩ := machineWord?_eq_some small
    rw [List.range'_succ, litColumns?, drawBits?, sum, Option.bind_some]
    by_cases beyond : 64 ≤ column.toNat + k
    · rw [if_pos beyond, if_pos ((edge_iff left).mpr beyond)]
    · have next (j : BusImage) := ih (k := k + 1) (.inr (by omega)) j
      rw [if_neg beyond, if_neg (mt (edge_iff left).mp beyond)]
      by_cases set : bits.toNat.testBit (7 - k) = true
      · obtain ⟨start, product, top⟩ := machineWord?_eq_some (n := y.toNat * 64) (by omega)
        obtain ⟨place, total, here⟩ := machineWord?_eq_some (n := start.toNat + x.toNat) (by omega)
        have same : place.toNat = 64 * y.toNat + (column.toNat + k) := by omega
        rw [if_pos set, product, Option.bind_some, total, Option.bind_some, same,
          show Bus.bitFromLeft bits k = true from set, if_pos rfl, funext next]
      · rw [if_neg set, show Bus.bitFromLeft bits k = false from Bool.not_eq_true _ ▸ set,
          if_neg Bool.false_ne_true, next]

/-- **Nor is one of its rows**, since the bitmap ends with the first one below the screen. -/
theorem litRows?_eq {column row : UInt64} {dy : Nat} (reached : dy = 0 ∨ row.toNat + dy ≤ 64)
    (rows : List UInt8) (i : BusImage) :
    litRows? column row dy rows i = drawRows? column.toNat (row.toNat + dy) rows i := by
  induction rows generalizing dy i with
  | nil => rfl
  | cons bits rows ih =>
    have small : row.toNat + dy < 0x10000000000000000 := by
      have := row.toNat_lt
      omega
    obtain ⟨y, sum, top⟩ := machineWord?_eq_some small
    rw [litRows?, drawRows?, sum, Option.bind_some]
    by_cases beyond : 64 ≤ row.toNat + dy
    · rw [if_pos beyond, if_pos ((edge_iff top).mpr beyond)]
    · have next (j : BusImage) : litRows? column row (dy + 1) rows j =
          drawRows? column.toNat (row.toNat + (dy + 1)) rows j := ih (.inr (by omega)) j
      have columns : litColumns? bits column y (List.range' 0 8) i =
          drawBits? bits column.toNat y.toNat (List.range' 0 8) i :=
        litColumns?_eq bits (by omega) (.inl rfl) 8 i
      rw [if_neg beyond, if_neg (mt (edge_iff top).mp beyond), List.range_eq_range', columns, top,
        funext next]
      rfl

/-- **A bitmap drawn in machine words is drawn**, wherever it is. -/
theorem litRows?_ofBus (b : Bus) (pattern : List UInt8) (column row : UInt64) :
    litRows? column row 0 pattern (ofBus b) = some (ofBus (b.drawPattern pattern column row)) :=
  (litRows?_eq (.inl rfl) pattern (ofBus b)).trans (drawPattern?_ofBus b pattern column row)

end BusImage

/-! ## 4. Many bitmaps -/

/-- A bitmap with its position. -/
structure Drawing where
  pattern : List UInt8
  column : UInt64
  row : UInt64

namespace Bus

/-- Bitmaps drawn one after another. -/
def drawAll (b : Bus) (ds : List Drawing) : Bus :=
  ds.foldl (fun b d => b.drawPattern d.pattern d.column d.row) b

theorem lit_drawAll (b : Bus) (ds : List Drawing) :
    b.Lit (fun x y => ∃ d ∈ ds, BitmapPixel d.pattern d.column.toNat d.row.toNat x y)
      (b.drawAll ds) :=
  lit_foldl (fun b d => lit_drawPattern b d.pattern d.column d.row) b ds

/-- **Neither their order counts nor how often one of them is drawn.** -/
theorem drawAll_congr (b : Bus) {ds ds' : List Drawing} (same : ∀ d, d ∈ ds ↔ d ∈ ds') :
    b.drawAll ds = b.drawAll ds' := by
  refine (lit_drawAll b ds).unique ((lit_drawAll b ds').congr fun x y _ _ => ?_)
  simp only [same]

/-- **Bitmaps are clipped exactly at the edges of the screen.** Wherever one is drawn, in the whole
    range of machine words, its pixels on the screen are lit and no other byte of the banks is
    changed. Positions computed in machine words never overflow, and no index is out of range.
    Many bitmaps give the same in any order, and however often each of them is drawn. -/
theorem bitmap_clipped (b : Bus) (pattern : List UInt8) (column row : UInt64) :
    b.Lit (BitmapPixel pattern column.toNat row.toNat) (b.drawPattern pattern column row) ∧
    BusImage.litRows? column row 0 pattern (.ofBus b) =
      some (.ofBus (b.drawPattern pattern column row)) ∧
    ∀ ds ds' : List Drawing, (∀ d, d ∈ ds ↔ d ∈ ds') → b.drawAll ds = b.drawAll ds' :=
  ⟨lit_drawPattern b pattern column row, BusImage.litRows?_ofBus b pattern column row,
    fun _ _ same => drawAll_congr b same⟩

/-- A bitmap in the lower right corner: what would be to the right of the screen is not lit at the
    left of the next row, and what would be below it not in the other plane. -/
theorem bitmap_clipped_corner :
    (blank.drawPattern [0xFF, 0xFF] 60 62).read 0xEFBF = 1 ∧
    (blank.drawPattern [0xFF, 0xFF] 60 62).read 0xEFC0 = 0 ∧
    (blank.drawPattern [0xFF, 0xFF] 60 62).read 0xF000 = 0 ∧
    blank.drawAll [⟨[0xFF, 0xFF], 60, 62⟩, ⟨[0x80], 0, 0⟩, ⟨[0xFF, 0xFF], 60, 62⟩] =
      blank.drawAll [⟨[0x80], 0, 0⟩, ⟨[0xFF, 0xFF], 60, 62⟩] := by
  obtain ⟨lit, -, order⟩ := bitmap_clipped blank [0xFF, 0xFF] 60 62
  refine ⟨lit.lit 63 62 ⟨3, 0, 0xFF, by decide, rfl, by decide, rfl, rfl⟩, ?_, ?_, order _ _ ?_⟩
  · refine (lit.dark 0 63 ?_).trans (by decide +kernel)
    rintro ⟨dx, dy, bits, -, -, -, left, -⟩
    have right : (60 : UInt64).toNat = 60 := rfl
    have zero : (0 : Fin 64).val = 0 := rfl
    omega
  · exact (lit.rest ⟨.color, ⟨0, by decide⟩⟩ (by decide)).trans (by decide +kernel)
  · intro d
    simp only [List.mem_cons, List.not_mem_nil, or_false]
    grind

end Bus
end Retro24
