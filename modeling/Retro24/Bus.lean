/-
  File:      Retro24/Bus.lean
  Subject:   The banked address space: an IO page, RAM and the two video planes.

  * `Bus`: three banks; the color plane stands behind the brightness plane in the video bank.
  * `Bus.get`, `Bus.set`: the byte of a cell; `Bus.read`, `Bus.write` route an address to its cell,
    and this is a lawful memory.
  * `Bus.region`: the bytes of one region.
  * `Bus.readWide`, `Bus.writeWide`: access through a wide address, refused beyond $FFFF.
  * `Bus.load`: bytes for consecutive addresses, all of them or none; `Bus.settle`: the banks behind
    a change that may be refused; `ensureSpan?`: the check of a span in machine words.
  * `Bus.wipe…`: the default fill of a region; `Bus.wantsRedraw`: the draw flag.
  * `Bus.drawPattern`: a bitmap drawn into the brightness plane and clipped at the screen's edges.
  * `BusImage`: three byte arrays of any size, as data files hold them; `BusImage.toBus?` accepts
    the sizes of the address map.
-/
import Retro24.Hex
import Retro24.Memory
import Retro24.Region

namespace Retro24

/-- The three banks of memory. -/
structure Bus where
  io : Vector UInt8 256
  ram : Vector UInt8 57088
  /-- The brightness plane, then the color plane. -/
  video : Vector UInt8 8192
  deriving DecidableEq

/-- An access outside the address space. -/
structure AddressError where
  address : Nat
  deriving DecidableEq

/-- The text of a refused access; the address is written without leading zeros. -/
def AddressError.message (e : AddressError) : String :=
  "invalid address $" ++ Hex.padded 1 e.address

namespace Bus

/-! ## 1. Cells and addresses -/

/-- Every bank at its default fill: RAM holds $FF, the others zero. -/
def blank : Bus :=
  ⟨Vector.replicate 256 0, Vector.replicate 57088 0xFF, Vector.replicate 8192 0⟩

instance : Inhabited Bus := ⟨blank⟩

/-- Where a cell of the color plane stands in the video bank. -/
theorem colorOffset_lt (i : Fin Region.color.size) : 4096 + i.val < 8192 := by
  have h : i.val < 4096 := i.isLt
  omega

/-- The byte of a cell. -/
@[inline] def get (b : Bus) : Cell → UInt8
  | ⟨.io, i⟩ => b.io[i.val]
  | ⟨.ram, i⟩ => b.ram[i.val]
  | ⟨.brightness, i⟩ => b.video[i.val]
  | ⟨.color, i⟩ => b.video.get ⟨4096 + i.val, colorOffset_lt i⟩

/-- The banks with the byte of one cell replaced. -/
@[inline] def set (b : Bus) (c : Cell) (v : UInt8) : Bus :=
  match c with
  | ⟨.io, i⟩ => { b with io := b.io.set i.val v }
  | ⟨.ram, i⟩ => { b with ram := b.ram.set i.val v }
  | ⟨.brightness, i⟩ => { b with video := b.video.set i.val v }
  | ⟨.color, i⟩ => { b with video := b.video.set (4096 + i.val) v (colorOffset_lt i) }

@[simp] theorem get_set_self (b : Bus) (c : Cell) (v : UInt8) : (b.set c v).get c = v := by
  obtain ⟨r, i⟩ := c
  cases r <;> exact Vector.getElem_set_self _

theorem get_set_of_ne (b : Bus) {c d : Cell} (v : UInt8) (h : d ≠ c) :
    (b.set c v).get d = b.get d := by
  obtain ⟨r, i⟩ := c
  obtain ⟨s, j⟩ := d
  have ne : r = s → i.val ≠ j.val := by
    rintro rfl e
    exact h (by rw [Fin.eq_of_val_eq e])
  have hi := i.isLt
  have hj := j.isLt
  cases r <;> cases s <;> simp only [get, set] <;> simp only [Region.size] at hi hj <;>
    simp only [reduceCtorEq, false_implies, true_implies] at ne <;>
    refine Vector.getElem_set_ne _ _ ?_ <;> omega

/-- The byte at an address. -/
@[inline] def read (b : Bus) (a : UInt16) : UInt8 := b.get (Region.locate a)

/-- The banks with the byte at one address replaced. -/
@[inline] def write (b : Bus) (a : UInt16) (v : UInt8) : Bus := b.set (Region.locate a) v

instance : Memory Bus := ⟨read, write⟩

instance : LawfulMemory Bus where
  read_write_self b a v := get_set_self b (Region.locate a) v
  read_write_of_ne b {a a'} v h := by
    refine get_set_of_ne b v fun e => h ?_
    have := congrArg Cell.address e
    simpa using this

/-- The bytes of a region, in the order of their addresses. -/
def region (b : Bus) (r : Region) : Vector UInt8 r.size := Vector.ofFn fun i => b.get ⟨r, i⟩

@[simp] theorem getElem_region (b : Bus) (r : Region) (i : Nat) (h : i < r.size) :
    (b.region r)[i] = b.get ⟨r, ⟨i, h⟩⟩ := by
  simp [region]

/-! ## 2. Wide addresses and spans -/

/-- The byte at a wide address. -/
def readWide (b : Bus) (a : UInt64) : Except AddressError UInt8 :=
  if a < 65536 then .ok (b.read a.toUInt16) else .error ⟨a.toNat⟩

/-- The banks with the byte at a wide address replaced. -/
def writeWide (b : Bus) (a : UInt64) (v : UInt8) : Except AddressError Bus :=
  if a < 65536 then .ok (b.write a.toUInt16 v) else .error ⟨a.toNat⟩

/-- Bytes copied to consecutive addresses from `start` on. A list that would run past the last
    address is refused with the address of its last byte, and nothing is copied. -/
def load (b : Bus) (start : UInt16) (data : List UInt8) : Except AddressError Bus :=
  if start.toNat + data.length ≤ 65536 then .ok (Memory.store b start data)
  else .error ⟨start.toNat + data.length - 1⟩

/-- What came of a change, and the banks as it leaves them. A refusal leaves them as they were. -/
def settle (b : Bus) : Except AddressError Bus → Except AddressError Unit × Bus
  | .ok changed => (.ok (), changed)
  | .error e => (.error e, b)

/-! ## 3. Fills and the draw flag -/

/-- Both video planes zero. -/
def wipeVideo (b : Bus) : Bus := { b with video := Vector.replicate 8192 0 }

/-- RAM at the value of memory that holds no program. -/
def wipeRam (b : Bus) : Bus := { b with ram := Vector.replicate 57088 0xFF }

/-- The IO page zero. -/
def wipeIo (b : Bus) : Bus := { b with io := Vector.replicate 256 0 }

/-- Every bank at its default fill. -/
def wipe (b : Bus) : Bus := b.wipeVideo.wipeRam.wipeIo

@[simp] theorem wipe_eq (b : Bus) : b.wipe = blank := rfl

/-- The byte by which a program asks for the screen to be redrawn. -/
def drawFlagAddress : UInt16 := 0x000A

/-- Whether a program has asked for a redraw. -/
def wantsRedraw (b : Bus) : Bool := b.read drawFlagAddress != 0

/-- The draw flag taken back. -/
def withdrawRedraw (b : Bus) : Bus := b.write drawFlagAddress 0

/-! ## 4. Drawing -/

/-- The brightness byte of the pixel in column `x` and row `y` set; a pixel off the screen is
    dropped. -/
def lightPixel (b : Bus) (x y : Nat) : Bus :=
  if h : x < 64 ∧ y < 64 then { b with video := b.video.set (64 * y + x) 1 (by omega) } else b

/-- Whether bit `n` of a byte, counted from the most significant one, is set. -/
def bitFromLeft (bits : UInt8) (n : Nat) : Bool := bits.toNat.testBit (7 - n)

/-- The set bits of one byte lit in row `y`, the most significant bit in column `x`. -/
def drawBits (b : Bus) (bits : UInt8) (x y : Nat) : Bus :=
  (List.range 8).foldl (fun b n => if bitFromLeft bits n then b.lightPixel (x + n) y else b) b

/-- A bitmap of eight columns drawn with its top left pixel in column `x` and row `y`, a byte a
    row. Set bits light their pixels, and clear bits leave theirs as they are. -/
def drawRows (b : Bus) (x y : Nat) : List UInt8 → Bus
  | [] => b
  | bits :: rows => drawRows (b.drawBits bits x y) x (y + 1) rows

/-- A bitmap drawn at a position that is given in machine words. -/
def drawPattern (b : Bus) (pattern : List UInt8) (column row : UInt64) : Bus :=
  b.drawRows column.toNat row.toNat pattern

end Bus

/-- Whether `length` bytes from `start` on stay inside the address space; the address in a refusal
    is that of the last byte. The end of the span is counted in a machine word, and there is no
    answer if the word overflows. -/
def ensureSpan? (start : UInt16) (length : UInt64) : Option (Except AddressError Unit) :=
  (machineWord? (start.toNat + length.toNat)).bind fun stop =>
    if 65536 < stop then (difference? stop 1).map fun last => .error ⟨last.toNat⟩
    else some (.ok ())

/-! ## 5. Banks from data files -/

/-- Three byte arrays, of whatever size a data file gives them. -/
structure BusImage where
  io : Array UInt8
  ram : Array UInt8
  video : Array UInt8

namespace BusImage

/-- Whether every array has the size of its bank. -/
def wellFormed (i : BusImage) : Bool :=
  i.io.size == 256 && i.ram.size == 57088 && i.video.size == 8192

/-- The banks of a well-formed image. -/
def toBus? (i : BusImage) : Option Bus :=
  if h : i.io.size = 256 ∧ i.ram.size = 57088 ∧ i.video.size = 8192 then
    some ⟨⟨i.io, h.1⟩, ⟨i.ram, h.2.1⟩, ⟨i.video, h.2.2⟩⟩
  else none

/-- The image of a bank. -/
def ofBus (b : Bus) : BusImage := ⟨b.io.toArray, b.ram.toArray, b.video.toArray⟩

@[simp] theorem toBus?_ofBus (b : Bus) : (ofBus b).toBus? = some b := by
  simp [toBus?, ofBus]

end BusImage

end Retro24
