/-
  File:      Retro24/Region.lean
  Subject:   The four regions of the address space and the routing of addresses.

  * `Region`: the IO page, RAM, and the brightness and color planes of the video memory, with
    `Region.start` and `Region.size`.
  * `Cell`: a place inside a region; `Region.locate` routes an address to its cell and
    `Cell.address` goes back (`address_locate`, `locate_address`).
  * `Region.ofName?`: the region under a name typed by a person.
-/
import Retro24.Name

namespace Retro24

/-- A region of the address space. -/
inductive Region where
  /-- The IO page: watchdogs, draw flag, keyboard. -/
  | io
  /-- Program memory. -/
  | ram
  /-- The video plane of brightness, one byte a pixel. -/
  | brightness
  /-- The video plane of color, one byte a pixel. -/
  | color
  deriving DecidableEq

namespace Region

/-- The regions in the order of their addresses. -/
def all : List Region := [io, ram, brightness, color]

/-- The first address of a region. -/
def start : Region → UInt16
  | io => 0x0000
  | ram => 0x0100
  | brightness => 0xE000
  | color => 0xF000

/-- The number of bytes in a region. -/
@[reducible] def size : Region → Nat
  | io => 256
  | ram => 57088
  | brightness => 4096
  | color => 4096

/-- The name of a region in data files. -/
def name : Region → String
  | io => "Io"
  | ram => "Ram"
  | brightness => "Brightness"
  | color => "Color"

/-- The names that people may type for a region. -/
def names : List (String × Region) :=
  [("io", io), ("ram", ram), ("program", ram), ("brightness", brightness), ("bright", brightness),
   ("color", color), ("colour", color)]

/-- The region under a name, in any case. -/
def ofName? (name : String) : Option Region := Name.lookup? names name

end Region

/-- A place inside a region. -/
structure Cell where
  region : Region
  offset : Fin region.size

namespace Region

/-- The cell of an address. -/
@[inline] def locate (a : UInt16) : Cell :=
  if h : a.toNat < 0x0100 then ⟨io, ⟨a.toNat, h⟩⟩
  else if h : a.toNat < 0xE000 then ⟨ram, ⟨a.toNat - 0x0100, by show _ < 57088; omega⟩⟩
  else if h : a.toNat < 0xF000 then ⟨brightness, ⟨a.toNat - 0xE000, by show _ < 4096; omega⟩⟩
  else ⟨color, ⟨a.toNat - 0xF000, by have := a.toNat_lt; show _ < 4096; omega⟩⟩

end Region

namespace Cell

/-- The address of a cell. -/
def address (c : Cell) : UInt16 := c.region.start + UInt16.ofNat c.offset.val

theorem toNat_address (c : Cell) :
    c.address.toNat = c.region.start.toNat + c.offset.val := by
  obtain ⟨r, i, h⟩ := c
  cases r <;> simp only [address, Region.start, UInt16.toNat_add, UInt16.toNat_ofNat',
    UInt16.reduceToNat] <;> simp only [Region.size] at h <;> omega

end Cell

namespace Region

variable {a : UInt16}

theorem locate_io (h : a.toNat < 0x0100) : locate a = ⟨io, ⟨a.toNat, h⟩⟩ := dif_pos h

theorem locate_ram (h : 0x0100 ≤ a.toNat) (h' : a.toNat < 0xE000) :
    locate a = ⟨ram, ⟨a.toNat - 0x0100, by show _ < 57088; omega⟩⟩ := by
  unfold locate
  rw [dif_neg (by omega), dif_pos h']

theorem locate_brightness (h : 0xE000 ≤ a.toNat) (h' : a.toNat < 0xF000) :
    locate a = ⟨brightness, ⟨a.toNat - 0xE000, by show _ < 4096; omega⟩⟩ := by
  unfold locate
  rw [dif_neg (by omega), dif_neg (by omega), dif_pos h']

theorem locate_color (h : 0xF000 ≤ a.toNat) :
    locate a = ⟨color, ⟨a.toNat - 0xF000, by have := a.toNat_lt; show _ < 4096; omega⟩⟩ := by
  unfold locate
  rw [dif_neg (by omega), dif_neg (by omega), dif_neg (by omega)]

/-- The address of an address's cell is that address. -/
@[simp] theorem address_locate (a : UInt16) : (locate a).address = a := by
  apply UInt16.toNat.inj
  rw [Cell.toNat_address]
  by_cases h₁ : a.toNat < 0x0100
  · rw [locate_io h₁]; simp [start]
  by_cases h₂ : a.toNat < 0xE000
  · rw [locate_ram (by omega) h₂]; simp only [start, UInt16.reduceToNat]; omega
  by_cases h₃ : a.toNat < 0xF000
  · rw [locate_brightness (by omega) h₃]; simp only [start, UInt16.reduceToNat]; omega
  · rw [locate_color (by omega)]; simp only [start, UInt16.reduceToNat]; omega

/-- The cell of a cell's address is that cell. -/
@[simp] theorem locate_address (c : Cell) : locate c.address = c := by
  have h := Cell.toNat_address c
  obtain ⟨r, i, hi⟩ := c
  generalize Cell.address ⟨r, i, hi⟩ = a at h ⊢
  cases r <;> simp only [start, UInt16.reduceToNat] at h <;> simp only [size] at hi
  · rw [locate_io (by omega)]; simp only [h, Nat.zero_add]
  · rw [locate_ram (by omega) (by omega)]; simp only [h, Nat.add_sub_cancel_left]
  · rw [locate_brightness (by omega) (by omega)]; simp only [h, Nat.add_sub_cancel_left]
  · rw [locate_color (by omega)]; simp only [h, Nat.add_sub_cancel_left]

end Region

end Retro24
