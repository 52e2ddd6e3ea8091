/-
  File:      Retro24/Proofs/Memory/Spans.lean
  Subject:   Bytes at consecutive addresses, and the fills of the banks, address by address.

  * `Memory.read_store_outside`, `Memory.read_store_inside`: what stands where behind bytes that
    were stored, if they do not run past the last address.
  * `Bus.writeAll`: the bytes written one by one through wide addresses. `writeAll_eq`: within the
    address space none of them is refused.
  * `Bus.read_wiped_io`, `Bus.read_wiped_ram`, `Bus.read_wiped_video`: where RAM and video are
    filled and where not.
  * `Bus.eq_of_agree`: banks with the same byte at every address are the same.
-/
import Retro24.Proofs.Memory.Image

namespace Retro24

/-! ## 1. Bytes that are stored -/

/-- The next address, unless it is the first one again. -/
theorem toNat_next_address {a : UInt16} (inside : a.toNat + 1 < 65536) :
    (a + 1).toNat = a.toNat + 1 := by
  rw [UInt16.toNat_add]
  exact Nat.mod_eq_of_lt inside

namespace Memory

variable {M : Type} [Memory M] [LawfulMemory M] {bytes : List UInt8} {a b : UInt16} {i : Nat}

/-- **Bytes that are stored leave those outside of their span as they were.** -/
theorem read_store_outside (m : M) (fits : a.toNat + bytes.length ≤ 65536)
    (outside : b.toNat < a.toNat ∨ a.toNat + bytes.length ≤ b.toNat) :
    read (store m a bytes) b = read m b := by
  induction bytes generalizing m a with
  | nil => rfl
  | cons v vs ih =>
    rw [List.length_cons] at fits outside
    have other : b ≠ a := by
      intro same
      subst same
      omega
    rw [store_cons]
    by_cases last : vs = []
    -- there is no next address behind the last one of all
    · subst last
      exact LawfulMemory.read_write_of_ne m v other
    · have some := List.length_pos_iff.mpr last
      have next := toNat_next_address (a := a) (by omega)
      rw [ih (write m a v) (by omega) (by omega)]
      exact LawfulMemory.read_write_of_ne m v other

/-- **Bytes that are stored stand one behind the other.** -/
theorem read_store_inside (m : M) (fits : a.toNat + bytes.length ≤ 65536)
    (inside : i < bytes.length) :
    read (store m a bytes) (UInt16.ofNat (a.toNat + i)) = bytes[i] := by
  induction bytes generalizing m a i with
  | nil => exact absurd inside (Nat.not_lt_zero i)
  | cons v vs ih =>
    rw [List.length_cons] at fits inside
    rw [store_cons]
    cases i with
    | zero =>
      rw [Nat.add_zero, UInt16.ofNat_toNat]
      by_cases last : vs = []
      · subst last
        exact LawfulMemory.read_write_self m a v
      · have some := List.length_pos_iff.mpr last
        have next := toNat_next_address (a := a) (by omega)
        rw [read_store_outside (write m a v) (by omega) (by omega)]
        exact LawfulMemory.read_write_self m a v
    | succ i =>
      have next := toNat_next_address (a := a) (by omega)
      have place : a.toNat + (i + 1) = (a + 1).toNat + i := by omega
      rw [place]
      exact ih (write m a v) (by omega) (by omega)

end Memory

namespace Bus

/-- Bytes written one by one through wide addresses, until one of them is refused. -/
def writeAll (b : Bus) (a : UInt64) : List UInt8 → Except AddressError Bus
  | [] => .ok b
  | v :: vs =>
    match b.writeWide a v with
    | .error e => .error e
    | .ok b => b.writeAll (a + 1) vs

/-- **Within the address space none of them is refused**, and they are stored. -/
theorem writeAll_eq (b : Bus) {a : UInt16} {bytes : List UInt8}
    (fits : a.toNat + bytes.length ≤ 65536) :
    b.writeAll a.toUInt64 bytes = .ok (Memory.store b a bytes) := by
  induction bytes generalizing b a with
  | nil => rfl
  | cons v vs ih =>
    rw [List.length_cons] at fits
    have inside : a.toUInt64 < 65536 := by
      rw [UInt64.lt_iff_toNat_lt, UInt16.toNat_toUInt64]
      exact a.toNat_lt
    have first : b.writeWide a.toUInt64 v = .ok (b.write a v) := by
      rw [writeWide, if_pos inside, UInt16.toUInt16_toUInt64]
    simp only [writeAll, first, Memory.store_cons]
    by_cases last : vs = []
    · subst last
      rfl
    · have some := List.length_pos_iff.mpr last
      have next := toNat_next_address (a := a) (by omega)
      have wide : a.toUInt64 + 1 = (a + 1).toUInt64 := by
        rw [← UInt64.toNat_inj, UInt16.toNat_toUInt64, next, UInt64.toNat_add,
          UInt16.toNat_toUInt64, UInt64.toNat_one]
        exact Nat.mod_eq_of_lt (by omega)
      rw [wide]
      exact ih (b.write a v) (by omega)

/-! ## 2. Fills -/

variable {a : UInt16}

/-- The fills of RAM and video leave the IO page as it was. -/
theorem read_wiped_io (b : Bus) (io : a.toNat < 0x0100) :
    b.wipeRam.wipeVideo.read a = b.read a := by
  rw [read, read, Region.locate_io io]
  rfl

theorem read_wiped_ram (b : Bus) (above : 0x0100 ≤ a.toNat) (below : a.toNat < 0xE000) :
    b.wipeRam.wipeVideo.read a = 0xFF := by
  rw [read, Region.locate_ram above below]
  exact Vector.getElem_replicate _

theorem read_wiped_video (b : Bus) (above : 0xE000 ≤ a.toNat) :
    b.wipeRam.wipeVideo.read a = 0 := by
  by_cases below : a.toNat < 0xF000
  · rw [read, Region.locate_brightness above below]
    exact Vector.getElem_replicate _
  · rw [read, Region.locate_color (Nat.not_lt.mp below)]
    exact Vector.getElem_replicate _

/-! ## 3. Every address -/

/-- **Banks with the same byte at every address are the same.** -/
theorem eq_of_agree {b b' : Bus} (agree : Memory.Agree b b') : b = b' := by
  have cells : ∀ c : Cell, b.get c = b'.get c := by
    intro c
    have byte : b.get (Region.locate c.address) = b'.get (Region.locate c.address) :=
      agree c.address
    rwa [Region.locate_address] at byte
  rcases b with ⟨io, ram, video⟩
  rcases b' with ⟨io', ram', video'⟩
  have first : io = io' := Vector.ext fun i h => cells ⟨.io, ⟨i, h⟩⟩
  have second : ram = ram' := Vector.ext fun i h => cells ⟨.ram, ⟨i, h⟩⟩
  have third : video = video' := by
    refine Vector.ext fun i h => ?_
    by_cases low : i < 4096
    · exact cells ⟨.brightness, ⟨i, low⟩⟩
    · have color := cells ⟨.color, ⟨i - 4096, by show _ < 4096; omega⟩⟩
      have place : 4096 + (i - 4096) = i := by omega
      simp only [get, Vector.get, place] at color
      exact color
  subst first second third
  rfl

end Bus
end Retro24
