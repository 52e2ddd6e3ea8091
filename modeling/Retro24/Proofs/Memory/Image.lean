/-
  File:      Retro24/Proofs/Memory/Image.lean
  Subject:   The bytes of an address space in one list, and the regions that make it up.

  * `Memory.span`, `Memory.image`: the bytes at consecutive addresses, and at all of them. Images are
    equal exactly when the address spaces agree (`image_eq_iff`).
  * `FlatMemory.image_eq`: the image of flat memory is its array; `FlatMemory.copy`: flat memory with
    a given image.
  * `Bus.regions`: the four regions one behind the other; they are the image (`regions_eq_image`).
  * `Bus.wide_access`: an access through a wide address.
-/
import Retro24.Bus

namespace Retro24

/-! ## 1. Images -/

namespace Memory

variable {M N : Type} [Memory M] [Memory N]

/-- The bytes at consecutive addresses. -/
def span (m : M) (start length : Nat) : List UInt8 :=
  (List.range' start length).map fun a => read m (UInt16.ofNat a)

/-- All bytes in the order of their addresses. -/
def image (m : M) : List UInt8 := span m 0 65536

@[simp] theorem length_span (m : M) (start length : Nat) : (span m start length).length = length := by
  simp [span]

theorem getElem_span (m : M) {start length i : Nat} (h : i < (span m start length).length) :
    (span m start length)[i] = read m (UInt16.ofNat (start + i)) := by
  simp [span]

@[simp] theorem length_image (m : M) : (image m).length = 65536 := length_span m 0 65536

theorem getElem_image (m : M) {i : Nat} (h : i < (image m).length) :
    (image m)[i] = read m (UInt16.ofNat i) := by
  have byte : (image m)[i] = read m (UInt16.ofNat (0 + i)) := getElem_span m h
  rwa [Nat.zero_add] at byte

theorem span_append (m : M) (start j k : Nat) :
    span m start j ++ span m (start + j) k = span m start (j + k) := by
  unfold span
  rw [← List.map_append, List.range'_append_1]

/-- **Images are equal exactly when the bytes at every address are.** -/
theorem image_eq_iff {m : M} {n : N} : image m = image n ↔ Agree m n := by
  constructor
  · intro h a
    have inside : a.toNat < (image m).length := by
      rw [length_image]
      exact a.toNat_lt
    have byte := List.getElem_of_eq h inside
    rwa [getElem_image, getElem_image, UInt16.ofNat_toNat] at byte
  · intro h
    exact List.map_congr_left fun a _ => h (UInt16.ofNat a)

end Memory

/-- The image of flat memory is its array. -/
theorem FlatMemory.image_eq (m : FlatMemory) : Memory.image m = m.bytes.toList := by
  refine List.ext_getElem ?_ fun i h h' => ?_
  · rw [Memory.length_image, Vector.length_toList]
  · have place : (UInt16.ofNat i).toNat = i := by
      rw [Memory.length_image] at h
      exact UInt16.toNat_ofNat_of_lt' h
    rw [Memory.getElem_image, Vector.getElem_toList]
    exact congrArg m.bytes.get (Fin.ext place)

/-- Flat memory with the bytes of any address space. -/
def FlatMemory.copy {M : Type} [Memory M] (m : M) : FlatMemory :=
  ⟨Vector.ofFn fun a => Memory.read m (UInt16.ofNat a.val)⟩

theorem FlatMemory.agree_copy {M : Type} [Memory M] (m : M) : Memory.Agree m (copy m) := by
  intro a
  have byte : Memory.read (copy m) a = Memory.read m (UInt16.ofNat a.toNat) :=
    Vector.getElem_ofFn a.toNat_lt
  rw [byte, UInt16.ofNat_toNat]

/-! ## 2. The regions -/

namespace Bus

/-- The regions one behind the other. -/
def regions (b : Bus) : List UInt8 := Region.all.flatMap fun r => (b.region r).toList

/-- A region holds the bytes from its first address on. -/
theorem toList_region (b : Bus) (r : Region) :
    (b.region r).toList = Memory.span b r.start.toNat r.size := by
  refine List.ext_getElem ?_ fun i h _ => ?_
  · rw [Memory.length_span, Vector.length_toList]
  · have inside : i < r.size := by
      rw [Vector.length_toList] at h
      exact h
    have place : UInt16.ofNat (r.start.toNat + i) = Cell.address ⟨r, ⟨i, inside⟩⟩ := by
      rw [← UInt16.toNat_inj, ← UInt16.ofNat_toNat (x := Cell.address _), Cell.toNat_address]
    rw [Memory.getElem_span, Vector.getElem_toList, getElem_region, place]
    show _ = b.get (Region.locate _)
    rw [Region.locate_address]

/-- **The regions, one behind the other, are all bytes in the order of their addresses.** -/
theorem regions_eq_image (b : Bus) : b.regions = Memory.image b := by
  have io_ram := Memory.span_append b 0 256 57088
  have up_to_brightness := Memory.span_append b 0 57344 4096
  have up_to_color := Memory.span_append b 0 61440 4096
  simp only [regions, Region.all, List.flatMap_cons, List.flatMap_nil, toList_region,
    List.append_nil]
  show Memory.span b 0 256 ++ (Memory.span b 256 57088 ++
    (Memory.span b 57344 4096 ++ Memory.span b 61440 4096)) = Memory.span b 0 65536
  rw [← List.append_assoc, io_ram, ← List.append_assoc, up_to_brightness, up_to_color]

/-! ## 3. Wide addresses -/

theorem wide_iff {a : UInt64} : a < 65536 ↔ a.toNat ≤ 0xFFFF := by
  rw [UInt64.lt_iff_toNat_lt]
  show a.toNat < 65536 ↔ _
  omega

/-- **An access through a wide address is the access to that address, and beyond the last one it is
    refused and changes nothing.** -/
theorem wide_access (b : Bus) (a : UInt64) (v : UInt8) :
    (a.toNat ≤ 0xFFFF →
      b.readWide a = .ok (b.read (UInt16.ofNat a.toNat)) ∧
      b.settle (b.writeWide a v) = (.ok (), b.write (UInt16.ofNat a.toNat) v)) ∧
    (0xFFFF < a.toNat →
      b.readWide a = .error ⟨a.toNat⟩ ∧ b.settle (b.writeWide a v) = (.error ⟨a.toNat⟩, b)) := by
  refine ⟨fun h => ?_, fun h => ?_⟩
  · have inside := wide_iff.mpr h
    rw [readWide, writeWide, if_pos inside, if_pos inside]
    exact ⟨rfl, rfl⟩
  · have outside := mt wide_iff.mp (Nat.not_le.mpr h)
    rw [readWide, writeWide, if_neg outside, if_neg outside]
    exact ⟨rfl, rfl⟩

end Bus

end Retro24
