/-
  File:      Retro24/Memory.lean
  Subject:   A 64 KB address space of bytes, and the flat one.

  * `Memory`: reading and writing one byte at any of the 65536 addresses.
  * `LawfulMemory`: what is written is read back, and nothing else changes.
  * `Memory.readWord`, `Memory.writeWord`: two neighbouring bytes, the low one first; the address
    after $FFFF is $0000.
  * `Memory.store`: bytes written to consecutive addresses.
  * `Memory.Agree`: two address spaces with the same bytes.
  * `FlatMemory`: one array of 65536 bytes, which is lawful.
-/
import Retro24.Word

namespace Retro24

/-! ## 1. Address spaces -/

/-- An address space: a byte at every sixteen-bit address. -/
class Memory (M : Type) where
  /-- The byte at an address. -/
  read : M → UInt16 → UInt8
  /-- The address space with one byte replaced. -/
  write : M → UInt16 → UInt8 → M

/-- An address space in which a write changes the byte at its address and no other. -/
class LawfulMemory (M : Type) [Memory M] : Prop where
  read_write_self : ∀ (m : M) (a : UInt16) (v : UInt8), Memory.read (Memory.write m a v) a = v
  read_write_of_ne : ∀ (m : M) {a b : UInt16} (v : UInt8), b ≠ a →
    Memory.read (Memory.write m a v) b = Memory.read m b

namespace Memory

variable {M : Type} [Memory M]

/-- Two address spaces agree when they hold the same byte at every address. -/
def Agree {N : Type} [Memory N] (m : M) (n : N) : Prop := ∀ a, read m a = read n a

theorem read_write [LawfulMemory M] (m : M) (a b : UInt16) (v : UInt8) :
    read (write m a v) b = if b = a then v else read m b := by
  split
  · next h => rw [h, LawfulMemory.read_write_self]
  · next h => exact LawfulMemory.read_write_of_ne m v h

/-- The word at an address: the byte there, and above it the byte at the next address. -/
@[inline] def readWord (m : M) (a : UInt16) : UInt16 := Word.ofBytes (read m a) (read m (a + 1))

/-- Two bytes written to an address and to the next one, in this order. -/
@[inline] def writeWord (m : M) (a : UInt16) (low high : UInt8) : M :=
  write (write m a low) (a + 1) high

/-- Bytes written to consecutive addresses, the first at `a`. -/
@[specialize] def store (m : M) (a : UInt16) : List UInt8 → M
  | [] => m
  | b :: bs => store (write m a b) (a + 1) bs

@[simp] theorem store_nil (m : M) (a : UInt16) : store m a [] = m := rfl

@[simp] theorem store_cons (m : M) (a : UInt16) (b : UInt8) (bs : List UInt8) :
    store m a (b :: bs) = store (write m a b) (a + 1) bs := rfl

end Memory

/-! ## 2. Flat memory -/

/-- One array with a byte for every address. -/
structure FlatMemory where
  bytes : Vector UInt8 65536

namespace FlatMemory

/-- Memory that holds one value everywhere. -/
def filled (value : UInt8) : FlatMemory := ⟨Vector.replicate 65536 value⟩

/-- The byte at an address. -/
@[inline] def read (m : FlatMemory) (a : UInt16) : UInt8 :=
  m.bytes.get ⟨a.toNat, a.toNat_lt⟩

/-- Memory with the byte at one address replaced. -/
@[inline] def write (m : FlatMemory) (a : UInt16) (v : UInt8) : FlatMemory :=
  ⟨m.bytes.set a.toNat v a.toNat_lt⟩

instance : Memory FlatMemory := ⟨read, write⟩

instance : LawfulMemory FlatMemory where
  read_write_self _ a _ := Vector.getElem_set_self a.toNat_lt
  read_write_of_ne _ a b _ h :=
    Vector.getElem_set_ne a.toNat_lt b.toNat_lt (fun e => h (UInt16.toNat.inj e.symm))

/-- Memory with bytes copied to consecutive addresses from `start` on, and nothing when they would
    run past the last address. -/
def load? (m : FlatMemory) (start : UInt16) (data : List UInt8) : Option FlatMemory :=
  if start.toNat + data.length ≤ 65536 then some (Memory.store m start data) else none

end FlatMemory

end Retro24
