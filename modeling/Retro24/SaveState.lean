/-
  File:      Retro24/SaveState.lean
  Subject:   Save states: the registers, the memory and the cycle counter of a machine as JSON.

  * `Registers.toJson`, `Registers.ofJson` and the same for `BusImage`: the parts of a state, with
    the names and the order of their fields.
  * `Machine.toJson`: the state of a machine.
  * `Machine.restore`: the machine with a state in place of its own. The state is checked as a whole
    before anything is replaced; the program slot, the palette and the batch length stay.
-/
import Retro24.Json.Decoding
import Retro24.Machine

namespace Retro24

open Json (Value Decoded Member)

/-! ## 1. Registers -/

namespace Registers

/-- The registers as an object. -/
def toJson (r : Registers) : Value :=
  .object
    [("ar", .ofNat r.ar.toNat), ("current_opcode", .ofNat r.opcode.toNat), ("hlt", .bool r.halted),
     ("ic", .ofNat r.ic.toNat), ("r0", .ofNat r.r0.toNat), ("r1", .ofNat r.r1.toNat),
     ("r2", .ofNat r.r2.toNat), ("r3", .ofNat r.r3.toNat)]

/-- The fields in the order of an array of them. -/
def fields : List (Member Registers) :=
  [⟨"ar", fun v r => v.decodeWord.map ({ r with ar := · })⟩,
   ⟨"ic", fun v r => v.decodeWord.map ({ r with ic := · })⟩,
   ⟨"r0", fun v r => v.decodeByte.map ({ r with r0 := · })⟩,
   ⟨"r1", fun v r => v.decodeByte.map ({ r with r1 := · })⟩,
   ⟨"r2", fun v r => v.decodeByte.map ({ r with r2 := · })⟩,
   ⟨"r3", fun v r => v.decodeByte.map ({ r with r3 := · })⟩,
   ⟨"hlt", fun v r => v.decodeBool.map ({ r with halted := · })⟩,
   ⟨"current_opcode", fun v r => v.decodeByte.map ({ r with opcode := · })⟩]

/-- The registers that a value stands for. -/
def ofJson (v : Value) : Decoded Registers := v.decodeStruct "struct Registers" fields .powerOn

end Registers

/-! ## 2. Memory -/

/-- The bytes that an array stands for. -/
def bytesOfJson (v : Value) : Decoded (Array UInt8) :=
  (v.decodeList Value.decodeByte).map List.toArray

/-- Bytes as an array. -/
def bytesToJson (bytes : Array UInt8) : Value :=
  .array (bytes.toList.map fun b => .ofNat b.toNat)

namespace BusImage

/-- The banks as an object. -/
def toJson (i : BusImage) : Value :=
  .object
    [("io", bytesToJson i.io), ("ram", bytesToJson i.ram), ("video", bytesToJson i.video)]

/-- The fields in the order of an array of them. -/
def fields : List (Member BusImage) :=
  [⟨"io", fun v i => (bytesOfJson v).map ({ i with io := · })⟩,
   ⟨"ram", fun v i => (bytesOfJson v).map ({ i with ram := · })⟩,
   ⟨"video", fun v i => (bytesOfJson v).map ({ i with video := · })⟩]

/-- The banks that a value stands for, whatever their sizes. -/
def ofJson (v : Value) : Decoded BusImage :=
  v.decodeStruct "struct Retro24Bus" fields ⟨#[], #[], #[]⟩

end BusImage

namespace Frame

/-- The fields in the order of an array of them. -/
def fields : List (Member Frame) :=
  [⟨"width", fun v f => v.decodeLong.map ({ f with width := · })⟩,
   ⟨"height", fun v f => v.decodeLong.map ({ f with height := · })⟩,
   ⟨"pixels", fun v f =>
      (v.decodeList Value.decodeLong).map fun xs => { f with pixels := xs.toArray }⟩]

/-- The frame that a value stands for. Its pixels are not counted. -/
def ofJson (v : Value) : Decoded Frame := v.decodeStruct "struct Frame" fields ⟨0, 0, #[]⟩

end Frame

/-! ## 3. States of the machine -/

/-- Why a state is refused. -/
inductive StateError where
  | unsupportedVersion
  | foreignSystem
  | mismatch (m : Json.Mismatch)
  /-- The memory of the state has not the sizes of the banks. -/
  | wrongSizes

/-- The text of a refusal. -/
def StateError.message : StateError → String
  | unsupportedVersion => "unsupported save state version"
  | foreignSystem => "save state is not for retro24"
  | mismatch m => m.message
  | wrongSizes => "save state memory regions have the wrong size"

/-- The version of the states written here. -/
def stateVersion : Nat := 1

/-- The name of the system in a state. -/
def systemName : String := "retro24"

namespace Machine

/-- The state of a machine. -/
def toJson (m : Machine) : Value :=
  .object
    [("bus", (BusImage.ofBus m.bus).toJson), ("cycles", .ofNat m.cpu.cycles.toNat),
     ("registers", m.registers.toJson), ("system", .string systemName),
     ("version", .ofNat stateVersion)]

/-- The registers and the memory in a state. -/
def readState (v : Value) : Except StateError (Registers × Bus) :=
  if (v.get "version").natural? ≠ some stateVersion then .error .unsupportedVersion
  else if (v.get "system").text? ≠ some systemName then .error .foreignSystem
  else
    match Registers.ofJson (v.get "registers") with
    | .error e => .error (.mismatch e)
    | .ok regs =>
      match BusImage.ofJson (v.get "bus") with
      | .error e => .error (.mismatch e)
      | .ok image =>
        match image.toBus? with
        | none => .error .wrongSizes
        | some bus => .ok (regs, bus)

/-- The machine in a state, with the picture of it on the screen. A counter that is no natural of
    64 bits counts as zero. -/
def restore (m : Machine) (v : Value) : Except StateError Machine :=
  match readState v with
  | .error e => .error e
  | .ok (regs, bus) =>
    let cycles := UInt64.ofNat ((v.get "cycles").natural?.getD 0)
    .ok ({ m with cpu := ⟨regs, cycles, bus⟩ }.redraw)

end Machine

end Retro24
