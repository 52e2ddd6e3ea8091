/-
  File:      Retro24/Enumerations.lean
  Subject:   Opcodes, regions, keys and clock rates in data files, where they stand by their names.
-/
import Retro24.Command
import Retro24.Json.Decoding
import Retro24.Opcode
import Retro24.Region

namespace Retro24

open Json (Value Decoded)

/-- The opcode that a value names. -/
def Opcode.ofJson (v : Value) : Decoded Opcode :=
  v.decodeName (Opcode.all.map fun op => (op.name, op))

/-- The region that a value names. -/
def Region.ofJson (v : Value) : Decoded Region := v.decodeName (Region.all.map fun r => (r.name, r))

/-- The key that a value names. -/
def Key.ofJson (v : Value) : Decoded Key := v.decodeName (Key.all.map fun k => (k.name, k))

/-- The clock rate that a value names. -/
def ClockRate.ofJson (v : Value) : Decoded ClockRate := v.decodeName ClockRate.names

end Retro24
