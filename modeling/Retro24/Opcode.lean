/-
  File:      Retro24/Opcode.lean
  Subject:   The instruction set: thirty-five opcodes, their bytes, operands and names.

  * `Opcode`: the opcodes in the order of their encodings.
  * `Opcode.byte` / `Opcode.ofByte?`: the encoding and its partial inverse
    (`ofByte?_byte`, `byte_of_ofByte?`); the bytes that are no opcode have no entry.
  * `Opcode.operands`: what follows the opcode byte; `Opcode.size` counts all of it.
  * `Opcode.mnemonic`, `Opcode.name`: the two spellings, in capitals for listings and with one
    capital for data files.
-/

namespace Retro24

/-! ## 1. The opcodes -/

/-- The instructions of the processor. -/
inductive Opcode where
  | nul | mar | sic | rar | aar | ir0 | a01 | dr0 | s01 | x12
  | x01 | jmp | sr0 | srw | lr0 | lrw | taw | mr0 | mrw | jz0
  | jgw | jew | or0 | an0 | je0 | c01 | c02 | irw | drw | x03
  | c03 | c30 | pl0 | pr0 | hlt
  deriving DecidableEq, Repr, Inhabited

/-- What follows an opcode byte in memory. -/
inductive Operands where
  /-- Nothing follows. -/
  | none
  /-- One byte follows, a value for R0. -/
  | value
  /-- Two bytes follow, values for R1 and R2. -/
  | pair
  /-- Two bytes follow, the low byte of an address first. -/
  | address
  deriving DecidableEq, Repr

namespace Opcode

/-- Every opcode, in the order of the encodings. -/
def all : List Opcode :=
  [nul, mar, sic, rar, aar, ir0, a01, dr0, s01, x12,
   x01, jmp, sr0, srw, lr0, lrw, taw, mr0, mrw, jz0,
   jgw, jew, or0, an0, je0, c01, c02, irw, drw, x03,
   c03, c30, pl0, pr0, hlt]

theorem mem_all (op : Opcode) : op ∈ all := by cases op <;> decide

/-! ## 2. Encodings -/

/-- The byte that encodes an opcode. -/
def byte : Opcode → UInt8
  | nul => 0x00 | mar => 0x01 | sic => 0x02 | rar => 0x03 | aar => 0x04
  | ir0 => 0x05 | a01 => 0x06 | dr0 => 0x07 | s01 => 0x08 | x12 => 0x09
  | x01 => 0x10 | jmp => 0x11 | sr0 => 0x12 | srw => 0x13 | lr0 => 0x14
  | lrw => 0x15 | taw => 0x16 | mr0 => 0x17 | mrw => 0x18 | jz0 => 0x19
  | jgw => 0x20 | jew => 0x21 | or0 => 0x22 | an0 => 0x23 | je0 => 0x24
  | c01 => 0x25 | c02 => 0x26 | irw => 0x27 | drw => 0x28 | x03 => 0x29
  | c03 => 0x2A | c30 => 0x2B | pl0 => 0x2C | pr0 => 0x2D | hlt => 0xFF

/-- The opcode that a byte encodes, if it encodes one. -/
def ofByte? (b : UInt8) : Option Opcode :=
  match b with
  | 0x00 => some nul | 0x01 => some mar | 0x02 => some sic | 0x03 => some rar | 0x04 => some aar
  | 0x05 => some ir0 | 0x06 => some a01 | 0x07 => some dr0 | 0x08 => some s01 | 0x09 => some x12
  | 0x10 => some x01 | 0x11 => some jmp | 0x12 => some sr0 | 0x13 => some srw | 0x14 => some lr0
  | 0x15 => some lrw | 0x16 => some taw | 0x17 => some mr0 | 0x18 => some mrw | 0x19 => some jz0
  | 0x20 => some jgw | 0x21 => some jew | 0x22 => some or0 | 0x23 => some an0 | 0x24 => some je0
  | 0x25 => some c01 | 0x26 => some c02 | 0x27 => some irw | 0x28 => some drw | 0x29 => some x03
  | 0x2A => some c03 | 0x2B => some c30 | 0x2C => some pl0 | 0x2D => some pr0 | 0xFF => some hlt
  | _ => none

/-- The byte of an opcode decodes to that opcode. -/
@[simp] theorem ofByte?_byte (op : Opcode) : ofByte? op.byte = some op := by
  cases op <;> rfl

/-- A byte that decodes to an opcode is the byte of that opcode. -/
theorem byte_of_ofByte? {b : UInt8} {op : Opcode} (h : ofByte? b = some op) : op.byte = b := by
  unfold ofByte? at h
  split at h <;> cases h <;> rfl

/-! ## 3. Operands and sizes -/

/-- The operands of an opcode. -/
def operands : Opcode → Operands
  | mar => .address
  | mrw => .pair
  | mr0 | or0 | an0 | je0 => .value
  | _ => .none

/-- The bytes that an instruction takes, its opcode byte included. -/
def size (op : Opcode) : UInt16 :=
  match op.operands with
  | .none => 1
  | .value => 2
  | .pair | .address => 3

/-! ## 4. Names -/

/-- The name of an opcode in listings. -/
def mnemonic : Opcode → String
  | nul => "NUL" | mar => "MAR" | sic => "SIC" | rar => "RAR" | aar => "AAR"
  | ir0 => "IR0" | a01 => "A01" | dr0 => "DR0" | s01 => "S01" | x12 => "X12"
  | x01 => "X01" | jmp => "JMP" | sr0 => "SR0" | srw => "SRW" | lr0 => "LR0"
  | lrw => "LRW" | taw => "TAW" | mr0 => "MR0" | mrw => "MRW" | jz0 => "JZ0"
  | jgw => "JGW" | jew => "JEW" | or0 => "OR0" | an0 => "AN0" | je0 => "JE0"
  | c01 => "C01" | c02 => "C02" | irw => "IRW" | drw => "DRW" | x03 => "X03"
  | c03 => "C03" | c30 => "C30" | pl0 => "PL0" | pr0 => "PR0" | hlt => "HLT"

/-- The name of an opcode in data files. -/
def name : Opcode → String
  | nul => "Nul" | mar => "Mar" | sic => "Sic" | rar => "Rar" | aar => "Aar"
  | ir0 => "Ir0" | a01 => "A01" | dr0 => "Dr0" | s01 => "S01" | x12 => "X12"
  | x01 => "X01" | jmp => "Jmp" | sr0 => "Sr0" | srw => "Srw" | lr0 => "Lr0"
  | lrw => "Lrw" | taw => "Taw" | mr0 => "Mr0" | mrw => "Mrw" | jz0 => "Jz0"
  | jgw => "Jgw" | jew => "Jew" | or0 => "Or0" | an0 => "An0" | je0 => "Je0"
  | c01 => "C01" | c02 => "C02" | irw => "Irw" | drw => "Drw" | x03 => "X03"
  | c03 => "C03" | c30 => "C30" | pl0 => "Pl0" | pr0 => "Pr0" | hlt => "Hlt"

/-- Two opcodes with one mnemonic are the same opcode. -/
theorem mnemonic_injective {a b : Opcode} (h : a.mnemonic = b.mnemonic) : a = b := by
  have key : ∀ a ∈ all, ∀ b ∈ all, a.mnemonic = b.mnemonic → a = b := by decide +kernel
  exact key a (mem_all a) b (mem_all b) h

end Opcode

end Retro24
