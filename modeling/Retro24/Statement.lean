/-
  File:      Retro24/Statement.lean
  Subject:   The statements of a listing: instructions with their operands, and single data bytes.

  * `Statement.fetch`: the statement that stands at an address; a byte that encodes no opcode is a
    data byte.
  * `Statement.bytes`, `Statement.text`: its bytes in memory and its line in a listing.
  * `Statement.parse?`: reads the line back; `assemble?` gives the bytes of a line.
  * `disassemble`, `sweep`: the line at an address, and the lines one after another.
-/
import Retro24.Hex
import Retro24.Memory
import Retro24.Opcode

namespace Retro24

/-! ## 1. Statements -/

/-- One statement of a listing. -/
inductive Statement where
  /-- An opcode alone. -/
  | plain (op : Opcode)
  /-- An opcode with a value for R0. -/
  | value (op : Opcode) (r0 : UInt8)
  /-- An opcode with values for R1 and R2. -/
  | pair (op : Opcode) (r1 r2 : UInt8)
  /-- An opcode with an address. -/
  | address (op : Opcode) (target : UInt16)
  /-- A byte that encodes no opcode. -/
  | data (byte : UInt8)
  deriving DecidableEq

namespace Statement

variable {M : Type} [Memory M]

/-- The statement that stands at an address. -/
@[specialize] def fetch (m : M) (a : UInt16) : Statement :=
  match Opcode.ofByte? (Memory.read m a) with
  | none => .data (Memory.read m a)
  | some op =>
    match op.operands with
    | .none => .plain op
    | .value => .value op (Memory.read m (a + 1))
    | .pair => .pair op (Memory.read m (a + 1)) (Memory.read m (a + 2))
    | .address => .address op (Word.ofBytes (Memory.read m (a + 1)) (Memory.read m (a + 2)))

/-- The bytes of a statement in memory. -/
def bytes : Statement → List UInt8
  | .plain op => [op.byte]
  | .value op v => [op.byte, v]
  | .pair op v w => [op.byte, v, w]
  | .address op t => [op.byte, Word.low t, Word.high t]
  | .data b => [b]

/-- The number of bytes of a statement. -/
def size (s : Statement) : UInt16 :=
  match s with
  | .plain _ | .data _ => 1
  | .value _ _ => 2
  | .pair _ _ _ | .address _ _ => 3

/-- The line of a statement: its mnemonic, then its operands in hexadecimal. -/
def text : Statement → String
  | .plain op => op.mnemonic
  | .value op v => op.mnemonic ++ " #$" ++ Hex.byte v
  | .pair op v w => op.mnemonic ++ " #$" ++ Hex.byte v ++ ", #$" ++ Hex.byte w
  | .address op t => op.mnemonic ++ " $" ++ Hex.word t
  | .data b => "DB $" ++ Hex.byte b

/-! ## 2. Reading a line -/

/-- The opcode with a mnemonic. -/
def opcode? (mnemonic : String) : Option Opcode :=
  Opcode.all.find? fun op => op.mnemonic == mnemonic

/-- A byte written with exactly two digits. -/
def byte? (digits : List Char) : Option UInt8 :=
  if digits.length = 2 then (Hex.number? digits).map UInt8.ofNat else none

/-- An address written with exactly four digits. -/
def word? (digits : List Char) : Option UInt16 :=
  if digits.length = 4 then (Hex.number? digits).map UInt16.ofNat else none

/-- The operands of an instruction, read after its mnemonic. -/
def parseOperands? (op : Opcode) (rest : List Char) : Option Statement :=
  match op.operands, rest with
  | .none, [] => some (.plain op)
  | .value, [' ', '#', '$', a, b] => (byte? [a, b]).map (.value op)
  | .pair, [' ', '#', '$', a, b, ',', ' ', '#', '$', c, d] =>
    (byte? [a, b]).bind fun v => (byte? [c, d]).map (.pair op v)
  | .address, [' ', '$', a, b, c, d] => (word? [a, b, c, d]).map (.address op)
  | _, _ => none

/-- The statement that a line stands for. -/
def parse? (line : String) : Option Statement :=
  match line.toList with
  | ['D', 'B', ' ', '$', a, b] => (byte? [a, b]).map .data
  | a :: b :: c :: rest =>
    (opcode? (String.ofList [a, b, c])).bind fun op => parseOperands? op rest
  | _ => none

end Statement

/-- The bytes that a line of a listing assembles to. -/
def assemble? (line : String) : Option (List UInt8) :=
  (Statement.parse? line).map Statement.bytes

/-! ## 3. Listings -/

/-- One line of a listing. -/
structure ListingLine where
  /-- Where the statement stands. -/
  address : UInt16
  /-- The statement's text. -/
  text : String
  /-- The number of bytes that it takes. -/
  size : UInt16
  deriving DecidableEq

/-- The line for the statement at an address. -/
@[specialize] def disassemble {M : Type} [Memory M] (m : M) (a : UInt16) : ListingLine :=
  let s := Statement.fetch m a
  ⟨a, s.text, s.size⟩

/-- The lines of `count` statements from an address on, put in front of the lines in `done`, which
    stand the last one first. -/
@[specialize] def sweepOnto {M : Type} [Memory M] (m : M) (done : List ListingLine) (a : UInt16) :
    Nat → List ListingLine
  | 0 => done.reverse
  | count + 1 =>
    let line := disassemble m a
    sweepOnto m (line :: done) (a + line.size) count

/-- The lines of `count` statements that follow one another from an address on; addresses wrap. -/
@[inline] def sweep {M : Type} [Memory M] (m : M) (a : UInt16) (count : Nat) : List ListingLine :=
  sweepOnto m [] a count

theorem sweepOnto_eq {M : Type} [Memory M] (m : M) (done : List ListingLine) (a : UInt16)
    (count : Nat) : sweepOnto m done a count = done.reverse ++ sweepOnto m [] a count := by
  induction count generalizing done a with
  | zero => simp [sweepOnto]
  | succ count ih =>
    rw [sweepOnto, ih, sweepOnto, ih [_]]
    simp

@[simp] theorem sweep_zero {M : Type} [Memory M] (m : M) (a : UInt16) : sweep m a 0 = [] := rfl

/-- A sweep is its first line and the sweep from the address behind it. -/
theorem sweep_succ {M : Type} [Memory M] (m : M) (a : UInt16) (count : Nat) :
    sweep m a (count + 1) =
      disassemble m a :: sweep m (a + (disassemble m a).size) count := by
  unfold sweep
  rw [sweepOnto, sweepOnto_eq]
  rfl

end Retro24
