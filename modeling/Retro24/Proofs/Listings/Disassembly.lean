/-
  File:      Retro24/Proofs/Listings/Disassembly.lean
  Subject:   Listings can be assembled again.

  * `Statement.byte?_byteDigits`, `Statement.word?_wordDigits`: two and four digits are read back.
  * `Statement.parse?_mnemonic`: a line that begins with a mnemonic is read as its operands.
  * `Statement.Formed`: the operands are those of the opcode. What stands in memory is formed
    (`formed_fetch`), and what is formed is read back from its line (`parse?_text`).
  * `Statement.bytes_fetch`: the bytes of a statement are those where it stands, also where it runs
    beyond the last address.
  * `ListingLine.Contiguous`: lines that follow one another. `sweep_assembles`: the lines of a sweep
    do, and assemble to the bytes from its first address on; by induction on the number of lines.
  * `listings_assemble`: all of it together.
-/
import Retro24.Proofs.Memory.Image
import Retro24.Statement

namespace Retro24

/-! ## 1. Digits -/

namespace Hex

/-- Digits in front of others count sixteen times as much. -/
theorem valueFrom?_digit {n : Nat} (small : n < 16) (acc : Nat) (cs : List Char) :
    valueFrom? acc (digit n :: cs) = valueFrom? (16 * acc + n) cs := by
  rw [valueFrom?, value?_digit small]
  rfl

theorem number?_byteDigits (b : UInt8) : number? (byteDigits b) = some b.toNat := by
  have bound := b.toNat_lt
  have high : b.toNat / 16 < 16 := by omega
  have low : b.toNat % 16 < 16 := by omega
  have value : 16 * (16 * 0 + b.toNat / 16) + b.toNat % 16 = b.toNat := by omega
  show valueFrom? 0 [digit (b.toNat / 16), digit (b.toNat % 16)] = _
  rw [valueFrom?_digit high, valueFrom?_digit low, value]
  rfl

theorem number?_wordDigits (w : UInt16) : number? (wordDigits w) = some w.toNat := by
  have bound := w.toNat_lt
  have first : w.toNat / 4096 < 16 := by omega
  have second : w.toNat / 256 % 16 < 16 := by omega
  have third : w.toNat / 16 % 16 < 16 := by omega
  have fourth : w.toNat % 16 < 16 := by omega
  have value : 16 * (16 * (16 * (16 * 0 + w.toNat / 4096) + w.toNat / 256 % 16) +
      w.toNat / 16 % 16) + w.toNat % 16 = w.toNat := by omega
  show valueFrom? 0 [digit (w.toNat / 4096), digit (w.toNat / 256 % 16), digit (w.toNat / 16 % 16),
    digit (w.toNat % 16)] = _
  rw [valueFrom?_digit first, valueFrom?_digit second, valueFrom?_digit third,
    valueFrom?_digit fourth, value]
  rfl

end Hex

/-! ## 2. Lines -/

namespace Statement

/-- The two digits of a byte are read as that byte. -/
theorem byte?_byteDigits (b : UInt8) : byte? (Hex.byteDigits b) = some b := by
  have two : (Hex.byteDigits b).length = 2 := rfl
  unfold byte?
  rw [if_pos two, Hex.number?_byteDigits, Option.map_some, UInt8.ofNat_toNat]

/-- The four digits of a word are read as that word. -/
theorem word?_wordDigits (w : UInt16) : word? (Hex.wordDigits w) = some w := by
  have four : (Hex.wordDigits w).length = 4 := rfl
  unfold word?
  rw [if_pos four, Hex.number?_wordDigits, Option.map_some, UInt16.ofNat_toNat]

/-- An opcode is found under its mnemonic. -/
theorem opcode?_mnemonic (op : Opcode) : opcode? op.mnemonic = some op := by
  unfold opcode?
  cases found : Opcode.all.find? fun other => other.mnemonic == op.mnemonic with
  | none =>
    have missed := List.find?_eq_none.mp found op (Opcode.mem_all op)
    exact absurd (beq_self_eq_true op.mnemonic) missed
  | some other =>
    have same := List.find?_some found
    rw [Opcode.mnemonic_injective (beq_iff_eq.mp same)]

/-- A mnemonic has three letters, of which the second is not that of a data byte. -/
theorem mnemonic_letters (op : Opcode) :
    ∃ a b c, op.mnemonic.toList = [a, b, c] ∧ b ≠ 'B' := by
  have letters : ∀ op ∈ Opcode.all,
      op.mnemonic.toList.length = 3 ∧ op.mnemonic.toList[1]? ≠ some 'B' := by decide +kernel
  obtain ⟨three, second⟩ := letters op (Opcode.mem_all op)
  match all : op.mnemonic.toList, three with
  | [a, b, c], _ =>
    rw [all] at second
    exact ⟨a, b, c, rfl, fun same => second (congrArg some same)⟩

/-- **A line that begins with a mnemonic** is read as the operands behind it. -/
theorem parse?_mnemonic {line : String} {op : Opcode} {rest : List Char}
    (begins : line.toList = op.mnemonic.toList ++ rest) :
    parse? line = parseOperands? op rest := by
  obtain ⟨a, b, c, letters, second⟩ := mnemonic_letters op
  have name : String.ofList [a, b, c] = op.mnemonic := by
    rw [← letters, String.ofList_toList]
  rw [letters] at begins
  have shape : line.toList = a :: b :: c :: rest := begins
  unfold parse?
  rw [shape]
  split
  · next same => exact absurd (List.cons.inj (List.cons.inj same).2).1 second
  · next same =>
    cases same
    rw [name, opcode?_mnemonic]
    rfl
  · next other => exact absurd rfl (other a b c rest)

/-- A statement with the operands of its opcode, or a byte that encodes no opcode. -/
def Formed : Statement → Prop
  | .plain op => op.operands = .none
  | .value op _ => op.operands = .value
  | .pair op _ _ => op.operands = .pair
  | .address op _ => op.operands = .address
  | .data b => Opcode.ofByte? b = none

/-- **A statement is read back from its line.** -/
theorem parse?_text {s : Statement} (formed : s.Formed) : parse? s.text = some s := by
  cases s with
  | plain op =>
    have operands : op.operands = .none := formed
    have line : (text (.plain op)).toList = op.mnemonic.toList ++ [] := by
      rw [text, List.append_nil]
    rw [parse?_mnemonic line]
    unfold parseOperands?
    rw [operands]
  | value op v =>
    have operands : op.operands = .value := formed
    have line : (text (.value op v)).toList =
        op.mnemonic.toList ++ ' ' :: '#' :: '$' :: Hex.byteDigits v := by
      simp [text, Hex.byte]
    rw [parse?_mnemonic line]
    unfold parseOperands?
    rw [operands]
    show (byte? (Hex.byteDigits v)).map (value op) = _
    rw [byte?_byteDigits, Option.map_some]
  | pair op v w =>
    have operands : op.operands = .pair := formed
    have line : (text (.pair op v w)).toList = op.mnemonic.toList ++
        ' ' :: '#' :: '$' :: (Hex.byteDigits v ++ ',' :: ' ' :: '#' :: '$' :: Hex.byteDigits w) := by
      simp [text, Hex.byte]
    rw [parse?_mnemonic line]
    unfold parseOperands?
    rw [operands]
    show (byte? (Hex.byteDigits v)).bind (fun v => (byte? (Hex.byteDigits w)).map (pair op v)) = _
    rw [byte?_byteDigits, byte?_byteDigits, Option.bind_some, Option.map_some]
  | address op target =>
    have operands : op.operands = .address := formed
    have line : (text (.address op target)).toList =
        op.mnemonic.toList ++ ' ' :: '$' :: Hex.wordDigits target := by
      simp [text, Hex.word]
    rw [parse?_mnemonic line]
    unfold parseOperands?
    rw [operands]
    show (word? (Hex.wordDigits target)).map (address op) = _
    rw [word?_wordDigits, Option.map_some]
  | data b =>
    have line : (text (.data b)).toList = 'D' :: 'B' :: ' ' :: '$' :: Hex.byteDigits b := by
      simp [text, Hex.byte]
    unfold parse?
    rw [line]
    show (byte? (Hex.byteDigits b)).map data = _
    rw [byte?_byteDigits, Option.map_some]

/-! ## 3. Bytes -/

variable {M : Type} [Memory M]

/-- What stands in memory is formed. -/
theorem formed_fetch (m : M) (a : UInt16) : (fetch m a).Formed := by
  unfold fetch
  split
  · assumption
  · split <;> assumption

/-- **The bytes of a statement are those where it stands.** Behind the last address comes the first
    one. -/
theorem bytes_fetch (m : M) (a : UInt16) :
    (fetch m a).bytes = Memory.span m a.toNat (fetch m a).size.toNat := by
  have place : ∀ n : Nat, UInt16.ofNat (a.toNat + n) = a + UInt16.ofNat n := by
    intro n
    rw [UInt16.ofNat_add, UInt16.ofNat_toNat]
  have here : UInt16.ofNat a.toNat = a := UInt16.ofNat_toNat
  have next : UInt16.ofNat (a.toNat + 1) = a + 1 := place 1
  have last : UInt16.ofNat (a.toNat + 1 + 1) = a + 2 := place 2
  cases code : Opcode.ofByte? (Memory.read m a) with
  | none =>
    simp only [fetch, code]
    show [_] = [Memory.read m (UInt16.ofNat a.toNat)]
    rw [here]
  | some op =>
    have byte := Opcode.byte_of_ofByte? code
    cases operands : op.operands <;> simp only [fetch, code, operands]
    case none =>
      show [op.byte] = [Memory.read m (UInt16.ofNat a.toNat)]
      rw [here, byte]
    case value =>
      show [op.byte, _] = [Memory.read m (UInt16.ofNat a.toNat),
        Memory.read m (UInt16.ofNat (a.toNat + 1))]
      rw [here, next, byte]
    case pair =>
      show [op.byte, _, _] = [Memory.read m (UInt16.ofNat a.toNat),
        Memory.read m (UInt16.ofNat (a.toNat + 1)), Memory.read m (UInt16.ofNat (a.toNat + 1 + 1))]
      rw [here, next, last, byte]
    case address =>
      show [op.byte, Word.low (Word.ofBytes _ _), Word.high (Word.ofBytes _ _)] =
        [Memory.read m (UInt16.ofNat a.toNat), Memory.read m (UInt16.ofNat (a.toNat + 1)),
          Memory.read m (UInt16.ofNat (a.toNat + 1 + 1))]
      rw [here, next, last, byte, Word.low_ofBytes, Word.high_ofBytes]

end Statement

/-! ## 4. Listings -/

variable {M N : Type} [Memory M] [Memory N]

theorem text_disassemble (m : M) (a : UInt16) :
    (disassemble m a).text = (Statement.fetch m a).text := rfl

theorem size_disassemble (m : M) (a : UInt16) :
    (disassemble m a).size = (Statement.fetch m a).size := rfl

/-- **A line assembles to the bytes that it was made from.** -/
theorem assemble?_disassemble (m : M) (a : UInt16) :
    assemble? (disassemble m a).text =
      some (Memory.span m a.toNat (disassemble m a).size.toNat) := by
  have formed := Statement.formed_fetch m a
  rw [text_disassemble, size_disassemble, assemble?, Statement.parse?_text formed,
    Option.map_some, Statement.bytes_fetch]

namespace ListingLine

/-- Lines that follow one another from an address on: each stands where the one before it ends, and
    behind the last address comes the first one. -/
def Contiguous (a : UInt16) : List ListingLine → Prop
  | [] => True
  | line :: lines => line.address = a ∧ Contiguous (a + line.size) lines

/-- The bytes that lines take. -/
def total : List ListingLine → Nat
  | [] => 0
  | line :: lines => line.size.toNat + total lines

/-- Lines that make up memory from an address on, without a gap or an overlap: they follow one
    another, each assembles to as many bytes as it takes, and these bytes one behind the other are
    those in memory. -/
structure Covers (m : M) (a : UInt16) (lines : List ListingLine) : Prop where
  contiguous : Contiguous a lines
  assembled : ∃ pieces, lines.mapM (fun line => assemble? line.text) = some pieces ∧
    pieces.map List.length = lines.map (·.size.toNat) ∧
    pieces.flatten = Memory.span m a.toNat (total lines)

end ListingLine

/-- Bytes from an address on do not depend on how often the address has wrapped around. -/
theorem Memory.span_behind (m : M) (a n : UInt16) (length : Nat) :
    span m (a + n).toNat length = span m (a.toNat + n.toNat) length := by
  refine List.ext_getElem ?_ ?_
  · rw [length_span, length_span]
  · intro i inside inside'
    have place : UInt16.ofNat ((a + n).toNat + i) = UInt16.ofNat (a.toNat + n.toNat + i) := by
      simp only [UInt16.ofNat_add, UInt16.ofNat_toNat]
    rw [getElem_span, getElem_span, place]

/-- **A sweep covers memory**, by induction on the number of its lines: the first line takes the
    bytes in front of the sweep behind it. -/
theorem covers_sweep (m : M) (a : UInt16) (count : Nat) :
    (sweep m a count).length = count ∧ ListingLine.Covers m a (sweep m a count) := by
  induction count generalizing a with
  | zero => exact ⟨rfl, trivial, [], rfl, rfl, rfl⟩
  | succ count ih =>
    obtain ⟨length, contiguous, pieces, assembled, sizes, bytes⟩ := ih (a + (disassemble m a).size)
    have first := assemble?_disassemble m a
    rw [sweep_succ]
    refine ⟨congrArg (· + 1) length, ⟨rfl, contiguous⟩,
      Memory.span m a.toNat (disassemble m a).size.toNat :: pieces, ?_, ?_, ?_⟩
    · rw [List.mapM_cons, first, assembled]
      rfl
    · rw [List.map_cons, List.map_cons, sizes, Memory.length_span]
    · rw [List.flatten_cons, bytes, Memory.span_behind, Memory.span_append]
      rfl

/-- **Listings can be assembled again.** The line at any address of any memory assembles to exactly
    the bytes that it takes, so that two windows with the same line hold the same bytes; and the
    lines of a sweep follow one another and assemble to the bytes from its first address on. The
    bytes are read around the end of memory. -/
theorem listings_assemble (m : M) (n : N) (a b : UInt16) :
    assemble? (disassemble m a).text =
      some (Memory.span m a.toNat (disassemble m a).size.toNat) ∧
    ((disassemble m a).text = (disassemble n b).text →
      (disassemble m a).size = (disassemble n b).size ∧
      Memory.span m a.toNat (disassemble m a).size.toNat =
        Memory.span n b.toNat (disassemble n b).size.toNat) ∧
    ∀ count, (sweep m a count).length = count ∧ ListingLine.Covers m a (sweep m a count) := by
  refine ⟨assemble?_disassemble m a, ?_, covers_sweep m a⟩
  intro same
  have here := assemble?_disassemble m a
  rw [same, assemble?_disassemble n b] at here
  have bytes := Option.some.inj here
  have lengths := congrArg List.length bytes
  rw [Memory.length_span, Memory.length_span] at lengths
  exact ⟨(UInt16.toNat.inj lengths).symm, bytes.symm⟩

/-- A `MAR` at the last address, whose operands are the first two bytes of the IO page. -/
def wrapping : Bus := ((Bus.blank.write 0xFFFF 0x01).write 0x0000 0x34).write 0x0001 0x12

/-- The same instruction in the middle of flat memory. -/
def resting : FlatMemory := (((FlatMemory.filled 0).write 0x0200 0x01).write 0x0201 0x34).write
  0x0202 0x12

theorem listings_assemble_wrapping :
    (disassemble wrapping 0xFFFF).text = (disassemble resting 0x0200).text ∧
    (disassemble wrapping 0xFFFF).size = (disassemble resting 0x0200).size ∧
    assemble? (disassemble wrapping 0xFFFF).text = some [0x01, 0x34, 0x12] := by
  have here : Statement.fetch wrapping 0xFFFF = .address .mar 0x1234 := by decide +kernel
  have there : Statement.fetch resting 0x0200 = .address .mar 0x1234 := by decide +kernel
  have same : (disassemble wrapping 0xFFFF).text = (disassemble resting 0x0200).text := by
    rw [text_disassemble, text_disassemble, here, there]
  obtain ⟨assembled, windows, -⟩ := listings_assemble wrapping resting 0xFFFF 0x0200
  rw [size_disassemble, ← Statement.bytes_fetch, here] at assembled
  exact ⟨same, (windows same).1, assembled⟩

end Retro24
