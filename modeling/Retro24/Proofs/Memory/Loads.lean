/-
  File:      Retro24/Proofs/Memory/Loads.lean
  Subject:   Bytes are loaded into the whole of their span, or not at all.

  * `spanEnd`: the end of a span in unbounded numbers, which is a machine word if the bytes are in
    memory (`spanEnd_of_short`); `ensureSpan?_eq`: the check of such a span.
  * `Bus.copy`: bytes written one by one, where a refusal would leave those in front of it written;
    `Bus.loadStepwise`: the check of the span and then the copy. Behind the check nothing is
    refused, so that this is a load (`copy_of_writeAll`, `loadStepwise_eq`).
  * `Bus.Overlaid`: banks in which the bytes of a span, and these only, are other ones.
  * `loads_span_or_nothing`: all of it together.
-/
import Retro24.Proofs.Memory.Spans

namespace Retro24

/-! ## 1. The check in front -/

/-- The address behind the last byte of a span, in unbounded numbers. -/
def spanEnd (start : UInt16) (length : UInt64) : Nat := start.toNat + length.toNat

/-- The span of as many bytes as memory can hold ends below 2^64. -/
theorem spanEnd_of_short (start : UInt16) {n : Nat} (short : n < 0x8000000000000000) :
    spanEnd start (UInt64.ofNat n) = start.toNat + n ∧
      spanEnd start (UInt64.ofNat n) < 0x10000000000000000 := by
  have first : start.toNat < 65536 := start.toNat_lt
  have word : (UInt64.ofNat n).toNat = n :=
    UInt64.toNat_ofNat_of_lt' (Nat.lt_trans short (by decide))
  unfold spanEnd
  omega

/-- **The check of a span compares with its exact end**, as long as that is a machine word. The
    difference behind a sum that is too large is one as well. -/
theorem ensureSpan?_eq {start : UInt16} {length : UInt64}
    (room : spanEnd start length < 0x10000000000000000) :
    ensureSpan? start length =
      some (if spanEnd start length ≤ 65536 then .ok ()
        else .error ⟨spanEnd start length - 1⟩) := by
  obtain ⟨stop, sum, same⟩ := machineWord?_eq_some room
  have beyond : 65536 < stop ↔ 65536 < spanEnd start length := by
    rw [UInt64.lt_iff_toNat_lt, same]
    rfl
  rw [spanEnd] at sum
  rw [ensureSpan?, sum, Option.bind_some]
  by_cases fits : spanEnd start length ≤ 65536
  · rw [if_pos fits, if_neg (mt beyond.mp (Nat.not_lt.mpr fits))]
  · have past := beyond.mpr (Nat.not_le.mp fits)
    have one : (1 : UInt64) ≤ stop := UInt64.le_trans (by decide) (UInt64.le_of_lt past)
    rw [if_neg fits, if_pos past, difference?, if_pos one, Option.map_some,
      UInt64.toNat_sub_of_le _ _ one, same]
    rfl

namespace Bus

variable {b b' : Bus} {a : UInt64} {start : UInt16} {bytes data : List UInt8}

/-! ## 2. The copy behind it -/

/-- Bytes written one by one through wide addresses, until one of them is refused: what came of it,
    and the banks with those in front of it written. -/
def copy (b : Bus) (a : UInt64) : List UInt8 → Except AddressError Unit × Bus
  | [] => (.ok (), b)
  | v :: vs =>
    match b.writeWide a v with
    | .error e => (.error e, b)
    | .ok b => b.copy (a + 1) vs

/-- A span checked, and its bytes copied one by one. -/
def loadStepwise (b : Bus) (start : UInt16) (data : List UInt8) :
    Option (Except AddressError Unit × Bus) :=
  (ensureSpan? start (UInt64.ofNat data.length)).map fun
    | .error e => (.error e, b)
    | .ok () => b.copy start.toUInt64 data

theorem copy_of_writeAll (written : b.writeAll a bytes = .ok b') :
    b.copy a bytes = (.ok (), b') := by
  induction bytes generalizing b a with
  | nil =>
    cases written
    rfl
  | cons v vs ih =>
    rw [writeAll] at written
    rw [copy]
    cases first : b.writeWide a v with
    | error e =>
      rw [first] at written
      cases written
    | ok next =>
      rw [first] at written
      exact ih written

/-- **Behind the check no byte is refused.** -/
theorem copy_eq (b : Bus) (fits : start.toNat + data.length ≤ 65536) :
    b.copy start.toUInt64 data = (.ok (), Memory.store b start data) :=
  copy_of_writeAll (writeAll_eq b fits)

/-- **A span that is checked and then copied byte by byte is loaded**, if memory can hold its
    list. -/
theorem loadStepwise_eq (b : Bus) (start : UInt16) (short : data.length < 0x8000000000000000) :
    b.loadStepwise start data = some (b.settle (b.load start data)) := by
  obtain ⟨stop, room⟩ := spanEnd_of_short start short
  rw [loadStepwise, ensureSpan?_eq room, stop, load, Option.map_some]
  by_cases fits : start.toNat + data.length ≤ 65536
  · rw [if_pos fits, if_pos fits]
    exact congrArg some (copy_eq b fits)
  · rw [if_neg fits, if_neg fits]
    rfl

/-! ## 3. What a load leaves -/

/-- Banks that hold bytes at consecutive addresses from `start` on, and at every other address what
    they held before. -/
structure Overlaid (b : Bus) (start : UInt16) (data : List UInt8) (b' : Bus) : Prop where
  inside (k : Nat) (h : k < data.length) : b'.read (UInt16.ofNat (start.toNat + k)) = data[k]
  outside (a : UInt16) (h : a.toNat < start.toNat ∨ start.toNat + data.length ≤ a.toNat) :
    b'.read a = b.read a

theorem overlaid_store (b : Bus) (fits : start.toNat + data.length ≤ 65536) :
    b.Overlaid start data (Memory.store b start data) where
  inside _ h := Memory.read_store_inside b fits h
  outside _ h := Memory.read_store_outside b fits h

/-- **Bytes are loaded into the whole of their span, or not at all.** They are loaded exactly if the
    span ends within the address space, whatever regions it crosses; then each of them stands at its
    address, every other byte is as it was, and none is refused on its way. Otherwise the address of
    the last one is refused and the banks stay as they are. The check in machine words with the copy
    byte by byte does the same, and never overflows, for every list that memory can hold. -/
theorem loads_span_or_nothing (b : Bus) (start : UInt16) (data : List UInt8) :
    ((∃ b', b.load start data = .ok b') ↔ start.toNat + data.length ≤ 65536) ∧
    (∀ b', b.load start data = .ok b' →
      b.Overlaid start data b' ∧ b.copy start.toUInt64 data = (.ok (), b')) ∧
    (65536 < start.toNat + data.length →
      b.settle (b.load start data) = (.error ⟨start.toNat + data.length - 1⟩, b)) ∧
    (data.length < 0x8000000000000000 →
      b.loadStepwise start data = some (b.settle (b.load start data))) := by
  by_cases fits : start.toNat + data.length ≤ 65536
  · have loaded : b.load start data = .ok (Memory.store b start data) := if_pos fits
    refine ⟨⟨fun _ => fits, fun _ => ⟨_, loaded⟩⟩, fun b' ok => ?_, fun past => ?_,
      b.loadStepwise_eq start⟩
    · cases loaded.symm.trans ok
      exact ⟨overlaid_store b fits, copy_eq b fits⟩
    · exact absurd fits (Nat.not_le.mpr past)
  · have refused : b.load start data = .error ⟨start.toNat + data.length - 1⟩ := if_neg fits
    refine ⟨⟨fun ⟨b', ok⟩ => ?_, fun fits' => absurd fits' fits⟩, fun b' ok => ?_, fun _ => ?_,
      b.loadStepwise_eq start⟩
    · cases refused.symm.trans ok
    · cases refused.symm.trans ok
    · rw [refused]
      rfl

/-- Four bytes across the border of the two planes, and three bytes at the last two addresses. -/
theorem loads_span_or_nothing_borders :
    (∃ b', blank.loadStepwise 0xEFFE [1, 2, 3, 4] = some (.ok (), b') ∧
      b'.read 0xEFFD = 0 ∧ b'.read 0xEFFF = 2 ∧ b'.read 0xF000 = 3 ∧ b'.read 0xF002 = 0) ∧
    blank.loadStepwise 0xFFFE [9, 9, 9] = some (.error ⟨0x10000⟩, blank) := by
  constructor
  · obtain ⟨may, loaded, -, stepwise⟩ := loads_span_or_nothing blank 0xEFFE [1, 2, 3, 4]
    obtain ⟨b', ok⟩ := may.mpr (by decide)
    obtain ⟨overlaid, -⟩ := loaded b' ok
    have blank_low : blank.read 0xEFFD = 0 := by decide +kernel
    have blank_high : blank.read 0xF002 = 0 := by decide +kernel
    refine ⟨b', (stepwise (by decide)).trans (by rw [ok]; rfl), ?_, overlaid.inside 1 (by decide),
      overlaid.inside 2 (by decide), ?_⟩
    · exact (overlaid.outside 0xEFFD (.inl (by decide))).trans blank_low
    · exact (overlaid.outside 0xF002 (.inr (by decide))).trans blank_high
  · obtain ⟨-, -, refused, stepwise⟩ := loads_span_or_nothing blank 0xFFFE [9, 9, 9]
    exact (stepwise (by decide)).trans (congrArg some (refused (by decide)))

end Bus
end Retro24
