/-
  File:      Retro24/Proofs/Memory/Extents.lean
  Subject:   Spans of every length, and how far the check in machine words follows them.

  * `ensureSpan?_eq_none_iff`: the check has no answer exactly for the spans that end beyond the
    machine words; `ensureSpan?_eq_ok_iff`, `ensureSpan?_eq_error_iff`: every answer is exact.
  * `ensureFits_eq_ensureSpan?`: images are checked as the spans of their bytes.
  * `spans_measured`: which spans pass, which address the others are refused with, and for which of
    them there is no answer; `longest_span_breaks_off` is one of these.
-/
import Retro24.Program
import Retro24.Proofs.Memory.Loads

namespace Retro24

variable {start : UInt16} {length : UInt64}

/-! ## 1. The check below and beyond the machine words -/

/-- **Beyond 2^64 there is no answer**, and there is one everywhere else. -/
theorem ensureSpan?_eq_none_iff :
    ensureSpan? start length = none ↔ 0x10000000000000000 ≤ spanEnd start length := by
  by_cases room : spanEnd start length < 0x10000000000000000
  · rw [ensureSpan?_eq room]
    exact iff_of_false nofun (Nat.not_le.mpr room)
  · have large := Nat.not_lt.mp room
    have none : machineWord? (start.toNat + length.toNat) = none := machineWord?_eq_none large
    rw [ensureSpan?, none]
    exact iff_of_true rfl large

theorem ensureSpan?_eq_ok_iff :
    ensureSpan? start length = some (.ok ()) ↔ spanEnd start length ≤ 65536 := by
  by_cases room : spanEnd start length < 0x10000000000000000
  · rw [ensureSpan?_eq room]
    by_cases fits : spanEnd start length ≤ 65536
    · rw [if_pos fits]
      exact iff_of_true rfl fits
    · rw [if_neg fits]
      exact iff_of_false nofun fits
  · rw [ensureSpan?_eq_none_iff.mpr (Nat.not_lt.mp room)]
    exact iff_of_false nofun (by omega)

theorem ensureSpan?_eq_error_iff {e : AddressError} :
    ensureSpan? start length = some (.error e) ↔
      65536 < spanEnd start length ∧ spanEnd start length < 0x10000000000000000 ∧
        e = ⟨spanEnd start length - 1⟩ := by
  constructor
  · intro refused
    have past : ¬ spanEnd start length ≤ 65536 := by
      rw [← ensureSpan?_eq_ok_iff, refused]
      nofun
    have room : ¬ 0x10000000000000000 ≤ spanEnd start length := by
      rw [← ensureSpan?_eq_none_iff, refused]
      nofun
    rw [ensureSpan?_eq (Nat.not_le.mp room), if_neg past] at refused
    cases refused
    exact ⟨Nat.not_le.mp past, Nat.not_le.mp room, rfl⟩
  · rintro ⟨past, room, rfl⟩
    rw [ensureSpan?_eq room, if_neg (Nat.not_le.mpr past)]

/-! ## 2. Spans of bytes in memory -/

/-- **An image is checked as the span of its bytes.** -/
theorem Program.ensureFits_eq_ensureSpan? {image : Program}
    (short : image.length < 0x8000000000000000) :
    some image.ensureFits =
      (ensureSpan? startAddress (UInt64.ofNat image.length)).map
        (·.mapError (.tooLarge image.length)) := by
  obtain ⟨stop, room⟩ := spanEnd_of_short startAddress short
  rw [ensureSpan?_eq room, ensureFits, stop]
  by_cases fits : startAddress.toNat + image.length ≤ 65536
  · rw [if_pos fits, if_pos fits]
    rfl
  · rw [if_neg fits, if_neg fits]
    rfl

/-- **The check of a span is exact, unless the end of the span is no machine word.** A span passes
    exactly if it ends within the address space, and a span that ends behind it, but below 2^64, is
    refused with the address of its last byte. For any other span the sum overflows and there is no
    answer; the difference never does. So nothing is lost with bytes that memory can hold: they pass
    exactly if they end within the address space, and images are checked in this way. -/
theorem spans_measured (start : UInt16) (length : UInt64) :
    (ensureSpan? start length = some (.ok ()) ↔ spanEnd start length ≤ 65536) ∧
    (∀ e, ensureSpan? start length = some (.error e) ↔
      65536 < spanEnd start length ∧ spanEnd start length < 0x10000000000000000 ∧
        e = ⟨spanEnd start length - 1⟩) ∧
    (ensureSpan? start length = none ↔ 0x10000000000000000 ≤ spanEnd start length) ∧
    (∀ data : List UInt8, data.length < 0x8000000000000000 →
      ensureSpan? start (UInt64.ofNat data.length) =
        some (if start.toNat + data.length ≤ 65536 then .ok ()
          else .error ⟨start.toNat + data.length - 1⟩)) ∧
    (∀ image : Program, image.length < 0x8000000000000000 →
      some image.ensureFits =
        (ensureSpan? startAddress (UInt64.ofNat image.length)).map
          (·.mapError (.tooLarge image.length))) := by
  refine ⟨ensureSpan?_eq_ok_iff, fun e => ensureSpan?_eq_error_iff, ensureSpan?_eq_none_iff, ?_,
    fun image short => image.ensureFits_eq_ensureSpan? short⟩
  intro data short
  obtain ⟨stop, room⟩ := spanEnd_of_short start short
  rw [ensureSpan?_eq room, stop]

/-- Three bytes at the last two addresses, two bytes there, and an image of two bytes. -/
theorem spans_measured_last :
    ensureSpan? 0xFFFE (UInt64.ofNat [1, 2, 3].length) = some (.error ⟨0x10000⟩) ∧
    ensureSpan? 0xFFFE 2 = some (.ok ()) ∧
    (Program.ofBytes [0x17, 0xFF]).ensureFits = .ok () := by
  obtain ⟨passes, -, -, listed, images⟩ := spans_measured 0xFFFE 2
  refine ⟨listed [1, 2, 3] (by decide), passes.mpr (by decide), Option.some.inj ?_⟩
  exact images (.ofBytes [0x17, 0xFF]) (by decide)

/-- The longest span of all, from the second address on. The address of its last byte is a machine
    word, but instead of a refusal that names it there is no answer. -/
theorem longest_span_breaks_off :
    65536 < spanEnd 1 0xFFFFFFFFFFFFFFFF ∧
    spanEnd 1 0xFFFFFFFFFFFFFFFF - 1 = (0xFFFFFFFFFFFFFFFF : UInt64).toNat ∧
    ensureSpan? 1 0xFFFFFFFFFFFFFFFF ≠ some (.error ⟨spanEnd 1 0xFFFFFFFFFFFFFFFF - 1⟩) ∧
    ensureSpan? 1 0xFFFFFFFFFFFFFFFF = none := by
  have none : ensureSpan? 1 0xFFFFFFFFFFFFFFFF = none :=
    ensureSpan?_eq_none_iff.mpr (by decide)
  refine ⟨by decide, rfl, ?_, none⟩
  rw [none]
  nofun

end Retro24
