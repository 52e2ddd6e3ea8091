/-
  File:      Retro24/Word.lean
  Subject:   Sixteen-bit words with their two bytes, the low byte first, and larger words that a
             number may be too large for.

  * `Word.ofBytes`, `Word.low`, `Word.high`: a word from its bytes and back.
  * `low_ofBytes`, `high_ofBytes`, `ofBytes_low_high`: the three undo one another.
  * `machineWord?`, `longWord?`: the word of 64 or of 32 bits of a number; there is none of a number
    that is too large. `difference?`: the difference of two words, if it is one.
-/

namespace Retro24

/-! ## 1. Words of two bytes -/

namespace Word

/-- The word with the given low and high bytes. -/
def ofBytes (low high : UInt8) : UInt16 := UInt16.ofNat (low.toNat + 256 * high.toNat)

/-- The low byte of a word. -/
def low (w : UInt16) : UInt8 := UInt8.ofNat (w.toNat % 256)

/-- The high byte of a word. -/
def high (w : UInt16) : UInt8 := UInt8.ofNat (w.toNat / 256)

theorem toNat_ofBytes (l h : UInt8) : (ofBytes l h).toNat = l.toNat + 256 * h.toNat := by
  have hl := l.toNat_lt
  have hh := h.toNat_lt
  simp only [ofBytes, UInt16.toNat_ofNat']
  omega

theorem toNat_low (w : UInt16) : (low w).toNat = w.toNat % 256 := by
  simp only [low, UInt8.toNat_ofNat']
  omega

theorem toNat_high (w : UInt16) : (high w).toNat = w.toNat / 256 := by
  have hw := w.toNat_lt
  simp only [high, UInt8.toNat_ofNat']
  omega

@[simp] theorem low_ofBytes (l h : UInt8) : low (ofBytes l h) = l := by
  have hl := l.toNat_lt
  apply UInt8.toNat.inj
  simp only [low, toNat_ofBytes, UInt8.toNat_ofNat']
  omega

@[simp] theorem high_ofBytes (l h : UInt8) : high (ofBytes l h) = h := by
  have hl := l.toNat_lt
  have hh := h.toNat_lt
  apply UInt8.toNat.inj
  simp only [high, toNat_ofBytes, UInt8.toNat_ofNat']
  omega

@[simp] theorem ofBytes_low_high (w : UInt16) : ofBytes (low w) (high w) = w := by
  have hw := w.toNat_lt
  apply UInt16.toNat.inj
  simp only [low, high, toNat_ofBytes, UInt8.toNat_ofNat']
  omega

end Word

/-! ## 2. Numbers and words -/

/-- The machine word of a number, if there is one. -/
def machineWord? (n : Nat) : Option UInt64 :=
  if n < 0x10000000000000000 then some (UInt64.ofNat n) else none

theorem machineWord?_eq_some {n : Nat} (small : n < 0x10000000000000000) :
    ∃ w, machineWord? n = some w ∧ w.toNat = n :=
  ⟨UInt64.ofNat n, if_pos small, UInt64.toNat_ofNat_of_lt' small⟩

theorem toNat_of_machineWord? {n : Nat} {w : UInt64} (word : machineWord? n = some w) :
    w.toNat = n := by
  unfold machineWord? at word
  split at word
  · next small =>
    cases word
    exact UInt64.toNat_ofNat_of_lt' small
  · cases word

theorem machineWord?_eq_none {n : Nat} (large : 0x10000000000000000 ≤ n) :
    machineWord? n = none :=
  if_neg (Nat.not_lt.mpr large)

/-- The word of 32 bits of a number, if there is one. -/
def longWord? (n : Nat) : Option UInt32 :=
  if n < 0x100000000 then some (UInt32.ofNat n) else none

theorem longWord?_eq_some {n : Nat} (small : n < 0x100000000) :
    ∃ w, longWord? n = some w ∧ w.toNat = n :=
  ⟨UInt32.ofNat n, if_pos small, UInt32.toNat_ofNat_of_lt' small⟩

theorem longWord?_eq_none {n : Nat} (large : 0x100000000 ≤ n) : longWord? n = none :=
  if_neg (Nat.not_lt.mpr large)

/-- The difference of two machine words, if it is one. -/
def difference? (a b : UInt64) : Option UInt64 := if b ≤ a then some (a - b) else none

end Retro24
