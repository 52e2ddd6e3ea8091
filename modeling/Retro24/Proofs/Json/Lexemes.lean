/-
  File:      Retro24/Proofs/Json/Lexemes.lean
  Subject:   Spaces, strings and integers that were written are read back.

  * `spaces_newLine`: a new line with its indentation is nothing but spaces.
  * `readStringFrom_escapeChar`, `readString_escaped`: a character behind its escape, and from it a
    whole string.
  * `Ends`: a rest of a text in front of which an integer is over.
  * `readIntegerDigits_append`, `readNumber_toDigits`: the digits of a number, from the first that is
    no zero on.
-/
import Retro24.Json.Writing
import Retro24.Proofs.Json.Grammar

namespace Retro24.Json

variable {rest : List Char}

/-! ## 1. Spaces -/

theorem skipSpace_cons {c : Char} (h : isSpace c = false) : skipSpace (c :: rest) = c :: rest := by
  unfold skipSpace
  rw [List.dropWhile_cons_of_neg (by rw [h]; exact Bool.false_ne_true)]

/-- A new line with its indentation is nothing but spaces. -/
theorem spaces_newLine (depth : Nat) : Spaces (newLine depth) := by
  intro c inside
  rcases List.mem_cons.mp inside with rfl | inside
  · rfl
  · rw [List.eq_of_mem_replicate inside]
    rfl

/-! ## 2. Strings -/

theorem hexValue?_digitChar {n : Nat} (h : n < 16) : hexValue? (Nat.digitChar n) = some n := by
  decide +revert

/-- The escape of a control character names it by its number. -/
theorem readUnicode_control {c : Char} (h : c.toNat < 0x20) :
    readUnicode ('0' :: '0' :: Nat.digitChar (c.toNat / 16) :: Nat.digitChar (c.toNat % 16) :: rest) =
      .ok (c, rest) := by
  have high : hexValue? (Nat.digitChar (c.toNat / 16)) = some (c.toNat / 16) :=
    hexValue?_digitChar (by omega)
  have low : hexValue? (Nat.digitChar (c.toNat % 16)) = some (c.toNat % 16) :=
    hexValue?_digitChar (by omega)
  have zero : hexValue? '0' = some 0 := rfl
  have number : ((0 * 16 + 0) * 16 + c.toNat / 16) * 16 + c.toNat % 16 = c.toNat := by omega
  -- a control is no half of a surrogate pair
  have trailing : isTrailing c.toNat = false := by
    rw [isTrailing, decide_eq_false (by omega), Bool.false_and]
  have leading : isLeading c.toNat = false := by
    rw [isLeading, decide_eq_false (by omega), Bool.false_and]
  simp only [readUnicode, hexEscape, zero, high, low, number, trailing, leading, Char.ofNat_toNat]
  rfl

theorem readStringFrom_escape {done cs : List Char} {c : Char} (h : readEscape cs = .ok (c, rest)) :
    readStringFrom done ('\\' :: cs) = readStringFrom (c :: done) rest := by
  rw [readStringFrom]
  split
  · next failed =>
    rw [h] at failed
    cases failed
  · next read =>
    rw [h] at read
    cases read
    rfl

theorem readStringFrom_plain {done : List Char} {c : Char} (quote : c ≠ '"') (backslash : c ≠ '\\')
    (visible : ¬c.toNat < 0x20) :
    readStringFrom done (c :: rest) = readStringFrom (c :: done) rest := by
  rw [readStringFrom, if_neg visible]
  · exact quote
  · exact backslash

/-- **A character is read back from its escape.** -/
theorem readStringFrom_escapeChar (done : List Char) (c : Char) :
    readStringFrom done (escapeChar c ++ rest) = readStringFrom (c :: done) rest := by
  unfold escapeChar
  split
  · next h => rw [h]; exact readStringFrom_escape rfl
  next quote =>
  split
  · next h => rw [h]; exact readStringFrom_escape rfl
  next backslash =>
  -- the short escapes of five controls, and the long one of all others
  split
  · next h => rw [h]; exact readStringFrom_escape rfl
  split
  · next h => rw [h]; exact readStringFrom_escape rfl
  split
  · next h => rw [h]; exact readStringFrom_escape rfl
  split
  · next h => rw [h]; exact readStringFrom_escape rfl
  split
  · next h => rw [h]; exact readStringFrom_escape rfl
  split
  · next control => exact readStringFrom_escape (readUnicode_control control)
  · next visible => exact readStringFrom_plain quote backslash visible

theorem readStringFrom_escaped (done cs : List Char) :
    readStringFrom done (cs.flatMap escapeChar ++ '"' :: rest) =
      .ok (String.ofList (done.reverse ++ cs), rest) := by
  induction cs generalizing done with
  | nil => rw [List.flatMap_nil, List.nil_append, List.append_nil, readStringFrom]
  | cons c cs ih =>
    rw [List.flatMap_cons, List.append_assoc, readStringFrom_escapeChar, ih, List.reverse_cons,
      List.append_assoc]
    rfl

/-- **A string is read back.** -/
theorem readString_escaped (s : String) :
    readString (s.toList.flatMap escapeChar ++ '"' :: rest) = .ok (s, rest) := by
  rw [readString, readStringFrom_escaped, List.reverse_nil, List.nil_append, String.ofList_toList]

/-! ## 3. Integers -/

/-- A text in front of which an integer is over. -/
def Ends (rest : List Char) : Prop :=
  ∀ c cs, rest = c :: cs → c.isDigit = false ∧ c ≠ '.' ∧ c ≠ 'e' ∧ c ≠ 'E'

theorem ends_nil : Ends [] := nofun

theorem ends_cons {c : Char} {cs : List Char} (digit : c.isDigit = false) (point : c ≠ '.')
    (small : c ≠ 'e') (large : c ≠ 'E') : Ends (c :: cs) := by
  rintro _ _ ⟨⟩
  exact ⟨digit, point, small, large⟩

/-- The number of digits that are over. -/
theorem readAfterInteger_ends (ends : Ends rest) (negative : Bool) (n : Nat) :
    readAfterInteger negative n rest =
      if negative then
        if n = 0 ∨ 0x8000000000000000 < n then .ok (.real (-n.toUInt64.toFloat), rest)
        else .ok (.integer (-(n : Int)), rest)
      else .ok (.integer n, rest) := by
  unfold readAfterInteger
  split
  · exact absurd rfl (ends _ _ rfl).2.1
  · exact absurd rfl (ends _ _ rfl).2.2.1
  · exact absurd rfl (ends _ _ rfl).2.2.2
  · rfl

theorem le_ofDigitChars (ds : List Char) (n : Nat) : n ≤ Nat.ofDigitChars 10 ds n := by
  rw [Nat.ofDigitChars_eq_ofDigitChars_zero]
  have power : 0 < 10 ^ ds.length := Nat.pow_pos (by decide)
  have grown := Nat.le_mul_of_pos_left n power
  omega

/-- Digits are gathered into their number as long as it has 64 bits. -/
theorem readIntegerDigits_append (ends : Ends rest) (negative : Bool) {ds : List Char}
    (digits : ∀ c ∈ ds, c.isDigit = true) (n : Nat)
    (small : Nat.ofDigitChars 10 ds n < 0x10000000000000000) :
    readIntegerDigits negative n (ds ++ rest) =
      readAfterInteger negative (Nat.ofDigitChars 10 ds n) rest := by
  induction ds generalizing n with
  | nil =>
    rw [List.nil_append, Nat.ofDigitChars_nil]
    cases rest with
    | nil => rfl
    | cons c cs =>
      have noDigit : digit? c = none := by
        refine if_neg ?_
        rw [(ends c cs rfl).1]
        exact Bool.false_ne_true
      simp only [readIntegerDigits, noDigit]
  | cons c ds ih =>
    have digit : digit? c = some (c.toNat - 48) := if_pos (digits c List.mem_cons_self)
    rw [Nat.ofDigitChars_cons] at small ⊢
    have fits : 10 * n + (c.toNat - 48) < 0x10000000000000000 :=
      Nat.lt_of_le_of_lt (le_ofDigitChars ds _) small
    simp only [List.cons_append, readIntegerDigits, digit, if_pos fits]
    exact ih (fun d hd => digits d (List.mem_cons_of_mem c hd)) _ small

/-- No number but zero is written with a zero in front. -/
theorem toDigits_head {n : Nat} (h : 0 < n) {c : Char} {ds : List Char}
    (written : Nat.toDigits 10 n = c :: ds) : c ≠ '0' := by
  induction n using Nat.strongRecOn generalizing ds with
  | ind n ih =>
    by_cases short : n < 10
    · rw [Nat.toDigits_of_lt_base short] at written
      cases written
      rw [Ne, Nat.digitChar_eq_zero]
      omega
    · rw [Nat.toDigits_of_base_le (by decide) (by omega)] at written
      cases front : Nat.toDigits 10 (n / 10) with
      | nil => exact absurd front Nat.toDigits_ne_nil
      | cons d es =>
        rw [front] at written
        cases written
        exact ih (n / 10) (by omega) (by omega) front

/-- **The digits of a number of 64 bits are read back.** -/
theorem readNumber_toDigits (ends : Ends rest) (negative : Bool) {n : Nat}
    (small : n < 0x10000000000000000) :
    readNumber negative (Nat.toDigits 10 n ++ rest) = readAfterInteger negative n rest := by
  by_cases zero : n = 0
  · rw [zero, Nat.toDigits_zero]
    cases rest with
    | nil => rfl
    | cons c cs =>
      simp only [List.cons_append, List.nil_append, readNumber, (ends c cs rfl).1]
      rfl
  · cases written : Nat.toDigits 10 n with
    | nil => exact absurd written Nat.toDigits_ne_nil
    | cons c ds =>
      have number : Nat.ofDigitChars 10 (c :: ds) 0 = n := by
        rw [← written, Nat.ofDigitChars_ten_toDigits]
      have digits : ∀ d ∈ c :: ds, d.isDigit = true := by
        rw [← written]
        exact fun d hd => Nat.isDigit_of_mem_toDigits (by decide) (by decide) hd
      have head : c ≠ '0' := toDigits_head (by omega) written
      have digit : digit? c = some (c.toNat - 48) := if_pos (digits c List.mem_cons_self)
      have number : Nat.ofDigitChars 10 ds (c.toNat - 48) = n := by
        rw [Nat.ofDigitChars_cons, Nat.mul_zero, Nat.zero_add] at number
        exact number
      have read := readIntegerDigits_append ends negative
        (fun d hd => digits d (List.mem_cons_of_mem c hd)) (c.toNat - 48) (number ▸ small)
      rw [List.cons_append, readNumber, digit]
      · rw [number] at read
        exact read
      · exact head

end Retro24.Json
