/-
  File:      Retro24/Json/Lexeme.lean
  Subject:   Spaces, words and strings, read from the front of a text.

  * `skipSpace`: the four characters that may stand between the parts of a text.
  * `expectWord`: the letters of `null`, `true` and `false` behind the first.
  * `hexEscape`: four hexadecimal digits of an escape.
  * `readString`: a string behind its opening quote; two surrogates in a row make one character, and
    one alone is refused. `readString_length` says that it takes something off the text.
  * `skipString`: a string without its value, in which any escape of four digits will do.
-/
import Retro24.Json.Numeral

namespace Retro24.Json

/-! ## 1. Spaces and words -/

/-- The characters between the parts of a text. -/
def isSpace (c : Char) : Bool := c == ' ' || c == '\n' || c == '\t' || c == '\r'

/-- The rest of a text behind its leading spaces. -/
def skipSpace (cs : List Char) : List Char := cs.dropWhile isSpace

/-- The rest of a text behind the letters of a word. -/
def expectWord : List Char → List Char → Except Failure (List Char)
  | [], cs => .ok cs
  | _ :: _, [] => .error (failure .endInValue [] 0)
  | w :: ws, c :: cs =>
    if c = w then expectWord ws cs else .error (failure .expectedWord (c :: cs) 1)

/-! ## 2. Escapes -/

/-- The value of a hexadecimal digit with a letter of either size. -/
def hexValue? (c : Char) : Option Nat :=
  if '0' ≤ c ∧ c ≤ '9' then some (c.toNat - 48)
  else if 'A' ≤ c ∧ c ≤ 'F' then some (c.toNat - 55)
  else if 'a' ≤ c ∧ c ≤ 'f' then some (c.toNat - 87)
  else none

/-- The bytes of a text, as far as four of them. -/
def bytesLeft (cs : List Char) : Nat :=
  (cs.take 4).foldl (fun n c => n + c.utf8Size) 0

/-- The code unit of four hexadecimal digits. Four bytes are looked at together: with fewer left the
    text has ended, and otherwise the issue stands behind them. -/
def hexEscape (cs : List Char) : Read Nat :=
  match cs with
  | a :: b :: c :: d :: rest =>
    match hexValue? a, hexValue? b, hexValue? c, hexValue? d with
    | some w, some x, some y, some z => .ok (((w * 16 + x) * 16 + y) * 16 + z, rest)
    | _, _, _, _ => .error (failure .invalidEscape cs 4)
  | _ =>
    if 4 ≤ bytesLeft cs then .error (failure .invalidEscape cs 4)
    else .error (failure .endInString [] 0)

theorem hexEscape_length {cs rest : List Char} {n : Nat} (h : hexEscape cs = .ok (n, rest)) :
    rest.length < cs.length := by
  unfold hexEscape at h
  split at h
  · split at h
    · cases h
      simp only [List.length_cons]
      omega
    · cases h
  · split at h <;> cases h

/-- Whether a code unit is the first half of a surrogate pair. -/
def isLeading (n : Nat) : Bool := 0xD800 ≤ n && n ≤ 0xDBFF

/-- Whether a code unit is the second half of a surrogate pair. -/
def isTrailing (n : Nat) : Bool := 0xDC00 ≤ n && n ≤ 0xDFFF

/-- The character of two surrogates. -/
def pairChar (first second : Nat) : Char :=
  Char.ofNat ((first - 0xD800) * 0x400 + (second - 0xDC00) + 0x10000)

/-- The second half of a surrogate pair, and the character of both. -/
def readTrailing (first : Nat) (cs : List Char) : Read Char :=
  match cs with
  | '\\' :: 'u' :: rest =>
    match hexEscape rest with
    | .error e => .error e
    | .ok (second, rest) =>
      if isTrailing second then .ok (pairChar first second, rest)
      else .error (failure .loneSurrogate rest 0)
  | ['\\'] => .error (failure .endInString [] 0)
  | '\\' :: rest => .error (failure .unfinishedSurrogatePair rest 1)
  | [] => .error (failure .endInString [] 0)
  | _ => .error (failure .unfinishedSurrogatePair cs 1)

theorem readTrailing_length {first : Nat} {cs rest : List Char} {c : Char}
    (h : readTrailing first cs = .ok (c, rest)) : rest.length < cs.length := by
  unfold readTrailing at h
  split at h
  · split at h
    · cases h
    · next h' =>
      split at h
      · obtain ⟨-, rfl⟩ := Prod.mk.inj (Except.ok.inj h)
        have := hexEscape_length h'
        simp only [List.length_cons]
        omega
      · cases h
  all_goals cases h

/-- The character of an escape with four digits, read behind its letter. -/
def readUnicode (cs : List Char) : Read Char :=
  match hexEscape cs with
  | .error e => .error e
  | .ok (n, rest) =>
    if isTrailing n then .error (failure .loneSurrogate rest 0)
    else if isLeading n then readTrailing n rest
    else .ok (Char.ofNat n, rest)

theorem readUnicode_length {cs rest : List Char} {c : Char}
    (h : readUnicode cs = .ok (c, rest)) : rest.length < cs.length := by
  unfold readUnicode at h
  split at h
  · cases h
  · next h' =>
    have := hexEscape_length h'
    split at h
    · cases h
    · split at h
      · have := readTrailing_length h
        omega
      · cases h
        omega

/-- The character of an escape of one letter. -/
def shortEscape? : Char → Option Char
  | '"' => some '"'
  | '\\' => some '\\'
  | '/' => some '/'
  | 'b' => some '\x08'
  | 'f' => some '\x0C'
  | 'n' => some '\n'
  | 'r' => some '\r'
  | 't' => some '\t'
  | _ => none

/-- The character of an escape, read behind its backslash. -/
def readEscape (cs : List Char) : Read Char :=
  match cs with
  | [] => .error (failure .endInString [] 0)
  | 'u' :: rest => readUnicode rest
  | c :: rest =>
    match shortEscape? c with
    | some x => .ok (x, rest)
    | none => .error (failure .invalidEscape cs 1)

theorem readEscape_length {cs rest : List Char} {c : Char}
    (h : readEscape cs = .ok (c, rest)) : rest.length < cs.length := by
  unfold readEscape at h
  split at h
  · cases h
  · have := readUnicode_length h
    simp only [List.length_cons]
    omega
  · split at h
    · cases h
      simp
    · cases h

/-! ## 3. Strings -/

/-- The characters of a string up to its closing quote, `done` being those already read, the last
    one first. -/
def readStringFrom (done cs : List Char) : Read String :=
  match cs with
  | [] => .error (failure .endInString [] 0)
  | '"' :: rest => .ok (String.ofList done.reverse, rest)
  | '\\' :: rest =>
    match _h : readEscape rest with
    | .error e => .error e
    | .ok (c, rest') => readStringFrom (c :: done) rest'
  | c :: rest =>
    if c.toNat < 0x20 then .error (failure .controlCharacter cs 1)
    else readStringFrom (c :: done) rest
termination_by cs.length
decreasing_by
  · have := readEscape_length _h
    simp only [List.length_cons]
    omega
  · simp

/-- A string, read behind its opening quote. -/
def readString (cs : List Char) : Read String := readStringFrom [] cs

/-- The rest of a text behind an escape whose backslash was read. -/
def skipEscape (cs : List Char) : Except Failure (List Char) :=
  match cs with
  | [] => .error (failure .endInString [] 0)
  | 'u' :: rest => (hexEscape rest).map Prod.snd
  | c :: rest =>
    match shortEscape? c with
    | some _ => .ok rest
    | none => .error (failure .invalidEscape cs 1)

theorem skipEscape_length {cs rest : List Char} (h : skipEscape cs = .ok rest) :
    rest.length < cs.length := by
  unfold skipEscape at h
  split at h
  · cases h
  · next tail =>
    match h' : hexEscape tail with
    | .error e => rw [h'] at h; cases h
    | .ok (n, rest') =>
      rw [h'] at h
      cases h
      have := hexEscape_length h'
      simp only [List.length_cons]
      omega
  · split at h
    · cases h
      simp
    · cases h

/-- The rest of a text behind a string whose opening quote was read. -/
def skipString (cs : List Char) : Except Failure (List Char) :=
  match cs with
  | [] => .error (failure .endInString [] 0)
  | '"' :: rest => .ok rest
  | '\\' :: rest =>
    match _h : skipEscape rest with
    | .error e => .error e
    | .ok rest' => skipString rest'
  | c :: rest =>
    if c.toNat < 0x20 then .error (failure .controlCharacter cs 0) else skipString rest
termination_by cs.length
decreasing_by
  · have := skipEscape_length _h
    simp only [List.length_cons]
    omega
  · simp

end Retro24.Json
