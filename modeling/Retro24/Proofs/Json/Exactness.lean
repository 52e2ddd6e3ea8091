/-
  File:      Retro24/Proofs/Json/Exactness.lean
  Subject:   Exactly which texts are read as strings, numbers and names.

  * `Reads`: a reader takes the texts of a datum, and what it takes is one of them.
  * `readEscape_iff`, `readString_iff`, `reads_text`: strings.
  * `NoInteger`: what is read from a fraction or an exponent is no integer; `reads_nat`: a natural
    number below a bound is read from its digits, and from nothing else.
  * `NameText`, `reads_name`: one of a table of choices, as a string or as an object with that key.
  * `Reads.whole`: whole texts.
-/
import Retro24.Proofs.Json.Passing
import Retro24.Proofs.Json.Records

namespace Retro24.Json

variable {rest : List Char}

/-- A reader takes the texts of a datum, with spaces in front of them, where nothing follows that
    could belong to them and they are not longer than a limit; and what it takes is such a text. -/
structure Reads {α : Type} (limit : Nat) (read : List Char → Read α)
    (text : List Char → α → Prop) : Prop where
  complete {s v rest : List Char} {x : α} (spaces : Spaces s) (written : text v x) (ends : Ends rest)
    (room : v.length ≤ limit) : read (s ++ (v ++ rest)) = .ok (x, rest)
  sound {cs rest : List Char} {x : α} (done : read cs = .ok (x, rest)) :
    ∃ s v, Spaces s ∧ text v x ∧ cs = s ++ (v ++ rest)

/-- A text is that of one datum only. -/
theorem Reads.unique {α : Type} {limit : Nat} {read : List Char → Read α}
    {text : List Char → α → Prop} (reads : Reads limit read text) {v : List Char}
    (room : v.length ≤ limit) {x y : α} (left : text v x) (right : text v y) : x = y := by
  have first := reads.complete spaces_nil left ends_nil room
  rw [reads.complete spaces_nil right ends_nil room] at first
  cases first
  rfl

theorem Reads.congr {α : Type} {limit : Nat} {read : List Char → Read α}
    {text other : List Char → α → Prop} (reads : Reads limit read text)
    (same : ∀ v x, text v x ↔ other v x) : Reads limit read other := by
  have equal : text = other := funext fun v => funext fun x => propext (same v x)
  exact equal ▸ reads

/-- What is read goes where it is put. -/
theorem Reads.map {α σ : Type} {limit : Nat} {read : List Char → Read α}
    {text : List Char → α → Prop} (reads : Reads limit read text) (put : α → σ) :
    Reads limit (fun cs => (read cs).map fun (x, rest) => (put x, rest))
      fun v y => ∃ x, text v x ∧ put x = y := by
  constructor
  · rintro s v rest _ spaces ⟨x, written, rfl⟩ ends room
    rw [reads.complete spaces written ends room]
    rfl
  · intro cs rest y done
    obtain ⟨⟨x, behind⟩, result, put⟩ := map_eq_ok_iff.mp done
    cases put
    obtain ⟨s, v, spaces, written, same⟩ := reads.sound result
    exact ⟨s, v, spaces, ⟨x, written, rfl⟩, same⟩

/-! ## 1. Strings -/

/-- The first half of a surrogate pair is not the second one. -/
theorem isTrailing_of_isLeading {n : Nat} (leads : isLeading n = true) : isTrailing n = false := by
  simp only [isLeading, isTrailing, Bool.and_eq_true, decide_eq_true_eq, Bool.and_eq_false_iff,
    decide_eq_false_iff_not] at leads ⊢
  omega

theorem readTrailing_iff {first : Nat} {cs : List Char} {c : Char} :
    readTrailing first cs = .ok (c, rest) ↔ ∃ ds second, CodeUnit ds second ∧
      isTrailing second = true ∧ c = pairChar first second ∧ cs = '\\' :: 'u' :: (ds ++ rest) := by
  constructor
  · intro done
    unfold readTrailing at done
    split at done
    · next digits =>
      split at done
      · cases done
      · next second behind read =>
        split at done
        · next trails =>
          obtain ⟨rfl, rfl⟩ := Prod.mk.inj (Except.ok.inj done)
          obtain ⟨ds, unit, rfl⟩ := hexEscape_iff.mp read
          exact ⟨ds, second, unit, trails, rfl, rfl⟩
        · cases done
    all_goals cases done
  · rintro ⟨ds, second, unit, trails, same, rfl⟩
    have read : hexEscape (ds ++ rest) = .ok (second, rest) := hexEscape_iff.mpr ⟨ds, unit, rfl⟩
    simp only [readTrailing, read, trails, if_true, same]

theorem readUnicode_iff {cs : List Char} {c : Char} :
    readUnicode cs = .ok (c, rest) ↔ ∃ e, Escape ('u' :: e) c ∧ cs = e ++ rest := by
  constructor
  · intro done
    unfold readUnicode at done
    split at done
    · cases done
    · next n behind read =>
      obtain ⟨ds, unit, rfl⟩ := hexEscape_iff.mp read
      split at done
      · cases done
      · next trails =>
        split at done
        · next leads =>
          obtain ⟨es, second, others, trails, same, rfl⟩ := readTrailing_iff.mp done
          rw [same]
          refine ⟨_, .pair unit leads others trails, ?_⟩
          rw [List.append_assoc]
          rfl
        · next leads =>
          obtain ⟨rfl, rfl⟩ := Prod.mk.inj (Except.ok.inj done)
          exact ⟨ds, .single unit (Bool.not_eq_true _ ▸ leads) (Bool.not_eq_true _ ▸ trails), rfl⟩
  · rintro ⟨e, escape, rfl⟩
    cases escape with
    | short known => cases known
    | single unit leads trails =>
      have read : hexEscape (e ++ rest) = .ok (_, rest) := hexEscape_iff.mpr ⟨e, unit, rfl⟩
      simp only [readUnicode, read, leads, trails, Bool.false_eq_true, if_false]
    | @pair ds es first second unit leads others trails =>
      have read : hexEscape (ds ++ '\\' :: 'u' :: (es ++ rest)) = .ok (first, _) :=
        hexEscape_iff.mpr ⟨ds, unit, rfl⟩
      have pair : readTrailing first ('\\' :: 'u' :: (es ++ rest)) =
          .ok (pairChar first second, rest) :=
        readTrailing_iff.mpr ⟨es, second, others, trails, rfl, rfl⟩
      rw [List.append_assoc]
      simp only [List.cons_append, readUnicode, read, isTrailing_of_isLeading leads, leads,
        Bool.false_eq_true, if_false, if_true, pair]

/-- **An escape is read as the character that it stands for.** -/
theorem readEscape_iff {cs : List Char} {c : Char} :
    readEscape cs = .ok (c, rest) ↔ ∃ e, Escape e c ∧ cs = e ++ rest := by
  constructor
  · intro done
    unfold readEscape at done
    split at done
    · cases done
    · obtain ⟨e, escape, rfl⟩ := readUnicode_iff.mp done
      exact ⟨_, escape, rfl⟩
    · split at done
      · next known =>
        cases done
        exact ⟨_, .short known, rfl⟩
      · cases done
  · rintro ⟨e, escape, rfl⟩
    cases escape with
    | @short e c known =>
      unfold readEscape
      split
      · next none => cases none
      · next unicode =>
        cases unicode
        cases known
      · next one =>
        cases one
        simp only [known]
        rfl
    | single unit leads trails => exact readUnicode_iff.mpr ⟨_, .single unit leads trails, rfl⟩
    | pair unit leads others trails =>
      exact readUnicode_iff.mpr ⟨_, .pair unit leads others trails, rfl⟩

theorem spelled_of_readStringFrom {done cs : List Char} {s : String}
    (read : readStringFrom done cs = .ok (s, rest)) :
    ∃ raw chars, Spelled raw chars ∧ s = String.ofList (done.reverse ++ chars) ∧
      cs = raw ++ '"' :: rest := by
  induction done, cs using readStringFrom.induct with
  | case1 done =>
    rw [readStringFrom] at read
    cases read
  | case2 done behind =>
    rw [readStringFrom] at read
    cases read
    exact ⟨[], [], .nil, by rw [List.append_nil], rfl⟩
  | case3 done cs e failed =>
    rw [readStringFrom] at read
    split at read
    · cases read
    · next passed =>
      rw [failed] at passed
      cases passed
  | case4 done cs c behind escaped ih =>
    rw [readStringFrom_escape escaped] at read
    obtain ⟨raw, chars, spelled, rfl, rfl⟩ := ih read
    obtain ⟨e, escape, rfl⟩ := readEscape_iff.mp escaped
    refine ⟨_, _, .escape escape spelled, ?_, ?_⟩
    · rw [List.reverse_cons, List.append_assoc]
      rfl
    · rw [List.cons_append, List.append_assoc]
  | case5 done c cs quote backslash control =>
    rw [readStringFrom, if_pos control] at read
    · cases read
    · exact quote
    · exact backslash
  | case6 done c cs quote backslash visible ih =>
    rw [readStringFrom_plain quote backslash visible] at read
    obtain ⟨raw, chars, spelled, rfl, rfl⟩ := ih read
    refine ⟨_, _, .plain ⟨quote, backslash, visible⟩ spelled, ?_, rfl⟩
    rw [List.reverse_cons, List.append_assoc]
    rfl

theorem readStringFrom_spelled {raw chars : List Char} (spelled : Spelled raw chars)
    (done rest : List Char) : readStringFrom done (raw ++ '"' :: rest) =
      .ok (String.ofList (done.reverse ++ chars), rest) := by
  induction spelled generalizing done with
  | nil => rw [List.nil_append, readStringFrom, List.append_nil]
  | plain plain _ ih =>
    rw [List.cons_append, readStringFrom_plain plain.quote plain.backslash plain.visible, ih,
      List.reverse_cons, List.append_assoc]
    rfl
  | escape escape _ ih =>
    rw [List.cons_append, List.append_assoc,
      readStringFrom_escape (readEscape_iff.mpr ⟨_, escape, rfl⟩), ih, List.reverse_cons,
      List.append_assoc]
    rfl

/-- **A string is read from what it is spelled as, and from nothing else.** -/
theorem readString_iff {cs : List Char} {s : String} :
    readString cs = .ok (s, rest) ↔ ∃ raw, Spelled raw s.toList ∧ cs = raw ++ '"' :: rest := by
  rw [readString]
  constructor
  · intro read
    obtain ⟨raw, chars, spelled, rfl, rfl⟩ := spelled_of_readStringFrom read
    exact ⟨raw, by rwa [List.reverse_nil, List.nil_append, String.toList_ofList], rfl⟩
  · rintro ⟨raw, spelled, rfl⟩
    rw [readStringFrom_spelled spelled, List.reverse_nil, List.nil_append, String.ofList_toList]

theorem readString_spelled {raw : List Char} {s : String} (spelled : Spelled raw s.toList)
    (rest : List Char) : readString (raw ++ '"' :: rest) = .ok (s, rest) :=
  readString_iff.mpr ⟨raw, spelled, rfl⟩

/-- **Texts are read exactly.** -/
theorem reads_text (limit : Nat) (expected : String) : Reads limit (readText expected) IsText := by
  constructor
  · rintro s v rest x spaces ⟨raw, spelled, rfl⟩ - -
    have quote : isSpace '"' = false := rfl
    rw [quotedText_append]
    simp only [readText, skipSpace_append spaces, skipSpace_cons quote]
    exact readString_spelled spelled rest
  · intro cs rest x done
    obtain ⟨s, spaces, front⟩ := exists_spaces cs
    unfold readText at done
    dsimp only at done
    split at done
    · next quote =>
      obtain ⟨raw, spelled, rfl⟩ := readString_iff.mp done
      refine ⟨s, _, spaces, ⟨raw, spelled, rfl⟩, ?_⟩
      rw [quotedText_append, ← quote, ← front]
    · cases done

/-! ## 2. Numbers -/

/-- What was read is no integer. -/
def NoInteger (x : Read Number) : Prop := ∀ i rest, x ≠ .ok (.integer i, rest)

theorem noInteger_error (e : Failure) : NoInteger (.error e) := nofun

theorem noInteger_real (x : Float) (rest : List Char) : NoInteger (.ok (.real x, rest)) := nofun

theorem noInteger_finish (negative : Bool) (significand : Nat) (exponent : Int) (cs : List Char) :
    NoInteger (finish negative significand exponent cs) := by
  unfold finish
  split
  · exact noInteger_real _ _
  · exact noInteger_error _

theorem noInteger_exponentDigits (negative : Bool) (significand : Nat) (start : Int) (down : Bool)
    (exponent : Nat) (cs : List Char) :
    NoInteger (readExponentDigits negative significand start down exponent cs) := by
  induction cs generalizing exponent with
  | nil => exact noInteger_finish _ _ _ _
  | cons c cs ih =>
    unfold readExponentDigits
    split
    · exact noInteger_finish _ _ _ _
    · dsimp only
      split
      · split
        · exact noInteger_error _
        · exact noInteger_real _ _
      · exact ih _

theorem noInteger_exponent (negative : Bool) (significand : Nat) (start : Int) (cs : List Char) :
    NoInteger (readExponent negative significand start cs) := by
  unfold readExponent
  split
  all_goals
    split
    · exact noInteger_error _
    · split
      · exact noInteger_error _
      · exact noInteger_exponentDigits _ _ _ _ _ _

theorem noInteger_tail (negative : Bool) (significand : Nat) (exponent : Int) (cs : List Char) :
    NoInteger (readTail negative significand exponent cs) := by
  unfold readTail
  split
  · exact noInteger_exponent _ _ _ _
  · exact noInteger_exponent _ _ _ _
  · exact noInteger_finish _ _ _ _

theorem noInteger_fractionDigits (negative : Bool) (significand : Nat) (exponent : Int) (any : Bool)
    (cs : List Char) : NoInteger (readFractionDigits negative significand exponent any cs) := by
  induction cs generalizing significand exponent any with
  | nil =>
    unfold readFractionDigits
    split
    · exact noInteger_tail _ _ _ _
    · exact noInteger_error _
  | cons c cs ih =>
    unfold readFractionDigits
    split
    · dsimp only
      split
      · exact ih _ _ _
      · exact noInteger_tail _ _ _ _
    · split
      · exact noInteger_tail _ _ _ _
      · exact noInteger_error _

theorem noInteger_longInteger (negative : Bool) (significand : Nat) (exponent : Int)
    (cs : List Char) : NoInteger (readLongInteger negative significand exponent cs) := by
  induction cs generalizing exponent with
  | nil => exact noInteger_finish _ _ _ _
  | cons c cs ih =>
    unfold readLongInteger
    split
    · exact ih _
    · split
      · exact noInteger_fractionDigits _ _ _ _ _
      · exact noInteger_tail _ _ _ _

/-- What is read as an integer is over behind its digits. -/
theorem integer_of_readAfterInteger {negative : Bool} {n : Nat} {i : Int} {cs : List Char}
    (read : readAfterInteger negative n cs = .ok (.integer i, rest)) :
    cs = rest ∧ i = (if negative then -(n : Int) else n) ∧ (negative = true → n ≠ 0) := by
  unfold readAfterInteger at read
  split at read
  · exact absurd read (noInteger_fractionDigits _ _ _ _ _ _ _)
  · exact absurd read (noInteger_exponent _ _ _ _ _ _)
  · exact absurd read (noInteger_exponent _ _ _ _ _ _)
  · split at read
    · split at read
      · cases read
      · next negated kept =>
        cases read
        rw [if_pos negated]
        exact ⟨rfl, rfl, fun _ zero => kept (.inl zero)⟩
    · next positive =>
      cases read
      rw [if_neg positive]
      exact ⟨rfl, rfl, fun negated => absurd negated positive⟩

theorem isDigit_of_digit? {c : Char} {d : Nat} (value : digit? c = some d) :
    c.isDigit = true ∧ d = c.toNat - 48 := by
  unfold digit? at value
  split at value
  · next digit => exact ⟨digit, (Option.some.inj value).symm⟩
  · cases value

theorem integer_of_readIntegerDigits {negative : Bool} {n : Nat} {i : Int} {cs : List Char}
    (read : readIntegerDigits negative n cs = .ok (.integer i, rest)) :
    ∃ ds, (∀ d ∈ ds, d.isDigit = true) ∧ cs = ds ++ rest ∧
      readAfterInteger negative (Nat.ofDigitChars 10 ds n) rest = .ok (.integer i, rest) := by
  induction cs generalizing n with
  | nil =>
    rw [readIntegerDigits] at read
    obtain ⟨rfl, -⟩ := integer_of_readAfterInteger read
    exact ⟨[], List.forall_mem_nil _, rfl, read⟩
  | cons c cs ih =>
    rw [readIntegerDigits] at read
    split at read
    · next d value =>
      obtain ⟨digit, rfl⟩ := isDigit_of_digit? value
      dsimp only at read
      split at read
      · obtain ⟨ds, digits, rfl, atEnd⟩ := ih read
        refine ⟨c :: ds, ?_, rfl, ?_⟩
        · intro d inside
          rcases List.mem_cons.mp inside with rfl | behind
          · exact digit
          · exact digits d behind
        · rw [Nat.ofDigitChars_cons]
          exact atEnd
      · exact absurd read (noInteger_longInteger _ _ _ _ _ _)
    · obtain ⟨rfl, -⟩ := integer_of_readAfterInteger read
      exact ⟨[], List.forall_mem_nil _, rfl, read⟩

/-- A digit is the one that its value is written as. -/
theorem digitChar_value {c : Char} (digit : c.isDigit = true) :
    c.toNat - 48 < 10 ∧ Nat.digitChar (c.toNat - 48) = c := by
  obtain ⟨low, high⟩ := Char.isDigit_iff_toNat.mp digit
  have low : 48 ≤ c.toNat := low
  have high : c.toNat ≤ 57 := high
  have small : c.toNat - 48 < 10 := by omega
  refine ⟨small, Char.toNat_inj.mp ?_⟩
  rw [Nat.toNat_digitChar_of_lt_ten small]
  omega

/-- Digits behind those of a number are the digits of the number that they make of it. -/
theorem toDigits_ofDigitChars {ds : List Char} (digits : ∀ d ∈ ds, d.isDigit = true) {n : Nat}
    (positive : 0 < n) : Nat.toDigits 10 (Nat.ofDigitChars 10 ds n) = Nat.toDigits 10 n ++ ds := by
  induction ds generalizing n with
  | nil => rw [Nat.ofDigitChars_nil, List.append_nil]
  | cons c ds ih =>
    obtain ⟨small, same⟩ := digitChar_value (digits c List.mem_cons_self)
    have next : Nat.toDigits 10 (10 * n + (c.toNat - 48)) = Nat.toDigits 10 n ++ [c] := by
      rw [← Nat.toDigits_append_toDigits (by decide) positive small,
        Nat.toDigits_of_lt_base small, same]
    rw [Nat.ofDigitChars_cons]
    refine (ih (fun d inside => digits d (List.mem_cons_of_mem c inside)) (by omega)).trans ?_
    show Nat.toDigits 10 (10 * n + (c.toNat - 48)) ++ ds = _
    rw [next, List.append_assoc]
    rfl

/-- **Integers are read from their digits only.** -/
theorem integer_of_readNumber {negative : Bool} {i : Int} {cs : List Char}
    (read : readNumber negative cs = .ok (.integer i, rest)) :
    ∃ n, cs = Nat.toDigits 10 n ++ rest ∧
      readAfterInteger negative n rest = .ok (.integer i, rest) := by
  have zero {cs : List Char} (read : readAfterInteger negative 0 cs = .ok (.integer i, rest)) :
      ∃ n, '0' :: cs = Nat.toDigits 10 n ++ rest ∧
        readAfterInteger negative n rest = .ok (.integer i, rest) := by
    obtain ⟨rfl, -⟩ := integer_of_readAfterInteger read
    exact ⟨0, rfl, read⟩
  unfold readNumber at read
  split at read
  · cases read
  · split at read
    · split at read
      · cases read
      · exact zero read
    · exact zero read
  · next c cs positive =>
    split at read
    · next d value =>
      obtain ⟨digit, rfl⟩ := isDigit_of_digit? value
      obtain ⟨ds, digits, rfl, atEnd⟩ := integer_of_readIntegerDigits read
      obtain ⟨small, same⟩ := digitChar_value digit
      have head : 0 < c.toNat - 48 := by
        refine Nat.pos_of_ne_zero fun none => positive ?_
        rw [← same, none]
        rfl
      refine ⟨_, ?_, atEnd⟩
      rw [toDigits_ofDigitChars digits head, Nat.toDigits_of_lt_base small, same]
      rfl
    · cases read

/-- The text of a natural number below a bound. -/
def IsNat (bound : Nat) (v : List Char) (n : Nat) : Prop := v = Nat.toDigits 10 n ∧ n < bound

theorem IsNat.written {bound n : Nat} {v : List Char} (number : IsNat bound v n) :
    Written .value v := by
  obtain ⟨rfl, -⟩ := number
  have whole : Whole (Nat.toDigits 10 n) := by
    by_cases zero : n = 0
    · rw [zero]
      exact .zero
    · obtain ⟨c, ds, written, -⟩ := toDigits_eq_cons n
      have digits : Digits (c :: ds) := by
        refine ⟨List.cons_ne_nil _ _, fun d inside => ?_⟩
        exact Nat.isDigit_of_mem_toDigits (by decide) (by decide) (written ▸ inside)
      rw [written]
      exact .long digits (toDigits_head (Nat.pos_of_ne_zero zero) written)
  have numeral := Numeral.mk whole .none .none
  rw [List.append_nil, List.append_nil] at numeral
  exact .scalar (.number numeral)

theorem readNat_of_skipSpace {bound : Nat} {expected : String} {cs ds : List Char}
    (same : skipSpace cs = skipSpace ds) :
    readNat bound expected cs = readNat bound expected ds := by
  simp only [readNat, same]

/-- What is read as a natural number is an integer below the bound. -/
theorem integer_of_decoded {bound n : Nat} {expected : String} {x : Read Number}
    (read : (x.bind fun (n, rest) => orMismatch ((Value.number n).decodeNat bound expected) rest) =
      .ok (n, rest)) : x = .ok (.integer n, rest) ∧ n < bound := by
  cases x with
  | error e => cases read
  | ok result =>
    obtain ⟨number, behind⟩ := result
    cases value : (Value.number number).decodeNat bound expected with
    | error m =>
      simp only [Except.bind, value, orMismatch] at read
      cases read
    | ok n =>
      simp only [Except.bind, value, orMismatch] at read
      cases read
      obtain ⟨same, below⟩ := decodeNat_eq_ok_iff.mp value
      cases same
      exact ⟨rfl, below⟩

/-- **Natural numbers below a bound are read exactly.** -/
theorem reads_nat (limit : Nat) {bound : Nat} (expected : String)
    (word : bound ≤ 0x10000000000000000) : Reads limit (readNat bound expected) (IsNat bound) := by
  constructor
  · rintro s v rest n spaces ⟨rfl, below⟩ ends -
    refine (readNat_of_skipSpace ?_).trans (readNat_written expected 0 ends below word)
    rw [skipSpace_append spaces, skipSpace_space]
    rfl
  · intro cs rest n done
    obtain ⟨s, spaces, front⟩ := exists_spaces cs
    unfold readNat at done
    dsimp only at done
    split at done
    · obtain ⟨read, below⟩ := integer_of_decoded done
      obtain ⟨m, -, read⟩ := integer_of_readNumber read
      obtain ⟨-, negated, positive⟩ := integer_of_readAfterInteger read
      have := positive rfl
      rw [if_pos rfl] at negated
      omega
    · split at done
      · obtain ⟨read, below⟩ := integer_of_decoded done
        obtain ⟨m, digits, read⟩ := integer_of_readNumber read
        obtain ⟨-, same, -⟩ := integer_of_readAfterInteger read
        cases same
        exact ⟨s, _, spaces, ⟨rfl, below⟩, digits ▸ front⟩
      · cases done
    · cases done

/-! ## 3. Names -/

section Names

variable {α : Type} {choices : List (String × α)}

/-- The text of one of a table of choices: its name, or an object with its name as the only key and
    nothing under it. -/
inductive NameText (choices : List (String × α)) : List Char → α → Prop where
  | alone {v : List Char} {name : String} {x : α} (named : IsText v name)
      (chosen : lookup? name choices = some x) : NameText choices v x
  | keyed {s v t u w : List Char} {name : String} {x : α} (before : Spaces s)
      (named : IsText v name) (chosen : lookup? name choices = some x) (between : Spaces t)
      (behind : Spaces u) (last : Spaces w) :
      NameText choices
        ('{' :: (s ++ (v ++ (t ++ ':' :: (u ++ 'n' :: 'u' :: 'l' :: 'l' :: (w ++ ['}'])))))) x

theorem NameText.written {v : List Char} {x : α} (name : NameText choices v x) :
    Written .value v := by
  cases name with
  | alone named chosen => exact named.written
  | keyed before named chosen between behind last =>
    have ended : Members false [] (_ ++ ['}']) := .ended last
    have members := Members.member (.first before) named between behind (.scalar .null) ended
    exact .container (c := .object) members.written

theorem choose_eq_ok_iff {name : String} {x : α} :
    Value.choose choices name = .ok x ↔ lookup? name choices = some x := by
  unfold Value.choose
  cases lookup? name choices with
  | none => exact ⟨nofun, nofun⟩
  | some y => rw [Except.ok.injEq, Option.some.injEq]

theorem orMismatch_eq_ok_iff {d : Decoded α} {cs : List Char} {x : α} :
    orMismatch d cs = .ok (x, rest) ↔ d = .ok x ∧ cs = rest := by
  cases d with
  | error m => exact ⟨nofun, nofun⟩
  | ok y => rw [orMismatch, Except.ok.injEq, Prod.mk.injEq, Except.ok.injEq]

theorem readUnit_iff {cs : List Char} : readUnit cs = .ok rest ↔
    ∃ s, Spaces s ∧ cs = s ++ 'n' :: 'u' :: 'l' :: 'l' :: rest := by
  constructor
  · intro done
    obtain ⟨s, spaces, front⟩ := exists_spaces cs
    unfold readUnit at done
    dsimp only at done
    split at done
    · next null =>
      refine ⟨s, spaces, ?_⟩
      rw [front, null, expectWord_iff.mp done]
      rfl
    · cases done
  · rintro ⟨s, spaces, rfl⟩
    have letter : isSpace 'n' = false := rfl
    simp only [readUnit, skipSpace_append spaces, skipSpace_cons letter]
    exact expectWord_iff.mpr rfl

theorem readName_nameText {s v : List Char} {x : α} (spaces : Spaces s)
    (written : NameText choices v x) (rest : List Char) :
    readName choices (s ++ (v ++ rest)) = .ok (x, rest) := by
  cases written with
  | alone named chosen =>
    obtain ⟨raw, spelled, rfl⟩ := named
    have quote : isSpace '"' = false := rfl
    rw [quotedText_append]
    simp only [readName, skipSpace_append spaces, skipSpace_cons quote,
      readString_spelled spelled, Except.bind]
    exact orMismatch_eq_ok_iff.mpr ⟨choose_eq_ok_iff.mpr chosen, rfl⟩
  | @keyed s' v t u w name _ before named chosen between behind last =>
    have brace : isSpace '{' = false := rfl
    have bracket : isSpace '}' = false := rfl
    have tail : Ends (':' :: (u ++ 'n' :: 'u' :: 'l' :: 'l' :: (w ++ '}' :: rest))) :=
      ends_cons rfl (by decide) (by decide) (by decide)
    have read := (reads_text v.length "variant identifier").complete before named
      (ends_spaces between tail) (Nat.le_refl _)
    have colon := expectColon_iff.mpr
      ⟨t, between, rfl (a := t ++ ':' :: (u ++ 'n' :: 'u' :: 'l' :: 'l' :: (w ++ '}' :: rest)))⟩
    have null := readUnit_iff.mpr
      ⟨u, behind, rfl (a := u ++ 'n' :: 'u' :: 'l' :: 'l' :: (w ++ '}' :: rest))⟩
    simp only [List.cons_append, List.append_assoc, List.nil_append, readName,
      skipSpace_append spaces, skipSpace_cons brace, read, choose_eq_ok_iff.mpr chosen, orMismatch,
      colon, Except.bind, null, skipSpace_append last, skipSpace_cons bracket]

theorem nameText_of_readName {cs : List Char} {x : α}
    (done : readName choices cs = .ok (x, rest)) :
    ∃ s v, Spaces s ∧ NameText choices v x ∧ cs = s ++ (v ++ rest) := by
  obtain ⟨s, spaces, front⟩ := exists_spaces cs
  unfold readName at done
  dsimp only at done
  split at done
  · cases done
  · next r quote =>
    cases read : readString r with
    | error e =>
      rw [read] at done
      cases done
    | ok result =>
      obtain ⟨name, behind⟩ := result
      rw [read] at done
      obtain ⟨chosen, rfl⟩ := orMismatch_eq_ok_iff.mp done
      obtain ⟨raw, spelled, rfl⟩ := readString_iff.mp read
      refine ⟨s, _, spaces, .alone ⟨raw, spelled, rfl⟩ (choose_eq_ok_iff.mp chosen), ?_⟩
      rw [quotedText_append, ← quote, ← front]
  · next r brace =>
    split at done
    · cases done
    · next name behind read =>
      split at done
      · cases done
      · next y after mismatch =>
        split at done
        · cases done
        · next left passed =>
          split at done
          · next closed =>
            cases done
            obtain ⟨s', v, before, named, rfl⟩ := (reads_text 0 _).sound read
            obtain ⟨chosen, rfl⟩ := orMismatch_eq_ok_iff.mp mismatch
            obtain ⟨t, _, between, rfl, null⟩ := behind_colon passed
            obtain ⟨u, below, rfl⟩ := readUnit_iff.mp null
            obtain ⟨w, last, ended⟩ := exists_spaces left
            refine ⟨s, _, spaces,
              .keyed before named (choose_eq_ok_iff.mp chosen) between below last, ?_⟩
            rw [front, brace, ended, closed]
            simp only [List.cons_append, List.append_assoc, List.nil_append]
          · cases done
          · cases done
  · cases done

/-- **Names are read exactly.** -/
theorem reads_name (limit : Nat) (choices : List (String × α)) :
    Reads limit (readName choices) (NameText choices) where
  complete spaces written _ _ := readName_nameText spaces written _
  sound done := nameText_of_readName done

end Names

/-! ## 4. Whole texts -/

theorem expectEnd_eq_ok_iff {cs : List Char} : expectEnd cs = .ok () ↔ Spaces cs := by
  constructor
  · intro atEnd
    obtain ⟨s, spaces, same⟩ := exists_spaces cs
    unfold expectEnd at atEnd
    split at atEnd
    · next none =>
      rw [none, List.append_nil] at same
      exact same ▸ spaces
    · cases atEnd
  · intro spaces
    have none := skipSpace_append spaces []
    rw [List.append_nil] at none
    rw [expectEnd, none]
    rfl

theorem readAll_eq_ok_iff {α : Type} {read : List Char → Read α} {text : String} {x : α} :
    readAll read text = .ok x ↔ ∃ rest, read text.toList = .ok (x, rest) ∧ Spaces rest := by
  simp only [readAll]
  cases read text.toList with
  | error e =>
    constructor
    · intro failed
      cases failed
    · rintro ⟨_, failed, -⟩
      cases failed
  | ok result =>
    obtain ⟨y, rest⟩ := result
    constructor
    · intro whole
      dsimp only at whole
      cases atEnd : expectEnd rest with
      | error e =>
        rw [atEnd] at whole
        cases whole
      | ok =>
        rw [atEnd] at whole
        cases whole
        exact ⟨rest, rfl, expectEnd_eq_ok_iff.mp atEnd⟩
    · rintro ⟨_, same, atEnd⟩
      cases same
      dsimp only
      rw [expectEnd_eq_ok_iff.mpr atEnd]
      rfl

/-- **A whole text holds a datum** where it is the text of the datum with nothing but spaces
    around. -/
theorem Reads.whole {α : Type} {whole : String} {read : List Char → Read α}
    {text : List Char → α → Prop} (reads : Reads whole.length read text) {x : α} :
    readAll read whole = .ok x ↔
      ∃ s v t, Spaces s ∧ text v x ∧ Spaces t ∧ whole.toList = s ++ (v ++ t) := by
  rw [readAll_eq_ok_iff]
  constructor
  · rintro ⟨t, done, after⟩
    obtain ⟨s, v, before, written, same⟩ := reads.sound done
    exact ⟨s, v, t, before, written, after, same⟩
  · rintro ⟨s, v, t, before, written, after, same⟩
    have ends : Ends (t ++ []) := ends_spaces after ends_nil
    rw [List.append_nil] at ends
    have room : v.length ≤ whole.length := by
      rw [← String.length_toList, same]
      simp only [List.length_append]
      omega
    refine ⟨t, ?_, after⟩
    rw [same]
    exact reads.complete before written ends room

end Retro24.Json
