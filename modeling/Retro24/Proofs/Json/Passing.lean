/-
  File:      Retro24/Proofs/Json/Passing.lean
  Subject:   The values that are passed over are the texts of the grammar, all of them.

  * `expectWord_iff`, `hexEscape_iff`, `skipString_iff`: words and strings.
  * `skipNumber_numeral`, `numeral_of_skipNumber`, `skipScalar_scalar`, `scalar_of_skipScalar`: a
    number is passed over where nothing follows that could belong to it.
  * `skipFrom_written`: a text of a form takes a bounded number of turns, by induction on its
    grammar; `written_of_skipFrom`: what was passed over is a text of the form, by induction on the
    turns.
  * `skipValue_written`, `written_of_skipValue`: values.
-/
import Retro24.Proofs.Json.Grammar
import Retro24.Proofs.Json.RoundTrip

namespace Retro24.Json

variable {rest : List Char}

/-! ## 1. Words and strings -/

/-- **A word is passed over, and nothing else is.** -/
theorem expectWord_iff {word cs : List Char} : expectWord word cs = .ok rest ↔ cs = word ++ rest := by
  induction word generalizing cs with
  | nil =>
    rw [expectWord, Except.ok.injEq]
    rfl
  | cons w word ih =>
    cases cs with
    | nil => exact ⟨nofun, nofun⟩
    | cons c cs =>
      rw [expectWord, List.cons_append, List.cons.injEq]
      by_cases same : c = w
      · rw [if_pos same, ih, and_iff_right same]
      · rw [if_neg same]
        exact ⟨nofun, fun both => absurd both.1 same⟩

/-- **A colon is passed over with the spaces in front of it.** -/
theorem expectColon_iff {cs : List Char} :
    expectColon cs = .ok rest ↔ ∃ s, Spaces s ∧ cs = s ++ ':' :: rest := by
  constructor
  · intro skipped
    obtain ⟨s, spaces, front⟩ := exists_spaces cs
    simp only [expectColon] at skipped
    split at skipped
    · cases skipped
    · next colon =>
      cases skipped
      exact ⟨s, spaces, colon ▸ front⟩
    · cases skipped
  · rintro ⟨s, spaces, rfl⟩
    have colon : isSpace ':' = false := rfl
    simp only [expectColon, skipSpace_append spaces, skipSpace_cons colon]

/-- What is read behind a colon. -/
theorem behind_colon {β : Type} {cs : List Char} {read : List Char → Except Failure β} {x : β}
    (done : (expectColon cs).bind read = .ok x) :
    ∃ s behind, Spaces s ∧ cs = s ++ ':' :: behind ∧ read behind = .ok x := by
  cases colon : expectColon cs with
  | error e =>
    rw [colon] at done
    cases done
  | ok behind =>
    rw [colon] at done
    obtain ⟨s, spaces, rfl⟩ := expectColon_iff.mp colon
    exact ⟨s, behind, spaces, rfl, done⟩

/-- **Four digits are a code unit.** -/
theorem hexEscape_iff {cs : List Char} {n : Nat} :
    hexEscape cs = .ok (n, rest) ↔ ∃ ds, CodeUnit ds n ∧ cs = ds ++ rest := by
  constructor
  · intro read
    unfold hexEscape at read
    split at read
    · split at read
      · next first second third fourth =>
        cases read
        exact ⟨_, .mk first second third fourth, rfl⟩
      · cases read
    · split at read <;> cases read
  · rintro ⟨_, ⟨first, second, third, fourth⟩, rfl⟩
    simp only [List.cons_append, List.nil_append, hexEscape, first, second, third, fourth]

theorem skipString_escape {cs : List Char} (skipped : skipEscape cs = .ok rest) :
    skipString ('\\' :: cs) = skipString rest := by
  rw [skipString]
  split
  · next failed =>
    rw [skipped] at failed
    cases failed
  · next other =>
    rw [skipped] at other
    cases other
    rfl

theorem skipString_plain {c : Char} (plain : Unescaped c) (cs : List Char) :
    skipString (c :: cs) = skipString cs := by
  rw [skipString, if_neg plain.visible]
  · exact plain.quote
  · exact plain.backslash

theorem skipEscape_short {e c : Char} (known : shortEscape? e = some c) (cs : List Char) :
    skipEscape (e :: cs) = .ok cs := by
  unfold skipEscape
  split
  · next none => cases none
  · next unicode =>
    cases unicode
    cases known
  · next one =>
    cases one
    rw [known]

theorem skipEscape_unit {ds : List Char} {n : Nat} (digits : CodeUnit ds n) (cs : List Char) :
    skipEscape ('u' :: (ds ++ cs)) = .ok cs := by
  rw [skipEscape, hexEscape_iff.mpr ⟨ds, digits, rfl⟩]
  rfl

theorem skipEscape_cases {cs : List Char} (skipped : skipEscape cs = .ok rest) :
    (∃ e c, shortEscape? e = some c ∧ cs = e :: rest) ∨
      ∃ ds n, CodeUnit ds n ∧ cs = 'u' :: (ds ++ rest) := by
  unfold skipEscape at skipped
  split at skipped
  · cases skipped
  · next digits =>
    cases read : hexEscape digits with
    | error e =>
      rw [read] at skipped
      cases skipped
    | ok result =>
      obtain ⟨n, behind⟩ := result
      rw [read] at skipped
      cases skipped
      obtain ⟨ds, unit, rfl⟩ := hexEscape_iff.mp read
      exact .inr ⟨ds, n, unit, rfl⟩
  · next letter behind =>
    split at skipped
    · next known =>
      cases skipped
      exact .inl ⟨_, _, known, rfl⟩
    · cases skipped

theorem passed_of_skipString {cs : List Char} (skipped : skipString cs = .ok rest) :
    ∃ raw, Passed raw ∧ cs = raw ++ '"' :: rest := by
  induction cs using skipString.induct with
  | case1 =>
    rw [skipString] at skipped
    cases skipped
  | case2 behind =>
    rw [skipString] at skipped
    cases skipped
    exact ⟨[], .nil, rfl⟩
  | case3 cs e failed =>
    rw [skipString] at skipped
    split at skipped
    · cases skipped
    · next passed =>
      rw [failed] at passed
      cases passed
  | case4 cs behind passed ih =>
    rw [skipString_escape passed] at skipped
    obtain ⟨raw, inside, rfl⟩ := ih skipped
    rcases skipEscape_cases passed with ⟨e, c, known, rfl⟩ | ⟨ds, n, unit, rfl⟩
    · exact ⟨_, .short known inside, rfl⟩
    · refine ⟨_, .unit unit inside, ?_⟩
      rw [List.cons_append, List.cons_append, List.append_assoc]
  | case5 c cs quote backslash control =>
    rw [skipString, if_pos control] at skipped
    · cases skipped
    · exact quote
    · exact backslash
  | case6 c cs quote backslash visible ih =>
    have plain : Unescaped c := ⟨quote, backslash, visible⟩
    rw [skipString_plain plain] at skipped
    obtain ⟨raw, inside, rfl⟩ := ih skipped
    exact ⟨_, .plain plain inside, rfl⟩

theorem skipString_passed {raw : List Char} (passed : Passed raw) (rest : List Char) :
    skipString (raw ++ '"' :: rest) = .ok rest := by
  induction passed with
  | nil => rw [List.nil_append, skipString]
  | plain plain _ ih => rw [List.cons_append, skipString_plain plain, ih]
  | short known _ ih => exact (skipString_escape (skipEscape_short known _)).trans ih
  | unit digits _ ih =>
    rw [List.cons_append, List.cons_append, List.append_assoc,
      skipString_escape (skipEscape_unit digits _), ih]

/-- **The inside of a string is passed over up to its quote, and nothing else is.** -/
theorem skipString_iff {cs : List Char} :
    skipString cs = .ok rest ↔ ∃ raw, Passed raw ∧ cs = raw ++ '"' :: rest := by
  refine ⟨passed_of_skipString, ?_⟩
  rintro ⟨raw, passed, rfl⟩
  exact skipString_passed passed rest

/-! ## 2. Numbers -/

theorem skipDigits_append {ds : List Char} (digits : ∀ c ∈ ds, c.isDigit = true) (cs : List Char) :
    skipDigits (ds ++ cs) = skipDigits cs :=
  List.dropWhile_append_of_pos digits

theorem skipDigits_of_ends (ends : Ends rest) : skipDigits rest = rest := by
  cases rest with
  | nil => rfl
  | cons c cs =>
    refine List.dropWhile_cons_of_neg ?_
    rw [(ends c cs rfl).1]
    exact Bool.false_ne_true

/-- Where no digits are skipped, none stands in front. -/
theorem not_isDigit_of_over {c : Char} {cs : List Char} (atEnd : skipDigits (c :: cs) = c :: cs) :
    ¬c.isDigit = true := by
  intro digit
  have length : (skipDigits cs).length ≤ cs.length := (List.dropWhile_suffix _).length_le
  have skipped : skipDigits (c :: cs) = skipDigits cs := List.dropWhile_cons_of_pos digit
  rw [← skipped, atEnd, List.length_cons] at length
  omega

/-- A digit and those behind it. -/
theorem exists_digits {c : Char} (digit : c.isDigit = true) (cs : List Char) :
    ∃ ds, Digits (c :: ds) ∧ cs = ds ++ skipDigits cs := by
  refine ⟨cs.takeWhile Char.isDigit, ⟨List.cons_ne_nil _ _, ?_⟩,
    List.takeWhile_append_dropWhile.symm⟩
  intro d inside
  rcases List.mem_cons.mp inside with rfl | behind
  · exact digit
  · exact List.all_eq_true.mp List.all_takeWhile d behind

theorem Digits.exists_cons {ds : List Char} (digits : Digits ds) :
    ∃ c others, ds = c :: others ∧ c.isDigit = true ∧ ∀ d ∈ others, d.isDigit = true := by
  obtain ⟨c, others, rfl⟩ := List.exists_cons_of_ne_nil digits.filled
  exact ⟨c, others, rfl, digits.digits c List.mem_cons_self,
    fun d inside => digits.digits d (List.mem_cons_of_mem c inside)⟩

theorem skipExponent_digits {sign ds : List Char} (signed : sign = [] ∨ sign = ['+'] ∨ sign = ['-'])
    (digits : Digits ds) (atEnd : skipDigits rest = rest) :
    skipExponent (sign ++ (ds ++ rest)) = .ok rest := by
  obtain ⟨c, others, rfl, digit, more⟩ := digits.exists_cons
  have behind : skipDigits (others ++ rest) = rest := (skipDigits_append more rest).trans atEnd
  rcases signed with rfl | rfl | rfl
  · rw [List.nil_append, List.cons_append]
    unfold skipExponent
    split
    · next plus =>
      cases plus
      cases digit
    · next minus =>
      cases minus
      cases digit
    · simp only [digit, if_true, behind]
  · simp only [skipExponent, List.cons_append, List.nil_append, digit, if_true, behind]
  · simp only [skipExponent, List.cons_append, List.nil_append, digit, if_true, behind]

theorem skipTail_exponent {x : List Char} (exponent : Exponent x) (ends : Ends rest) :
    skipTail (x ++ rest) = .ok rest := by
  cases exponent with
  | none =>
    rw [List.nil_append]
    unfold skipTail
    split
    · exact absurd rfl (ends _ _ rfl).2.2.1
    · exact absurd rfl (ends _ _ rfl).2.2.2
    · rfl
  | some letter signed digits =>
    have skipped := skipExponent_digits signed digits (skipDigits_of_ends ends)
    rw [List.cons_append, List.append_assoc]
    rcases letter with rfl | rfl <;> exact skipped

/-- Neither an exponent nor the end of a number goes on with a digit. -/
theorem skipDigits_exponent {x : List Char} (exponent : Exponent x) (ends : Ends rest) :
    skipDigits (x ++ rest) = x ++ rest := by
  cases exponent with
  | none => exact skipDigits_of_ends ends
  | some letter signed digits => rcases letter with rfl | rfl <;> rfl

theorem skipAfterInteger_fraction {f x : List Char} (fraction : Fraction f) (exponent : Exponent x)
    (ends : Ends rest) : skipAfterInteger (f ++ (x ++ rest)) = .ok rest := by
  have tail := skipTail_exponent exponent ends
  cases fraction with
  | none =>
    rw [List.nil_append]
    unfold skipAfterInteger
    split
    · next point =>
      cases exponent with
      | none => exact absurd rfl (ends _ _ point).2.1
      | some letter signed digits =>
        rcases letter with rfl | rfl <;> cases point
    · exact tail
  | some digits =>
    obtain ⟨c, others, rfl, digit, more⟩ := digits.exists_cons
    simp only [List.cons_append, skipAfterInteger, digit, if_true, skipDigits_append more,
      skipDigits_exponent exponent ends, tail]

/-- What stands behind the first digits of a number does not begin with a digit. -/
theorem skipDigits_fraction {f x : List Char} (fraction : Fraction f) (exponent : Exponent x)
    (ends : Ends rest) : skipDigits (f ++ (x ++ rest)) = f ++ (x ++ rest) := by
  cases fraction with
  | none =>
    rw [List.nil_append]
    exact skipDigits_exponent exponent ends
  | some digits => rfl

/-- **A number is passed over** where nothing follows that could belong to it. -/
theorem skipNumber_numeral {ds : List Char} (numeral : Numeral ds) (ends : Ends rest) :
    skipNumber (ds ++ rest) = .ok rest := by
  obtain ⟨whole, fraction, exponent⟩ := numeral
  have behind := skipAfterInteger_fraction fraction exponent ends
  have atEnd := skipDigits_fraction fraction exponent ends
  rw [List.append_assoc, List.append_assoc]
  cases whole with
  | zero =>
    unfold skipNumber
    simp only [List.cons_append, List.nil_append]
    split
    · next c cs same =>
      rw [same] at atEnd
      rw [if_neg (not_isDigit_of_over atEnd)]
      exact behind
    · exact behind
  | long digits positive =>
    obtain ⟨c, others, same, digit, more⟩ := digits.exists_cons
    cases same
    rw [List.cons_append]
    unfold skipNumber
    split
    · next zero =>
      cases zero
      exact absurd rfl positive
    · next other =>
      cases other
      rw [if_pos digit, skipDigits_append more, atEnd, behind]
    · next none => cases none

theorem digits_of_skipExponent {cs : List Char} (skipped : skipExponent cs = .ok rest) :
    ∃ sign ds, (sign = [] ∨ sign = ['+'] ∨ sign = ['-']) ∧ Digits ds ∧
      cs = sign ++ (ds ++ rest) := by
  have unsigned {c : Char} {behind : List Char} {e : Failure}
      (skipped : (if c.isDigit then .ok (skipDigits behind) else .error e) = Except.ok rest) :
      ∃ ds, Digits ds ∧ c :: behind = ds ++ rest := by
    split at skipped
    · next digit =>
      cases skipped
      obtain ⟨ds, digits, same⟩ := exists_digits digit behind
      exact ⟨_, digits, congrArg (c :: ·) same⟩
    · cases skipped
  unfold skipExponent at skipped
  dsimp only at skipped
  split at skipped
  · next c behind front =>
    obtain ⟨ds, digits, same⟩ := unsigned skipped
    rw [same] at front
    split at front
    · exact ⟨_, ds, .inr (.inl rfl), digits, congrArg ('+' :: ·) front⟩
    · exact ⟨_, ds, .inr (.inr rfl), digits, congrArg ('-' :: ·) front⟩
    · exact ⟨[], ds, .inl rfl, digits, front⟩
  · cases skipped

theorem exponent_of_skipTail {cs : List Char} (skipped : skipTail cs = .ok rest) :
    ∃ x, Exponent x ∧ cs = x ++ rest := by
  have lettered {e : Char} {cs : List Char} (letter : e = 'e' ∨ e = 'E')
      (skipped : skipExponent cs = .ok rest) : ∃ x, Exponent x ∧ e :: cs = x ++ rest := by
    obtain ⟨sign, ds, signed, digits, rfl⟩ := digits_of_skipExponent skipped
    refine ⟨_, .some letter signed digits, ?_⟩
    rw [List.cons_append, List.append_assoc]
  unfold skipTail at skipped
  split at skipped
  · exact lettered (.inl rfl) skipped
  · exact lettered (.inr rfl) skipped
  · cases skipped
    exact ⟨[], .none, rfl⟩

theorem fraction_of_skipAfterInteger {cs : List Char} (skipped : skipAfterInteger cs = .ok rest) :
    ∃ f x, Fraction f ∧ Exponent x ∧ cs = f ++ (x ++ rest) := by
  unfold skipAfterInteger at skipped
  split at skipped
  · next behind =>
    split at skipped
    · next c cs =>
      split at skipped
      · next digit =>
        obtain ⟨x, exponent, same⟩ := exponent_of_skipTail skipped
        obtain ⟨ds, digits, front⟩ := exists_digits digit cs
        refine ⟨_, x, .some digits, exponent, ?_⟩
        rw [List.cons_append, List.cons_append, ← same, ← front]
      · cases skipped
    · cases skipped
  · obtain ⟨x, exponent, same⟩ := exponent_of_skipTail skipped
    exact ⟨[], x, .none, exponent, same⟩

/-- **What is passed over as a number is one.** -/
theorem numeral_of_skipNumber {cs : List Char} (skipped : skipNumber cs = .ok rest) :
    ∃ ds, Numeral ds ∧ cs = ds ++ rest := by
  have behind {w cs : List Char} (whole : Whole w) (skipped : skipAfterInteger cs = .ok rest) :
      ∃ ds, Numeral ds ∧ w ++ cs = ds ++ rest := by
    obtain ⟨f, x, fraction, exponent, rfl⟩ := fraction_of_skipAfterInteger skipped
    refine ⟨_, .mk whole fraction exponent, ?_⟩
    rw [List.append_assoc, List.append_assoc]
  unfold skipNumber at skipped
  split at skipped
  · split at skipped
    · split at skipped
      · cases skipped
      · exact behind .zero skipped
    · exact behind .zero skipped
  · next c cs positive =>
    split at skipped
    · next digit =>
      obtain ⟨ds, digits, front⟩ := exists_digits digit cs
      obtain ⟨numeral, written, same⟩ := behind (.long digits positive) skipped
      refine ⟨numeral, written, ?_⟩
      rw [← same, List.cons_append, ← front]
    · cases skipped
  · cases skipped

/-! ## 3. Scalars -/

/-- A character that a value may begin with. -/
structure Begins (c : Char) : Prop where
  space : isSpace c = false
  list : ∀ d : Container, c ≠ d.closing

theorem begins_digit {c : Char} (digit : c.isDigit = true) : Begins c := by
  refine ⟨isSpace_digit digit, ?_⟩
  rintro (_ | _) rfl <;> cases digit

theorem Numeral.exists_cons {ds : List Char} (numeral : Numeral ds) :
    ∃ c cs, ds = c :: cs ∧ c.isDigit = true := by
  obtain ⟨whole, fraction, exponent⟩ := numeral
  cases whole with
  | zero => exact ⟨'0', _, rfl, rfl⟩
  | long digits positive => exact ⟨_, _, rfl, digits.digits _ List.mem_cons_self⟩

theorem Scalar.exists_cons {v : List Char} (scalar : Scalar v) :
    ∃ c cs, v = c :: cs ∧ Begins c ∧ ∀ d : Container, c ≠ d.opening := by
  have letter {c : Char} (space : isSpace c = false)
      (bracket : c ≠ '[' ∧ c ≠ ']' ∧ c ≠ '{' ∧ c ≠ '}') :
      Begins c ∧ ∀ d : Container, c ≠ d.opening := by
    obtain ⟨openList, closeList, openObject, closeObject⟩ := bracket
    refine ⟨⟨space, ?_⟩, ?_⟩
    · rintro (_ | _) <;> assumption
    · rintro (_ | _) <;> assumption
  cases scalar with
  | null => exact ⟨_, _, rfl, letter rfl (by decide)⟩
  | yes => exact ⟨_, _, rfl, letter rfl (by decide)⟩
  | no => exact ⟨_, _, rfl, letter rfl (by decide)⟩
  | string passed => exact ⟨_, _, rfl, letter rfl (by decide)⟩
  | number numeral =>
    obtain ⟨c, cs, rfl, digit⟩ := numeral.exists_cons
    refine ⟨_, _, rfl, begins_digit digit, ?_⟩
    rintro (_ | _) rfl <;> cases digit
  | negative numeral => exact ⟨_, _, rfl, letter rfl (by decide)⟩

/-- **A scalar is passed over.** -/
theorem skipScalar_scalar {v : List Char} (scalar : Scalar v) (ends : Ends rest) :
    skipScalar (v ++ rest) = .ok rest := by
  cases scalar with
  | null => exact expectWord_iff.mpr rfl
  | yes => exact expectWord_iff.mpr rfl
  | no => exact expectWord_iff.mpr rfl
  | string passed =>
    rw [quotedText_append]
    exact skipString_iff.mpr ⟨_, passed, rfl⟩
  | number numeral =>
    have skipped := skipNumber_numeral numeral ends
    obtain ⟨c, cs, rfl, digit⟩ := numeral.exists_cons
    rw [List.cons_append] at skipped ⊢
    unfold skipScalar
    split
    · next e => cases e
    · next e => cases e; cases digit
    · next e => cases e; cases digit
    · next e => cases e; cases digit
    · next e => cases e; cases digit
    · next e => cases e; cases digit
    · next e =>
      cases e
      rw [if_pos digit, skipped]
  | negative numeral => exact skipNumber_numeral numeral ends

/-- **What is passed over as a scalar is one.** -/
theorem scalar_of_skipScalar {cs : List Char} (skipped : skipScalar cs = .ok rest) :
    ∃ v, Scalar v ∧ cs = v ++ rest := by
  unfold skipScalar at skipped
  split at skipped
  · cases skipped
  · exact ⟨_, .null, congrArg ('n' :: ·) (expectWord_iff.mp skipped)⟩
  · exact ⟨_, .yes, congrArg ('t' :: ·) (expectWord_iff.mp skipped)⟩
  · exact ⟨_, .no, congrArg ('f' :: ·) (expectWord_iff.mp skipped)⟩
  · obtain ⟨raw, passed, rfl⟩ := skipString_iff.mp skipped
    exact ⟨_, .string passed, (quotedText_append raw rest).symm⟩
  · obtain ⟨ds, numeral, rfl⟩ := numeral_of_skipNumber skipped
    exact ⟨_, .negative numeral, rfl⟩
  · split at skipped
    · obtain ⟨ds, numeral, same⟩ := numeral_of_skipNumber skipped
      exact ⟨ds, .number numeral, same⟩
    · cases skipped

/-! ## 4. The ends of parts -/

theorem ends_spaces {s : List Char} (spaces : Spaces s) (ends : Ends rest) : Ends (s ++ rest) := by
  cases s with
  | nil => exact ends
  | cons c s =>
    have space := spaces c List.mem_cons_self
    refine ends_cons ?_ ?_ ?_ ?_
    · cases digit : c.isDigit with
      | false => rfl
      | true =>
        rw [isSpace_digit digit] at space
        cases space
    all_goals
      rintro rfl
      cases space

theorem ends_closing (c : Container) (cs : List Char) : Ends (c.closing :: cs) := by
  cases c with
  | list => exact ends_cons rfl (by decide) (by decide) (by decide)
  | object => exact ends_cons rfl (by decide) (by decide) (by decide)

/-- A value is over where the rest of its container begins. -/
theorem Written.ends {c : Container} {r : List Char} (written : Written (.inside c false) r)
    (rest : List Char) : Ends (r ++ rest) := by
  cases written with
  | ended spaces =>
    rw [List.append_assoc]
    exact ends_spaces spaces (ends_closing c rest)
  | part leads key spaces value others =>
    cases leads with
    | next before behind =>
      rw [List.append_assoc, List.append_assoc]
      refine ends_spaces before ?_
      exact ends_cons rfl (by decide) (by decide) (by decide)

theorem Written.exists_cons {v : List Char} (written : Written .value v) :
    ∃ c cs, v = c :: cs ∧ Begins c := by
  cases written with
  | scalar scalar =>
    obtain ⟨c, cs, rfl, begins, -⟩ := scalar.exists_cons
    exact ⟨c, cs, rfl, begins⟩
  | @container c r inside =>
    refine ⟨_, _, rfl, ?_⟩
    cases c with
    | list => exact ⟨rfl, by rintro (_ | _) <;> decide⟩
    | object => exact ⟨rfl, by rintro (_ | _) <;> decide⟩

/-- Spaces may stand around what leads to a part. -/
theorem Leads.spaced {first : Bool} {l s : List Char} (leads : Leads first l) (spaces : Spaces s) :
    Leads first (l ++ s) := by
  cases leads with
  | first before => exact .first (before.append spaces)
  | next before behind =>
    rw [List.append_assoc, List.cons_append]
    exact .next before (behind.append spaces)

theorem Leads.indented {first : Bool} {l s : List Char} (leads : Leads first l) (spaces : Spaces s) :
    Leads first (s ++ l) := by
  cases leads with
  | first before => exact .first (spaces.append before)
  | next before behind =>
    rw [← List.append_assoc]
    exact .next (spaces.append before) behind

/-- Spaces may stand in front of what is left of a container. -/
theorem Written.spaced {c : Container} {first : Bool} {s r : List Char}
    (written : Written (.inside c first) r) (spaces : Spaces s) :
    Written (.inside c first) (s ++ r) := by
  cases written with
  | ended others =>
    rw [← List.append_assoc]
    exact .ended (spaces.append others)
  | part leads key behind value others =>
    rw [← List.append_assoc]
    exact .part (leads.indented spaces) key behind value others

/-! ## 5. Values -/

/-- What is awaited at the start of a form. -/
def Form.awaited : Form → Awaited
  | .value => .value
  | .inside _ true => .firstPart
  | .inside _ false => .nextPart

/-- The containers that are open at the start of a form. -/
def Form.within (outer : List Container) : Form → List Container
  | .value => outer
  | .inside c _ => c :: outer

/-- How many turns fewer than two a character a form takes at least. -/
def Form.slack : Form → Nat
  | .value => 1
  | .inside _ _ => 0

variable {outer : List Container} {n : Nat}

theorem skipFrom_spaces {s : List Char} (spaces : Spaces s) (awaited : Awaited)
    (enclosing : List Container) (cs : List Char) :
    skipFrom awaited enclosing (s ++ cs) (n + 1) = skipFrom awaited enclosing cs (n + 1) := by
  simp only [skipFrom, skipSpace_append spaces]

theorem skipFrom_opening (c : Container) (cs : List Char) :
    skipFrom .value outer (c.opening :: cs) (n + 1) = skipFrom .firstPart (c :: outer) cs n := by
  cases c <;> rfl

theorem skipFrom_scalar {v : List Char} (scalar : Scalar v) (ends : Ends rest) :
    skipFrom .value outer (v ++ rest) (n + 1) = skipFrom .nextPart outer rest n := by
  have skipped := skipScalar_scalar scalar ends
  obtain ⟨c, cs, rfl, begins, brackets⟩ := scalar.exists_cons
  rw [List.cons_append] at skipped ⊢
  simp only [skipFrom, skipSpace_cons begins.space]
  split
  · next list =>
    cases list
    exact absurd rfl (brackets .list)
  · next object =>
    cases object
    exact absurd rfl (brackets .object)
  · rw [skipped]
    rfl

theorem skipFrom_closing (c : Container) (first : Bool) (cs : List Char) :
    skipFrom (Form.inside c first).awaited (c :: outer) (c.closing :: cs) (n + 1) =
      skipFrom .nextPart outer cs n := by
  cases c <;> cases first <;> rfl

/-- A key with its colon is passed over. Spaces in front of an element are left to it. -/
theorem skipKey_key {c : Container} {s k : List Char} (spaces : Spaces s) (key : Key c k) :
    ∃ t, Spaces t ∧ ∀ cs, skipKey c (s ++ (k ++ cs)) = .ok (t ++ cs) := by
  cases key with
  | none => exact ⟨s, spaces, fun cs => rfl⟩
  | @named raw u passed behind =>
    refine ⟨[], spaces_nil, fun cs => ?_⟩
    have quote : isSpace '"' = false := rfl
    have skipped : skipString (raw ++ '"' :: (u ++ ':' :: cs)) = .ok (u ++ ':' :: cs) :=
      skipString_iff.mpr ⟨raw, passed, rfl⟩
    have colon : expectColon (u ++ ':' :: cs) = .ok cs := expectColon_iff.mpr ⟨u, behind, rfl⟩
    rw [List.append_assoc, List.append_assoc, quotedText_append]
    simp only [skipKey, skipSpace_append spaces, skipSpace_cons quote, List.singleton_append,
      skipped, Except.bind, colon, List.nil_append]

theorem skipFrom_firstPart {c : Container} {d : Char} (begins : Begins d) (cs : List Char) :
    skipFrom .firstPart (c :: outer) (d :: cs) (n + 1) =
      (skipKey c (d :: cs)).bind fun rest => skipFrom .value (c :: outer) rest n := by
  simp only [skipFrom, skipSpace_cons begins.space]
  split
  · next none => cases none
  · next none => cases none
  · next closed =>
    cases closed
    exact absurd rfl (begins.list .list)
  · next closed =>
    cases closed
    exact absurd rfl (begins.list .object)
  · next open_ =>
    cases open_
    rfl

theorem skipFrom_comma (c : Container) (cs : List Char) :
    skipFrom .nextPart (c :: outer) (',' :: cs) (n + 1) =
      (skipKey c cs).bind fun rest => skipFrom .value (c :: outer) rest n := by
  cases c <;> rfl

/-- What stands in front of the value of a part is passed over in one turn. -/
theorem skipFrom_part (outer : List Container) {c : Container} {first : Bool} {l k t : List Char}
    (leads : Leads first l) (key : Key c k) (spaces : Spaces t) {d : Char} (begins : Begins d)
    (cs : List Char) (n : Nat) :
    ∃ s, Spaces s ∧ skipFrom (Form.inside c first).awaited (c :: outer)
      (l ++ (k ++ (t ++ d :: cs))) (n + 1) = skipFrom .value (c :: outer) (s ++ d :: cs) n := by
  cases leads with
  | first before =>
    rw [skipFrom_spaces before]
    cases key with
    | none =>
      refine ⟨[], spaces_nil, ?_⟩
      rw [List.nil_append, skipFrom_spaces spaces]
      exact skipFrom_firstPart begins cs
    | @named raw u passed behind =>
      obtain ⟨s, more, skipped⟩ := skipKey_key spaces_nil (.named passed behind)
      refine ⟨s ++ t, more.append spaces, ?_⟩
      have quote : Begins '"' := ⟨rfl, by rintro (_ | _) <;> decide⟩
      refine (skipFrom_firstPart quote (raw ++ ['"'] ++ (u ++ [':']) ++ (t ++ d :: cs))).trans ?_
      rw [List.append_assoc s]
      exact congrArg (Except.bind · fun rest => skipFrom .value (.object :: outer) rest n)
        (skipped (t ++ d :: cs))
  | next before behind =>
    obtain ⟨s, more, skipped⟩ := skipKey_key behind key
    refine ⟨s ++ t, more.append spaces, ?_⟩
    rw [List.append_assoc, skipFrom_spaces before, List.cons_append]
    refine (skipFrom_comma c _).trans ?_
    rw [skipped, List.append_assoc]
    rfl

/-- **A text of a form is passed over** in at most two turns a character. -/
theorem skipFrom_written {form : Form} {cs : List Char} (written : Written form cs) :
    ∃ turns, turns + form.slack ≤ 2 * cs.length ∧ ∀ s outer rest n, Spaces s → Ends rest →
      skipFrom form.awaited (form.within outer) (s ++ (cs ++ rest)) (n + turns) =
        skipFrom .nextPart outer rest n := by
  induction written with
  | scalar scalar =>
    refine ⟨1, ?_, fun s outer rest n spaces ends => ?_⟩
    · obtain ⟨c, cs, rfl, -⟩ := scalar.exists_cons
      rw [Form.slack, List.length_cons]
      omega
    · exact (skipFrom_spaces spaces _ _ _).trans (skipFrom_scalar scalar ends)
  | @container c r inside ih =>
    obtain ⟨turns, few, skipped⟩ := ih
    refine ⟨turns + 1, ?_, fun s outer rest n spaces ends => ?_⟩
    · simp only [Form.slack] at few ⊢
      rw [List.length_cons]
      omega
    · refine (skipFrom_spaces spaces _ _ _).trans ((skipFrom_opening c _).trans ?_)
      exact skipped [] outer rest n spaces_nil ends
  | @ended c first s spaces =>
    refine ⟨1, ?_, fun t outer rest n more ends => ?_⟩
    · rw [Form.slack, List.length_append, List.length_singleton]
      omega
    · rw [List.append_assoc]
      refine (skipFrom_spaces more _ _ _).trans ((skipFrom_spaces spaces _ _ _).trans ?_)
      exact skipFrom_closing c first rest
  | @part c first l k t v r leads key spaces value others ihValue ihOthers =>
    obtain ⟨turns, few, skipped⟩ := ihValue
    obtain ⟨turns', few', skipped'⟩ := ihOthers
    refine ⟨turns' + turns + 1, ?_, fun s outer rest n more ends => ?_⟩
    · simp only [Form.slack] at few few' ⊢
      simp only [List.length_append]
      omega
    · obtain ⟨d, cs, rfl, begins⟩ := value.exists_cons
      obtain ⟨u, between, turn⟩ := skipFrom_part outer leads key spaces begins (cs ++ (r ++ rest))
        (n + turns' + turns)
      simp only [List.append_assoc, List.cons_append] at turn skipped ⊢
      rw [← Nat.add_assoc, ← Nat.add_assoc]
      refine (skipFrom_spaces more _ _ _).trans (turn.trans ?_)
      refine (skipped u (c :: outer) (r ++ rest) (n + turns') between (others.ends rest)).trans ?_
      exact skipped' [] outer rest n spaces_nil ends

/-- A turn in which a value is awaited opens a container or passes over a scalar. -/
theorem skipFrom_value_cases {cs : List Char} (skipped : skipFrom .value outer cs (n + 1) = .ok rest) :
    (∃ c r, skipSpace cs = c.opening :: r ∧ skipFrom .firstPart (c :: outer) r n = .ok rest) ∨
      ∃ behind, skipScalar (skipSpace cs) = .ok behind ∧
        skipFrom .nextPart outer behind n = .ok rest := by
  simp only [skipFrom] at skipped
  split at skipped
  · next r list => exact .inl ⟨.list, r, list, skipped⟩
  · next r object => exact .inl ⟨.object, r, object, skipped⟩
  · cases scalar : skipScalar (skipSpace cs) with
    | error e =>
      rw [scalar] at skipped
      cases skipped
    | ok behind =>
      rw [scalar] at skipped
      exact .inr ⟨behind, rfl, skipped⟩

/-- A turn inside a container ends it or passes over what stands in front of a value. -/
theorem skipFrom_inside_cases {c : Container} {first : Bool} {cs : List Char}
    (skipped : skipFrom (Form.inside c first).awaited (c :: outer) cs (n + 1) = .ok rest) :
    (∃ r, skipSpace cs = c.closing :: r ∧ skipFrom .nextPart outer r n = .ok rest) ∨
      ∃ l keyed behind, Leads first l ∧ skipSpace cs = l ++ keyed ∧ skipKey c keyed = .ok behind ∧
        skipFrom .value (c :: outer) behind n = .ok rest := by
  have keyed {keyed : List Char}
      (skipped : ((skipKey c keyed).bind fun behind => skipFrom .value (c :: outer) behind n) =
        .ok rest) :
      ∃ behind, skipKey c keyed = .ok behind ∧ skipFrom .value (c :: outer) behind n = .ok rest := by
    cases key : skipKey c keyed with
    | error e =>
      rw [key] at skipped
      cases skipped
    | ok behind =>
      rw [key] at skipped
      exact ⟨behind, rfl, skipped⟩
  cases first with
  | true =>
    simp only [Form.awaited, skipFrom] at skipped
    split at skipped
    · cases skipped
    · cases skipped
    · next r closed => exact .inl ⟨r, closed, skipped⟩
    · next r closed => exact .inl ⟨r, closed, skipped⟩
    · obtain ⟨behind, key, skipped⟩ := keyed skipped
      exact .inr ⟨[], _, behind, .first spaces_nil, rfl, key, skipped⟩
  | false =>
    simp only [Form.awaited, skipFrom] at skipped
    split at skipped
    · cases skipped
    · cases skipped
    · next r closed => exact .inl ⟨r, closed, skipped⟩
    · next r closed => exact .inl ⟨r, closed, skipped⟩
    · next d cs _ _ same =>
      split at skipped
      · next comma =>
        obtain ⟨behind, key, skipped⟩ := keyed skipped
        exact .inr ⟨[','], cs, behind, .next spaces_nil spaces_nil, comma ▸ same, key, skipped⟩
      · cases skipped

theorem key_of_skipKey {c : Container} {keyed behind : List Char}
    (skipped : skipKey c keyed = .ok behind) :
    ∃ s k, Spaces s ∧ Key c k ∧ keyed = s ++ (k ++ behind) := by
  cases c with
  | list =>
    cases skipped
    exact ⟨[], [], spaces_nil, .none, rfl⟩
  | object =>
    obtain ⟨s, spaces, front⟩ := exists_spaces keyed
    simp only [skipKey] at skipped
    split at skipped
    · cases skipped
    · next r quote =>
      cases passed : skipString r with
      | error e =>
        rw [passed] at skipped
        cases skipped
      | ok r' =>
        rw [passed] at skipped
        obtain ⟨raw, inside, rfl⟩ := skipString_iff.mp passed
        obtain ⟨t, between, rfl⟩ := expectColon_iff.mp skipped
        refine ⟨s, _, spaces, .named inside between, ?_⟩
        rw [List.append_assoc, List.append_assoc, quotedText_append, List.singleton_append, ← quote,
          ← front]
    · cases skipped

/-- **What is passed over is a text of the form.** -/
theorem written_of_skipFrom (form : Form) (outer : List Container) {cs : List Char} {n : Nat}
    (skipped : skipFrom form.awaited (form.within outer) cs n = .ok rest) :
    ∃ s v behind m, m < n ∧ Spaces s ∧ Written form v ∧ cs = s ++ (v ++ behind) ∧
      skipFrom .nextPart outer behind m = .ok rest := by
  induction n using Nat.strongRecOn generalizing form outer cs with
  | ind n ih =>
  cases n with
  | zero =>
    rw [skipFrom_zero] at skipped
    cases skipped
  | succ n =>
  obtain ⟨s, spaces, front⟩ := exists_spaces cs
  cases form with
  | value =>
    rcases skipFrom_value_cases skipped with ⟨c, r, opened, going⟩ | ⟨behind, passed, going⟩
    · obtain ⟨t, v, behind, m, fewer, more, inside, same, done⟩ :=
        ih n (Nat.lt_succ_self n) (.inside c true) outer going
      refine ⟨s, _, behind, m, Nat.lt_succ_of_lt fewer, spaces, .container (inside.spaced more), ?_,
        done⟩
      rw [front, opened, same, List.cons_append, List.append_assoc]
    · obtain ⟨v, scalar, same⟩ := scalar_of_skipScalar passed
      exact ⟨s, v, behind, n, Nat.lt_succ_self n, spaces, .scalar scalar, same ▸ front, going⟩
  | inside c first =>
    rcases skipFrom_inside_cases skipped with
      ⟨r, closed, going⟩ | ⟨l, keyed, inner, leads, split, passed, inValue⟩
    · refine ⟨s, _, r, n, Nat.lt_succ_self n, spaces, .ended spaces_nil, ?_, going⟩
      rw [front, closed]
      rfl
    · obtain ⟨t, k, before, key, rfl⟩ := key_of_skipKey passed
      -- the value of the part, and then what is left of the container
      obtain ⟨u, v, left, m, fewer, more, value, rfl, inRest⟩ :=
        ih n (Nat.lt_succ_self n) .value (c :: outer) inValue
      obtain ⟨u', r, behind, m', fewer', more', others, rfl, done⟩ :=
        ih m (Nat.lt_succ_of_lt fewer) (.inside c false) outer inRest
      refine ⟨s, _, behind, m', by omega, spaces,
        .part (leads.spaced before) key more value (others.spaced more'), ?_, done⟩
      rw [front, split]
      simp only [List.append_assoc]

/-- **A value that nobody looks at is passed over**, up to what follows its spaces. -/
theorem skipValue_written {s v : List Char} (spaces : Spaces s) (written : Written .value v)
    (ends : Ends rest) {limit : Nat} (room : v.length ≤ limit) :
    skipValue limit (s ++ (v ++ rest)) = .ok (skipSpace rest) := by
  obtain ⟨turns, few, skipped⟩ := skipFrom_written written
  simp only [Form.slack] at few
  obtain ⟨n, enough⟩ : ∃ n, 2 * limit + 3 = n + 1 + turns :=
    ⟨2 * limit + 3 - turns - 1, by omega⟩
  rw [skipValue, enough]
  exact skipped s [] rest (n + 1) spaces ends

/-- **What is passed over is a value with the spaces around it.** -/
theorem written_of_skipValue {limit : Nat} {cs : List Char} (skipped : skipValue limit cs = .ok rest) :
    ∃ s v t, Spaces s ∧ Written .value v ∧ Spaces t ∧ cs = s ++ (v ++ (t ++ rest)) := by
  obtain ⟨s, v, behind, m, -, spaces, written, rfl, skipped⟩ :=
    written_of_skipFrom .value [] skipped
  cases m with
  | zero =>
    rw [skipFrom_zero] at skipped
    cases skipped
  | succ m =>
    obtain ⟨t, more, front⟩ := exists_spaces behind
    cases skipped
    exact ⟨s, v, t, spaces, written, more, front ▸ rfl⟩

/-- **A text is JSON** where passing over its value leaves nothing of it. -/
theorem isJson_iff {text : String} :
    IsJson text ↔ skipValue text.length text.toList = .ok [] := by
  constructor
  · rintro ⟨s, v, t, before, written, behind, same⟩
    have none := skipSpace_append behind []
    have ends := ends_spaces behind ends_nil
    rw [List.append_nil] at none ends
    have room : v.length ≤ text.length := by
      rw [← String.length_toList, same]
      simp only [List.length_append]
      omega
    rw [same, skipValue_written before written ends room, none]
    rfl
  · intro skipped
    obtain ⟨s, v, t, before, written, behind, same⟩ := written_of_skipValue skipped
    rw [List.append_nil] at same
    exact ⟨s, v, t, before, written, behind, same⟩

end Retro24.Json
