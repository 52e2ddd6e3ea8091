/-
  File:      Retro24/Proofs/Json/RoundTrip.lean
  Subject:   A value written over several lines is read back as it was.

  * `Plain`: the values that a text keeps: integers of 64 bits, objects in the order of their keys,
    and not more than a number of containers inside one another.
  * `readItems_written`, `readEntries_written`: the inside of a container, given that its elements
    are read back.
  * `readValue_written`: the induction over the value; `parse_pretty`: the whole text.
-/
import Retro24.Proofs.Json.Lexemes

namespace Retro24.Json

/-! ## 1. Plain values -/

/-- A value that its text keeps, with at most `depth` containers inside one another. -/
inductive Plain : Nat → Value → Prop where
  | null {depth : Nat} : Plain depth .null
  | bool {depth : Nat} (b : Bool) : Plain depth (.bool b)
  | integer {depth : Nat} (i : Int) (low : -0x8000000000000000 ≤ i)
      (high : i < 0x10000000000000000) : Plain depth (.number (.integer i))
  | string {depth : Nat} (s : String) : Plain depth (.string s)
  | array {depth : Nat} (xs : List Value) (items : ∀ x ∈ xs, Plain depth x) :
      Plain (depth + 1) (.array xs)
  | object {depth : Nat} (xs : List (String × Value)) (rising : xs.Pairwise (·.1 < ·.1))
      (entries : ∀ x ∈ xs, Plain depth x.2) : Plain (depth + 1) (.object xs)

/-- A text that starts like a value, and not like the end of a list. -/
def Starts (cs : List Char) : Prop := ∃ c tail, cs = c :: tail ∧ isSpace c = false ∧ c ≠ ']'

variable {rest : List Char}

theorem starts_append {cs : List Char} (h : Starts cs) (rest : List Char) : Starts (cs ++ rest) := by
  obtain ⟨c, tail, rfl, space, bracket⟩ := h
  exact ⟨c, tail ++ rest, rfl, space, bracket⟩

theorem toDigits_eq_cons (n : Nat) : ∃ c ds, Nat.toDigits 10 n = c :: ds ∧ c.isDigit = true := by
  cases written : Nat.toDigits 10 n with
  | nil => exact absurd written Nat.toDigits_ne_nil
  | cons c ds =>
    have digit : c.isDigit = true :=
      Nat.isDigit_of_mem_toDigits (by decide) (by decide) (written ▸ List.mem_cons_self)
    exact ⟨c, ds, rfl, digit⟩

theorem isSpace_digit {c : Char} (digit : c.isDigit = true) : isSpace c = false := by
  cases space : isSpace c with
  | false => rfl
  | true =>
    simp only [isSpace, Bool.or_eq_true, beq_iff_eq] at space
    rcases space with ((rfl | rfl) | rfl) | rfl <;> cases digit

theorem starts_digits (n : Nat) : Starts (Nat.toDigits 10 n) := by
  obtain ⟨c, ds, written, digit⟩ := toDigits_eq_cons n
  refine ⟨c, ds, written, isSpace_digit digit, ?_⟩
  rintro rfl
  cases digit

theorem starts_written {depth : Nat} {v : Value} (h : Plain depth v) (indent : Nat) :
    Starts (writePretty indent v) := by
  cases h with
  | null => exact ⟨_, _, rfl, rfl, by decide⟩
  | bool b => cases b <;> exact ⟨_, _, rfl, rfl, by decide⟩
  | integer i =>
    cases i with
    | ofNat n => exact starts_digits n
    | negSucc n => exact ⟨_, _, rfl, rfl, by decide⟩
  | string s => exact ⟨_, _, rfl, rfl, by decide⟩
  | array xs => cases xs <;> exact ⟨_, _, rfl, rfl, by decide⟩
  | object xs => cases xs <;> exact ⟨_, _, rfl, rfl, by decide⟩

/-! ## 2. Lists -/

/-- An element follows what leads to it. -/
theorem nextElement_item {first : Bool} {l cs : List Char} (leads : Leads first l) (h : Starts cs) :
    nextElement first (l ++ cs) = .ok (true, cs) := by
  obtain ⟨c, tail, rfl, space, bracket⟩ := h
  have comma : isSpace ',' = false := rfl
  cases leads with
  | first spaces => simp [nextElement, skipSpace_append spaces, skipSpace_cons space]
  | next before behind =>
    simp [nextElement, skipSpace_append before, skipSpace_cons comma, skipSpace_append behind,
      skipSpace_cons space, bracket]

theorem nextElement_first {cs : List Char} (indent : Nat) (h : Starts cs) :
    nextElement true (newLine indent ++ cs) = .ok (true, cs) :=
  nextElement_item (.first (spaces_newLine indent)) h

theorem nextElement_next {cs : List Char} (indent : Nat) (h : Starts cs) :
    nextElement false (',' :: (newLine indent ++ cs)) = .ok (true, cs) :=
  nextElement_item (.next spaces_nil (spaces_newLine indent)) h

/-- A list ends behind spaces. -/
theorem nextElement_closing {first : Bool} {s : List Char} (spaces : Spaces s) (cs : List Char) :
    nextElement first (s ++ ']' :: cs) = .ok (false, ']' :: cs) := by
  have bracket : isSpace ']' = false := rfl
  simp only [nextElement, skipSpace_append spaces, skipSpace_cons bracket]

theorem endList_end : endList (']' :: rest) = .ok rest := rfl

theorem ends_items (indent : Nat) (xs : List Value) (rest : List Char) :
    Ends (writePrettyItems indent xs ++ rest) := by
  cases xs <;> exact ends_cons rfl (by decide) (by decide) (by decide)

theorem length_lt_items (indent : Nat) (xs : List Value) :
    xs.length < (writePrettyItems indent xs).length := by
  induction xs with
  | nil => exact Nat.zero_lt_succ _
  | cons x xs ih =>
    simp only [writePrettyItems, List.length_cons, List.length_append]
    omega

theorem length_le_items {indent : Nat} {x : Value} {xs : List Value} (h : x ∈ xs) :
    (writePretty (indent + 1) x).length ≤ (writePrettyItems indent xs).length := by
  induction xs with
  | nil => cases h
  | cons y ys ih =>
    simp only [writePrettyItems, List.length_cons, List.length_append]
    rcases List.mem_cons.mp h with rfl | h
    · omega
    · have := ih h
      omega

/-- **The elements of a list behind its first are read back, if each of them is.** -/
theorem readItems_written (item : List Char → Read Value) (indent : Nat) (rest : List Char)
    {xs : List Value}
    (starts : ∀ x ∈ xs, Starts (writePretty (indent + 1) x))
    (reads : ∀ x ∈ xs, ∀ rest, Ends rest →
      item (writePretty (indent + 1) x ++ rest) = .ok (x, rest))
    (done : List Value) {turns : Nat} (enough : xs.length < turns) :
    readItems item false done (writePrettyItems indent xs ++ rest) turns =
      .ok (done.reverse ++ xs, rest) := by
  induction xs generalizing done turns with
  | nil =>
    obtain ⟨turns, rfl⟩ := Nat.exists_eq_succ_of_ne_zero (Nat.ne_of_gt enough)
    rw [writePrettyItems, List.append_assoc]
    simp only [readItems, List.cons_append, List.nil_append, nextElement_closing (spaces_newLine _),
      endList_end, List.append_nil]
    rfl
  | cons x xs ih =>
    obtain ⟨turns, rfl⟩ := Nat.exists_eq_succ_of_ne_zero (Nat.ne_of_gt (Nat.zero_lt_of_lt enough))
    have next := nextElement_next (indent + 1)
      (starts_append (starts x List.mem_cons_self) (writePrettyItems indent xs ++ rest))
    have first := reads x List.mem_cons_self _ (ends_items indent xs rest)
    have others := ih (fun y hy => starts y (List.mem_cons_of_mem x hy))
      (fun y hy => reads y (List.mem_cons_of_mem x hy)) (x :: done) (Nat.lt_of_succ_lt_succ enough)
    rw [writePrettyItems]
    simp only [readItems, List.cons_append, List.append_assoc, next, first, others,
      List.reverse_cons, List.nil_append]

/-- The elements of a list, the first of which stands behind no comma. -/
theorem readItems_list (item : List Char → Read Value) (indent : Nat) (rest : List Char) {x : Value}
    {xs : List Value}
    (starts : ∀ y ∈ x :: xs, Starts (writePretty (indent + 1) y))
    (reads : ∀ y ∈ x :: xs, ∀ rest, Ends rest →
      item (writePretty (indent + 1) y ++ rest) = .ok (y, rest))
    {turns : Nat} (enough : xs.length < turns) :
    readItems item true [] (newLine (indent + 1) ++
        (writePretty (indent + 1) x ++ (writePrettyItems indent xs ++ rest))) (turns + 1) =
      .ok (x :: xs, rest) := by
  have next := nextElement_first (indent + 1)
    (starts_append (starts x List.mem_cons_self) (writePrettyItems indent xs ++ rest))
  have first := reads x List.mem_cons_self _ (ends_items indent xs rest)
  have others := readItems_written item indent rest
    (fun y hy => starts y (List.mem_cons_of_mem x hy))
    (fun y hy => reads y (List.mem_cons_of_mem x hy)) [x] enough
  simp only [readItems, next, first, others]
  rfl

/-! ## 3. Objects -/

theorem writeString_append (s : String) (cs : List Char) :
    writeString s ++ cs = '"' :: (s.toList.flatMap escapeChar ++ '"' :: cs) := by
  simp only [writeString, List.cons_append, List.append_assoc, List.nil_append]

/-- A key follows what leads to it. -/
theorem nextKey_member {first : Bool} {l : List Char} (leads : Leads first l) (cs : List Char) :
    nextKey first (l ++ '"' :: cs) = .ok (true, cs) := by
  have quote : isSpace '"' = false := rfl
  have comma : isSpace ',' = false := rfl
  cases leads with
  | first spaces => simp [nextKey, skipSpace_append spaces, skipSpace_cons quote]
  | next before behind =>
    simp [nextKey, skipSpace_append before, skipSpace_cons comma, skipSpace_append behind,
      skipSpace_cons quote]

theorem nextKey_first (indent : Nat) (cs : List Char) :
    nextKey true (newLine indent ++ '"' :: cs) = .ok (true, cs) :=
  nextKey_member (.first (spaces_newLine indent)) cs

theorem nextKey_next (indent : Nat) (cs : List Char) :
    nextKey false (',' :: (newLine indent ++ '"' :: cs)) = .ok (true, cs) :=
  nextKey_member (.next spaces_nil (spaces_newLine indent)) cs

/-- An object ends behind spaces. -/
theorem nextKey_closing {first : Bool} {s : List Char} (spaces : Spaces s) (cs : List Char) :
    nextKey first (s ++ '}' :: cs) = .ok (false, '}' :: cs) := by
  have bracket : isSpace '}' = false := rfl
  simp only [nextKey, skipSpace_append spaces, skipSpace_cons bracket]

theorem endObject_end : endObject ('}' :: rest) = .ok rest := rfl

theorem expectColon_colon (cs : List Char) : expectColon (':' :: cs) = .ok cs := rfl

theorem ends_entries (indent : Nat) (xs : List (String × Value)) (rest : List Char) :
    Ends (writePrettyEntries indent xs ++ rest) := by
  cases xs <;> exact ends_cons rfl (by decide) (by decide) (by decide)

theorem length_lt_entries (indent : Nat) (xs : List (String × Value)) :
    xs.length < (writePrettyEntries indent xs).length := by
  induction xs with
  | nil => exact Nat.zero_lt_succ _
  | cons x xs ih =>
    simp only [writePrettyEntries, List.length_cons, List.length_append]
    omega

theorem length_le_entries {indent : Nat} {x : String × Value} {xs : List (String × Value)}
    (h : x ∈ xs) :
    (writePretty (indent + 1) x.2).length ≤ (writePrettyEntries indent xs).length := by
  induction xs with
  | nil => cases h
  | cons y ys ih =>
    simp only [writePrettyEntries, List.length_cons, List.length_append]
    rcases List.mem_cons.mp h with rfl | h
    · omega
    · have := ih h
      omega

/-- A key beyond all others comes last. -/
theorem insertEntry_last {key : String} (x : Value) {done : List (String × Value)}
    (above : ∀ y ∈ done, y.1 < key) : insertEntry key x done = done ++ [(key, x)] := by
  induction done with
  | nil => rfl
  | cons y done ih =>
    have less := above y List.mem_cons_self
    have different : ¬key = y.1 := fun e => String.lt_irrefl key (by rwa [← e] at less)
    rw [insertEntry, if_neg (String.lt_asymm less), if_neg different,
      ih fun z hz => above z (List.mem_cons_of_mem y hz)]
    rfl

/-- **The entries of an object behind its first are read back, if each of them is.** -/
theorem readEntries_written (item : List Char → Read Value) (indent : Nat) (rest : List Char)
    {xs : List (String × Value)}
    (reads : ∀ x ∈ xs, ∀ rest, Ends rest →
      item (' ' :: (writePretty (indent + 1) x.2 ++ rest)) = .ok (x.2, rest))
    {done : List (String × Value)} (rising : (done ++ xs).Pairwise (·.1 < ·.1)) {turns : Nat}
    (enough : xs.length < turns) :
    readEntries item false done (writePrettyEntries indent xs ++ rest) turns =
      .ok (done ++ xs, rest) := by
  induction xs generalizing done turns with
  | nil =>
    obtain ⟨turns, rfl⟩ := Nat.exists_eq_succ_of_ne_zero (Nat.ne_of_gt enough)
    rw [writePrettyEntries, List.append_assoc]
    simp only [readEntries, List.cons_append, List.nil_append, nextKey_closing (spaces_newLine _),
      endObject_end, List.append_nil]
    rfl
  | cons x xs ih =>
    obtain ⟨turns, rfl⟩ := Nat.exists_eq_succ_of_ne_zero (Nat.ne_of_gt (Nat.zero_lt_of_lt enough))
    obtain ⟨key, x⟩ := x
    have above : ∀ y ∈ done, y.1 < key := fun y hy =>
      (List.pairwise_append.mp rising).2.2 y hy (key, x) List.mem_cons_self
    have value := reads (key, x) List.mem_cons_self _ (ends_entries indent xs rest)
    have inserted := insertEntry_last x above
    have rising : (done ++ [(key, x)] ++ xs).Pairwise (·.1 < ·.1) := by
      rw [List.append_assoc]
      exact rising
    have others := ih (fun y hy => reads y (List.mem_cons_of_mem (key, x) hy)) rising
      (Nat.lt_of_succ_lt_succ enough)
    rw [writePrettyEntries]
    simp only [readEntries, List.cons_append, List.append_assoc, writeString_append, nextKey_next,
      readString_escaped, expectColon_colon, value, inserted]
    rw [others, List.append_assoc]
    rfl

/-- The entries of an object, the first of which stands behind no comma. -/
theorem readEntries_object (item : List Char → Read Value) (indent : Nat) (rest : List Char)
    {key : String} {x : Value} {xs : List (String × Value)}
    (reads : ∀ y ∈ (key, x) :: xs, ∀ rest, Ends rest →
      item (' ' :: (writePretty (indent + 1) y.2 ++ rest)) = .ok (y.2, rest))
    (rising : ((key, x) :: xs).Pairwise (·.1 < ·.1)) {turns : Nat} (enough : xs.length < turns) :
    readEntries item true [] (newLine (indent + 1) ++ (writeString key ++ ':' :: ' ' ::
        (writePretty (indent + 1) x ++ (writePrettyEntries indent xs ++ rest)))) (turns + 1) =
      .ok ((key, x) :: xs, rest) := by
  have first := reads (key, x) List.mem_cons_self _ (ends_entries indent xs rest)
  have rising : ([(key, x)] ++ xs).Pairwise (·.1 < ·.1) := rising
  have others := readEntries_written item indent rest
    (fun y hy => reads y (List.mem_cons_of_mem (key, x) hy)) rising enough
  simp only [readEntries, writeString_append, nextKey_first, readString_escaped, expectColon_colon,
    first, insertEntry, others]
  rfl

/-! ## 4. Values -/

theorem readValue_space (limit depth : Nat) (cs : List Char) :
    readValue limit depth (' ' :: cs) = readValue limit depth cs := by
  have skipped : skipSpace (' ' :: cs) = skipSpace cs := rfl
  cases depth <;> simp only [readValue, readValueWith, skipped]

/-- A value that opens no container is read in the same way at every depth. -/
theorem readValue_of_forall {limit depth : Nat} {cs : List Char} {answer : Read Value}
    (h : ∀ nested, readValueWith limit nested cs = answer) : readValue limit depth cs = answer := by
  cases depth with
  | zero => exact h none
  | succ depth => exact h (some (readValue limit depth))

theorem readValueWith_natural (ends : Ends rest) (limit : Nat)
    (nested : Option (List Char → Read Value)) {n : Nat} (high : n < 0x10000000000000000) :
    readValueWith limit nested (Nat.toDigits 10 n ++ rest) =
      .ok (.number (.integer (.ofNat n)), rest) := by
  have read := readNumber_toDigits ends false high
  rw [readAfterInteger_ends ends, if_neg Bool.false_ne_true] at read
  obtain ⟨c, ds, written, digit⟩ := toDigits_eq_cons n
  rw [written, List.cons_append] at read ⊢
  simp only [readValueWith, skipSpace_cons (isSpace_digit digit)]
  split
  case h_1 e => cases e
  case h_9 e =>
    cases e
    rw [if_pos digit, read]
    rfl
  -- no word, string, container or sign starts with a digit
  all_goals
    next e =>
      cases e
      cases digit

theorem readValueWith_negative (ends : Ends rest) (limit : Nat)
    (nested : Option (List Char → Read Value)) {n : Nat} (low : n < 0x8000000000000000) :
    readValueWith limit nested ('-' :: (Nat.toDigits 10 (n + 1) ++ rest)) =
      .ok (.number (.integer (.negSucc n)), rest) := by
  have read := readNumber_toDigits (n := n + 1) ends true (by omega)
  rw [readAfterInteger_ends ends, if_pos rfl, if_neg (by omega)] at read
  have minus : isSpace '-' = false := rfl
  simp only [readValueWith, skipSpace_cons minus, read]
  rfl

theorem length_pos_of_starts {cs : List Char} (h : Starts cs) : 0 < cs.length := by
  obtain ⟨c, tail, rfl, -⟩ := h
  exact Nat.zero_lt_succ _

/-- **A plain value is read back from its text.** -/
theorem readValue_written {depth : Nat} {v : Value} (h : Plain depth v) {limit : Nat} (indent : Nat)
    (ends : Ends rest) (room : (writePretty indent v).length ≤ limit) :
    readValue limit depth (writePretty indent v ++ rest) = .ok (v, rest) := by
  induction h generalizing indent rest with
  | null => exact readValue_of_forall fun _ => rfl
  | bool b => cases b <;> exact readValue_of_forall fun _ => rfl
  | integer i low high =>
    refine readValue_of_forall fun nested => ?_
    cases i with
    | ofNat n => exact readValueWith_natural ends limit nested (Int.ofNat_lt.mp high)
    | negSucc n => exact readValueWith_negative ends limit nested (by omega)
  | string s =>
    refine readValue_of_forall fun nested => ?_
    have quote : isSpace '"' = false := rfl
    rw [writePretty, writeString_append]
    simp only [readValueWith, skipSpace_cons quote, readString_escaped]
    rfl
  | @array depth xs items ih =>
    have bracket : isSpace '[' = false := rfl
    have filled := length_pos_of_starts (starts_written (.array xs items) indent)
    obtain ⟨limit, rfl⟩ := Nat.exists_eq_add_of_le' (Nat.le_trans filled room)
    cases xs with
    | nil => rfl
    | cons x xs =>
      simp only [writePretty, List.length_cons, List.length_append] at room
      have enough : xs.length < limit := Nat.lt_of_lt_of_le (length_lt_items indent xs) (by omega)
      have reads (y : Value) (hy : y ∈ x :: xs) (rest : List Char) (ends : Ends rest) :
          readValue (limit + 1) depth (writePretty (indent + 1) y ++ rest) = .ok (y, rest) := by
        refine ih y hy (indent + 1) ends ?_
        rcases List.mem_cons.mp hy with rfl | hy
        · omega
        · exact Nat.le_trans (length_le_items hy) (by omega)
      have listed := readItems_list (readValue (limit + 1) depth) indent rest
        (fun y hy => starts_written (items y hy) (indent + 1)) reads enough
      simp only [writePretty, readValue, List.cons_append, List.append_assoc, readValueWith,
        skipSpace_cons bracket, listed]
      rfl
  | @object depth xs rising entries ih =>
    have bracket : isSpace '{' = false := rfl
    have filled := length_pos_of_starts (starts_written (.object xs rising entries) indent)
    obtain ⟨limit, rfl⟩ := Nat.exists_eq_add_of_le' (Nat.le_trans filled room)
    cases xs with
    | nil => rfl
    | cons x xs =>
      obtain ⟨key, x⟩ := x
      simp only [writePretty, List.length_cons, List.length_append] at room
      have enough : xs.length < limit := Nat.lt_of_lt_of_le (length_lt_entries indent xs) (by omega)
      have reads (y : String × Value) (hy : y ∈ (key, x) :: xs) (rest : List Char)
          (ends : Ends rest) :
          readValue (limit + 1) depth (' ' :: (writePretty (indent + 1) y.2 ++ rest)) =
            .ok (y.2, rest) := by
        rw [readValue_space]
        refine ih y hy (indent + 1) ends ?_
        rcases List.mem_cons.mp hy with rfl | hy
        · show (writePretty (indent + 1) x).length ≤ limit + 1
          omega
        · exact Nat.le_trans (length_le_entries hy) (by omega)
      have listed := readEntries_object (readValue (limit + 1) depth) indent rest reads rising enough
      simp only [writePretty, readValue, List.cons_append, List.append_assoc, readValueWith,
        skipSpace_cons bracket, listed]
      rfl

/-- **The text of a plain value, taken as a whole, holds that value.** -/
theorem parse_pretty {v : Value} (h : Plain deepest v) : Value.parse v.pretty = .ok v := by
  have room : (writePretty 0 v).length ≤ v.pretty.length :=
    Nat.le_of_eq String.length_ofList.symm
  have text : v.pretty.toList = writePretty 0 v := String.toList_ofList
  have read := readValue_written h 0 ends_nil room
  rw [List.append_nil] at read
  simp only [Value.parse, readAll, text, read]
  rfl

end Retro24.Json
