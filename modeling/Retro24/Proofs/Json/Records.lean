/-
  File:      Retro24/Proofs/Json/Records.lean
  Subject:   A structure that was written over several lines is read back.

  * `readText_written`, `readNat_written`, `readName_written`: a string, a number and a name behind
    their key.
  * `Fills`: entries that the fields of a structure read one after another, from one draft to the
    last one.
  * `readFields_turn`: one entry; `readFields_through`: from it all that fill a draft, by induction on
    the entries.
  * `readStruct_written`, `readStruct_missing`, `readStruct_refused`: the whole structure, one that
    lacks a field, and one with a field that is refused.
-/
import Retro24.Json.Record
import Retro24.Proofs.Json.RoundTrip
import Retro24.Proofs.Json.Structures

namespace Retro24.Json

variable {rest : List Char}

/-! ## 1. Values behind their keys -/

theorem skipSpace_space (cs : List Char) : skipSpace (' ' :: cs) = skipSpace cs := rfl

theorem skipSpace_string (s : String) (cs : List Char) :
    skipSpace (' ' :: (writeString s ++ cs)) =
      '"' :: (s.toList.flatMap escapeChar ++ '"' :: cs) := by
  have quote : isSpace '"' = false := rfl
  rw [skipSpace_space, writeString_append, skipSpace_cons quote]

theorem readText_written (expected s : String) :
    readText expected (' ' :: (writeString s ++ rest)) = .ok (s, rest) := by
  unfold readText
  rw [skipSpace_string]
  exact readString_escaped s

theorem readName_written {α : Type} {choices : List (String × α)} {s : String} {x : α}
    (chosen : Value.choose choices s = .ok x) :
    readName choices (' ' :: (writeString s ++ rest)) = .ok (x, rest) := by
  unfold readName
  rw [skipSpace_string]
  simp only [readString_escaped, Except.bind, chosen]
  rfl

theorem readNat_written {bound n : Nat} (expected : String) (indent : Nat) (ends : Ends rest)
    (below : n < bound) (word : bound ≤ 0x10000000000000000) :
    readNat bound expected (' ' :: (writePretty indent (.ofNat n) ++ rest)) = .ok (n, rest) := by
  have digits : writePretty indent (.ofNat n) = Nat.toDigits 10 n := rfl
  have decoded : (Value.ofNat n).decodeNat bound expected = .ok n :=
    decodeNat_eq_ok_iff.mpr ⟨rfl, below⟩
  have read := readNumber_toDigits ends false (Nat.lt_of_lt_of_le below word)
  rw [readAfterInteger_ends ends, if_neg Bool.false_ne_true] at read
  obtain ⟨c, ds, written, digit⟩ := toDigits_eq_cons n
  rw [digits]
  rw [written, List.cons_append] at read ⊢
  simp only [readNat, skipSpace_space, skipSpace_cons (isSpace_digit digit)]
  split
  · next e =>
    cases e
    cases digit
  · next e =>
    cases e
    rw [if_pos digit, read]
    exact congrArg (orMismatch · rest) decoded
  · next e => cases e

/-- What is read goes where the field puts it. -/
theorem map_written {α σ : Type} {x : Read α} {a : α} (read : x = .ok (a, rest)) (put : α → σ) :
    x.map (fun (a, rest) => (put a, rest)) = .ok (put a, rest) := by
  rw [read]
  rfl

/-! ## 2. Entries and fields -/

section Fields

variable {σ : Type} {fields : List (FieldReader σ)} {indent : Nat} {draft draft' : σ}

/-- Entries that the fields of a structure read one after another, from a draft to another one. -/
inductive Fills (fields : List (FieldReader σ)) (indent : Nat) :
    σ → List (String × Value) → σ → Prop where
  | nil (draft : σ) : Fills fields indent draft [] draft
  | cons {draft next last : σ} {key : String} {v : Value} {xs : List (String × Value)}
      {field : FieldReader σ} (found : fields.find? (fun f => f.name == key) = some field)
      (reads : ∀ rest, Ends rest →
        field.read (' ' :: (writePretty indent v ++ rest)) draft = .ok (next, rest))
      (others : Fills fields indent next xs last) : Fills fields indent draft ((key, v) :: xs) last

theorem Fills.append {last : σ} {xs ys : List (String × Value)}
    (front : Fills fields indent draft xs draft') (behind : Fills fields indent draft' ys last) :
    Fills fields indent draft (xs ++ ys) last := by
  induction front with
  | nil draft => exact behind
  | cons found reads _ ih => exact .cons found reads (ih behind)

/-- **One entry**: its key names a field that has not been given, and the field reads its value. -/
theorem readFields_turn {limit turns : Nat} {required first : Bool} {present : List String}
    {key : String} {field : FieldReader σ} {cs value : List Char}
    (next : nextKey first cs = .ok (true, key.toList.flatMap escapeChar ++ '"' :: ':' :: value))
    (found : fields.find? (fun f => f.name == key) = some field) (fresh : key ∉ present)
    (reads : field.read value draft = .ok (draft', rest)) :
    readFields limit required fields first present draft cs (turns + 1) =
      readFields limit required fields false (key :: present) draft' rest turns := by
  have given : present.contains key = false := by
    rw [List.contains_eq_mem]
    exact decide_eq_false fresh
  simp only [readFields, next, readString_escaped, found, given, expectColon_colon, Except.bind,
    reads]
  rfl

/-- No field is missing behind entries that have the names of all of them. -/
theorem find?_missing {required : Bool} {present : List String}
    (all : required = true → ∀ f ∈ fields, f.name ∈ present) :
    fields.find? (fun f => required && !present.contains f.name) = none := by
  rw [List.find?_eq_none]
  intro f inside missing
  rw [Bool.and_eq_true, Bool.not_eq_true', List.contains_eq_mem, decide_eq_false_iff_not] at missing
  exact missing.2 (all missing.1 f inside)

/-- The entries of an object from one on, of which the first one stands behind no comma, and its
    closing bracket. -/
def entriesText (indent : Nat) : Bool → List (String × Value) → List Char
  | true, [] => ['}']
  | true, (key, v) :: xs =>
    newLine (indent + 1) ++ (writeString key ++ ':' :: ' ' ::
      (writePretty (indent + 1) v ++ writePrettyEntries indent xs))
  | false, xs => writePrettyEntries indent xs

theorem writePretty_object (indent : Nat) (xs : List (String × Value)) :
    writePretty indent (.object xs) = '{' :: entriesText indent true xs := by
  cases xs <;> rfl

theorem nextKey_entry (indent : Nat) (first : Bool) (key : String) (v : Value)
    (xs : List (String × Value)) (rest : List Char) :
    nextKey first (entriesText indent first ((key, v) :: xs) ++ rest) =
      .ok (true, key.toList.flatMap escapeChar ++ '"' :: ':' :: ' ' ::
        (writePretty (indent + 1) v ++ (entriesText indent false xs ++ rest))) := by
  cases first with
  | true =>
    simp only [entriesText, List.append_assoc, List.cons_append, writeString_append]
    exact nextKey_first (indent + 1) _
  | false =>
    simp only [entriesText, writePrettyEntries, List.append_assoc, List.cons_append,
      writeString_append]
    exact nextKey_next (indent + 1) _

theorem nextKey_closed (indent : Nat) (first : Bool) (rest : List Char) :
    nextKey first (entriesText indent first [] ++ rest) = .ok (false, '}' :: rest) := by
  cases first with
  | true => rfl
  | false =>
    rw [entriesText, writePrettyEntries, List.append_assoc]
    exact nextKey_closing (spaces_newLine indent) rest

/-- **Entries that fill a draft are read**, one turn each, up to those behind them. -/
theorem readFields_through (limit : Nat) (required : Bool) {xs : List (String × Value)}
    (fills : Fills fields (indent + 1) draft xs draft') (present : List String)
    (fresh : ∀ x ∈ xs, x.1 ∉ present) (distinct : (xs.map Prod.fst).Nodup) (first : Bool)
    (turns : Nat) (ys : List (String × Value)) (rest : List Char) :
    readFields limit required fields first present draft
        (entriesText indent first (xs ++ ys) ++ rest) (turns + xs.length) =
      readFields limit required fields (first && xs.isEmpty) ((xs.map Prod.fst).reverse ++ present)
        draft' (entriesText indent (first && xs.isEmpty) ys ++ rest) turns := by
  induction fills generalizing present first with
  | nil draft => rw [List.isEmpty_nil, Bool.and_true]; rfl
  | @cons draft next last key v xs field found reads others ih =>
    rw [List.map_cons, List.nodup_cons] at distinct
    have value := reads _ (ends_entries indent (xs ++ ys) rest)
    have unused : key ∉ present := fresh (key, v) List.mem_cons_self
    refine (readFields_turn (nextKey_entry indent first key v (xs ++ ys) rest) found unused
      value).trans ((ih (key :: present) ?_ distinct.2 false).trans ?_)
    · intro x inside given
      rcases List.mem_cons.mp given with same | given
      · have listed : x.1 ∈ xs.map Prod.fst := List.mem_map_of_mem inside
        rw [same] at listed
        exact distinct.1 listed
      · exact fresh x (List.mem_cons_of_mem _ inside) given
    · rw [List.map_cons, List.reverse_cons, List.append_assoc, List.isEmpty_cons, Bool.and_false,
        Bool.false_and]
      rfl

theorem readStruct_space (limit : Nat) (name : String) (required : Bool) (blank : σ)
    (cs : List Char) :
    readStruct limit name required fields blank (' ' :: cs) =
      readStruct limit name required fields blank cs := by
  simp only [readStruct, skipSpace_space]

/-- A structure whose first entries fill a draft is read like the entries behind them. -/
theorem readStruct_through {limit : Nat} (name : String) (required : Bool) {blank : σ}
    {xs : List (String × Value)} (fills : Fills fields (indent + 1) blank xs draft)
    (distinct : (xs.map Prod.fst).Nodup) {turns : Nat} (room : turns + xs.length = limit)
    (ys : List (String × Value)) (rest : List Char) :
    ∃ first, readStruct limit name required fields blank
        (writePretty indent (.object (xs ++ ys)) ++ rest) =
      readFields limit required fields first (xs.map Prod.fst).reverse draft
        (entriesText indent first ys ++ rest) turns := by
  have brace : isSpace '{' = false := rfl
  have entries := readFields_through limit required fills [] (fun _ _ => List.not_mem_nil) distinct
    true turns ys rest
  rw [room, List.append_nil] at entries
  refine ⟨true && xs.isEmpty, Eq.trans ?_ entries⟩
  simp only [writePretty_object, List.cons_append, readStruct, skipSpace_cons brace]

/-- **A structure is read back**, if its entries fill a draft and name every field that is
    required. -/
theorem readStruct_written {limit : Nat} (name : String) {required : Bool} {blank : σ}
    {xs : List (String × Value)} (fills : Fills fields (indent + 1) blank xs draft)
    (distinct : (xs.map Prod.fst).Nodup)
    (all : required = true → ∀ f ∈ fields, f.name ∈ xs.map Prod.fst) (room : xs.length < limit) :
    readStruct limit name required fields blank
      (writePretty indent (.object xs) ++ rest) = .ok (draft, rest) := by
  obtain ⟨turns, enough⟩ : ∃ turns, turns + 1 + xs.length = limit :=
    ⟨limit - xs.length - 1, by omega⟩
  obtain ⟨first, read⟩ := readStruct_through name required fills distinct enough [] rest
  have none := find?_missing fun needed f inside => List.mem_reverse.mpr (all needed f inside)
  rw [List.append_nil] at read
  rw [read]
  simp only [readFields, nextKey_closed, none, endObject_end]
  rfl

/-- **A structure is refused** whose entries fill a draft, but lack a field that is required. -/
theorem readStruct_missing {limit : Nat} (name : String) {blank : σ} {xs : List (String × Value)}
    (fills : Fills fields (indent + 1) blank xs draft) (distinct : (xs.map Prod.fst).Nodup)
    {field : FieldReader σ}
    (missing : fields.find? (fun f => !(xs.map Prod.fst).contains f.name) = some field)
    (room : xs.length < limit) :
    readStruct limit name true fields blank (writePretty indent (.object xs) ++ rest) =
      .error (mismatchAt (.missingField field.name) rest) := by
  obtain ⟨turns, enough⟩ : ∃ turns, turns + 1 + xs.length = limit :=
    ⟨limit - xs.length - 1, by omega⟩
  obtain ⟨first, read⟩ := readStruct_through name true fills distinct enough [] rest
  have behind : (fun f : FieldReader σ => true && !(xs.map Prod.fst).reverse.contains f.name) =
      fun f => !(xs.map Prod.fst).contains f.name := by
    funext f
    simp only [Bool.true_and, List.contains_eq_mem, List.mem_reverse]
  rw [List.append_nil] at read
  rw [read]
  simp only [readFields, nextKey_closed, behind, missing]
  rfl

/-- **A structure is refused** when one of its fields is. -/
theorem readStruct_refused {limit : Nat} (name : String) (required : Bool) {blank : σ}
    {xs ys : List (String × Value)} (fills : Fills fields (indent + 1) blank xs draft)
    {key : String} {v : Value} (distinct : (key :: xs.map Prod.fst).Nodup) {field : FieldReader σ}
    (found : fields.find? (fun f => f.name == key) = some field) {e : Failure}
    (refused : field.read (' ' :: (writePretty (indent + 1) v ++
      (entriesText indent false ys ++ rest))) draft = .error e) (room : xs.length < limit) :
    readStruct limit name required fields blank
      (writePretty indent (.object (xs ++ (key, v) :: ys)) ++ rest) = .error e := by
  rw [List.nodup_cons] at distinct
  obtain ⟨turns, enough⟩ : ∃ turns, turns + 1 + xs.length = limit :=
    ⟨limit - xs.length - 1, by omega⟩
  obtain ⟨first, read⟩ := readStruct_through name required fills distinct.2 enough
    ((key, v) :: ys) rest
  have given : (xs.map Prod.fst).reverse.contains key = false := by
    rw [List.contains_eq_mem, decide_eq_false_iff_not, List.mem_reverse]
    exact distinct.1
  rw [read]
  simp only [readFields, nextKey_entry, readString_escaped, found, given, expectColon_colon,
    Except.bind, refused]
  rfl

end Fields

end Retro24.Json
