/-
  File:      Retro24/Proofs/Json/Grammar.lean
  Subject:   Which texts are JSON, said without any reader.

  * `Spaces`, `Spelled`, `Passed`, `Numeral`, `Scalar`: spaces, strings with and without the
    characters that they stand for, numbers, and all values that are no containers.
  * `Written`: values, and containers behind their opening bracket; one text of every `Form`.
  * `IsJson`, `IsObject`: whole texts.
  * `Members`, `Items`: the insides of an object and of a list with the texts of their values;
    `Members.written`, `Items.written` say that these are containers.
  * `Entries`: the inside of an object with its names as they are written; `Legible`: those of its
    entries whose names are texts. `members_iff`: members are entries all of whose names are.
-/
import Retro24.Json.Record

namespace Retro24.Json

/-! ## 1. Spaces -/

/-- Nothing but spaces. -/
def Spaces (s : List Char) : Prop := ∀ c ∈ s, isSpace c = true

theorem spaces_nil : Spaces [] := nofun

theorem skipSpace_append {s : List Char} (spaces : Spaces s) (cs : List Char) :
    skipSpace (s ++ cs) = skipSpace cs :=
  List.dropWhile_append_of_pos spaces

/-- The spaces that are skipped. -/
theorem exists_spaces (cs : List Char) : ∃ s, Spaces s ∧ cs = s ++ skipSpace cs := by
  refine ⟨cs.takeWhile isSpace, fun c inside => ?_, List.takeWhile_append_dropWhile.symm⟩
  exact List.all_eq_true.mp List.all_takeWhile c inside

theorem Spaces.append {s t : List Char} (left : Spaces s) (right : Spaces t) : Spaces (s ++ t) :=
  fun c inside => (List.mem_append.mp inside).elim (left c) (right c)

/-! ## 2. Strings -/

/-- The digits of a code unit. -/
inductive CodeUnit : List Char → Nat → Prop where
  | mk {a b c d : Char} {w x y z : Nat} (first : hexValue? a = some w) (second : hexValue? b = some x)
      (third : hexValue? c = some y) (fourth : hexValue? d = some z) :
      CodeUnit [a, b, c, d] (((w * 16 + x) * 16 + y) * 16 + z)

/-- What stands behind a backslash, and the character that it stands for. -/
inductive Escape : List Char → Char → Prop where
  | short {e c : Char} (known : shortEscape? e = some c) : Escape [e] c
  | single {ds : List Char} {n : Nat} (digits : CodeUnit ds n) (leads : isLeading n = false)
      (trails : isTrailing n = false) : Escape ('u' :: ds) (Char.ofNat n)
  | pair {ds es : List Char} {first second : Nat} (digits : CodeUnit ds first)
      (leads : isLeading first = true) (others : CodeUnit es second)
      (trails : isTrailing second = true) :
      Escape ('u' :: (ds ++ '\\' :: 'u' :: es)) (pairChar first second)

/-- A character that stands for itself between quotes. -/
structure Unescaped (c : Char) : Prop where
  quote : c ≠ '"'
  backslash : c ≠ '\\'
  visible : ¬c.toNat < 0x20

instance : DecidablePred Unescaped := fun c =>
  decidable_of_iff (c ≠ '"' ∧ c ≠ '\\' ∧ ¬c.toNat < 0x20)
    ⟨fun ⟨quote, backslash, visible⟩ => ⟨quote, backslash, visible⟩,
      fun plain => ⟨plain.quote, plain.backslash, plain.visible⟩⟩

/-- The inside of a string, and the characters that it stands for. -/
inductive Spelled : List Char → List Char → Prop where
  | nil : Spelled [] []
  | plain {c : Char} {raw cs : List Char} (plain : Unescaped c) (others : Spelled raw cs) :
      Spelled (c :: raw) (c :: cs)
  | escape {e raw cs : List Char} {c : Char} (escape : Escape e c) (others : Spelled raw cs) :
      Spelled ('\\' :: (e ++ raw)) (c :: cs)

/-- The inside of a string that nobody reads. A code unit may be half of a character. -/
inductive Passed : List Char → Prop where
  | nil : Passed []
  | plain {c : Char} {raw : List Char} (plain : Unescaped c) (others : Passed raw) : Passed (c :: raw)
  | short {e c : Char} {raw : List Char} (known : shortEscape? e = some c) (others : Passed raw) :
      Passed ('\\' :: e :: raw)
  | unit {ds raw : List Char} {n : Nat} (digits : CodeUnit ds n) (others : Passed raw) :
      Passed ('\\' :: 'u' :: (ds ++ raw))

/-- Characters that stand for themselves spell themselves. -/
theorem Spelled.of_plain {cs : List Char} (plain : ∀ c ∈ cs, Unescaped c) : Spelled cs cs := by
  induction cs with
  | nil => exact .nil
  | cons c cs ih =>
    rw [List.forall_mem_cons] at plain
    exact .plain plain.1 (ih plain.2)

/-- A string that stands for characters is a string. -/
theorem Spelled.passed {raw cs : List Char} (spelled : Spelled raw cs) : Passed raw := by
  induction spelled with
  | nil => exact .nil
  | plain plain _ ih => exact .plain plain ih
  | escape escape _ ih =>
    cases escape with
    | short known => exact .short known ih
    | single digits _ _ => exact .unit digits ih
    | pair digits _ others _ =>
      rw [List.cons_append, List.append_assoc]
      exact .unit digits (.unit others ih)

/-- A string with its quotes. -/
def quotedText (raw : List Char) : List Char := '"' :: (raw ++ ['"'])

theorem quotedText_append (raw cs : List Char) : quotedText raw ++ cs = '"' :: (raw ++ '"' :: cs) := by
  rw [quotedText, List.cons_append, List.append_assoc]
  rfl

/-- The text of a string. -/
def IsText (v : List Char) (s : String) : Prop := ∃ raw, Spelled raw s.toList ∧ v = quotedText raw

theorem spelled_plain {s : String} (plain : (s.toList.all (decide <| Unescaped ·)) = true) :
    Spelled s.toList s.toList :=
  .of_plain fun c inside => of_decide_eq_true (List.all_eq_true.mp plain c inside)

theorem isText_plain {s : String} (plain : (s.toList.all (decide <| Unescaped ·)) = true) :
    IsText (quotedText s.toList) s :=
  ⟨s.toList, spelled_plain plain, rfl⟩

/-! ## 3. Numbers and words -/

/-- One digit or more. -/
structure Digits (ds : List Char) : Prop where
  filled : ds ≠ []
  digits : ∀ c ∈ ds, c.isDigit = true

/-- The digits in front of the point. A zero stands alone. -/
inductive Whole : List Char → Prop where
  | zero : Whole ['0']
  | long {c : Char} {ds : List Char} (digits : Digits (c :: ds)) (positive : c ≠ '0') :
      Whole (c :: ds)

/-- A point with digits, or neither. -/
inductive Fraction : List Char → Prop where
  | none : Fraction []
  | some {ds : List Char} (digits : Digits ds) : Fraction ('.' :: ds)

/-- An exponent, or none. -/
inductive Exponent : List Char → Prop where
  | none : Exponent []
  | some {e : Char} {sign ds : List Char} (letter : e = 'e' ∨ e = 'E')
      (signed : sign = [] ∨ sign = ['+'] ∨ sign = ['-']) (digits : Digits ds) :
      Exponent (e :: (sign ++ ds))

/-- A number without its sign. -/
inductive Numeral : List Char → Prop where
  | mk {w f x : List Char} (whole : Whole w) (fraction : Fraction f) (exponent : Exponent x) :
      Numeral (w ++ (f ++ x))

/-- The values that are no containers. -/
inductive Scalar : List Char → Prop where
  | null : Scalar ['n', 'u', 'l', 'l']
  | yes : Scalar ['t', 'r', 'u', 'e']
  | no : Scalar ['f', 'a', 'l', 's', 'e']
  | string {raw : List Char} (passed : Passed raw) : Scalar (quotedText raw)
  | number {ds : List Char} (numeral : Numeral ds) : Scalar ds
  | negative {ds : List Char} (numeral : Numeral ds) : Scalar ('-' :: ds)

/-! ## 4. Values -/

/-- The opening bracket of a container. -/
def Container.opening : Container → Char
  | .list => '['
  | .object => '{'

/-- The closing bracket of a container. -/
def Container.closing : Container → Char
  | .list => ']'
  | .object => '}'

/-- What stands in front of a part of a container: spaces, and a comma unless it is the first. -/
inductive Leads : Bool → List Char → Prop where
  | first {s : List Char} (spaces : Spaces s) : Leads true s
  | next {s t : List Char} (before : Spaces s) (behind : Spaces t) : Leads false (s ++ ',' :: t)

/-- The key of a part of a container with its colon, if it has one. -/
inductive Key : Container → List Char → Prop where
  | none : Key .list []
  | named {raw t : List Char} (passed : Passed raw) (spaces : Spaces t) :
      Key .object (quotedText raw ++ (t ++ [':']))

/-- A value, or what is left of a container in front of a part or of its end. -/
inductive Form where
  | value
  | inside (container : Container) (first : Bool)

/-- The texts of every form. -/
inductive Written : Form → List Char → Prop where
  | scalar {v : List Char} (scalar : Scalar v) : Written .value v
  | container {c : Container} {r : List Char} (inside : Written (.inside c true) r) :
      Written .value (c.opening :: r)
  | ended {c : Container} {first : Bool} {s : List Char} (spaces : Spaces s) :
      Written (.inside c first) (s ++ [c.closing])
  | part {c : Container} {first : Bool} {s k t v r : List Char} (leads : Leads first s)
      (key : Key c k) (spaces : Spaces t) (value : Written .value v)
      (others : Written (.inside c false) r) :
      Written (.inside c first) (s ++ (k ++ (t ++ (v ++ r))))

theorem IsText.written {v : List Char} {s : String} (text : IsText v s) : Written .value v := by
  obtain ⟨raw, spelled, rfl⟩ := text
  exact .scalar (.string spelled.passed)

/-- A text that is JSON. -/
def IsJson (text : String) : Prop :=
  ∃ s v t, Spaces s ∧ Written .value v ∧ Spaces t ∧ text.toList = s ++ (v ++ t)

/-- A text that is an object. -/
def IsObject (text : String) : Prop :=
  ∃ s r t, Spaces s ∧ Written (.inside .object true) r ∧ Spaces t ∧
    text.toList = s ++ '{' :: (r ++ t)

/-! ## 5. Containers with what is in them -/

/-- The inside of an object from an entry on, its names as texts and its values as they are
    written. -/
inductive Members : Bool → List (String × List Char) → List Char → Prop where
  | ended {first : Bool} {s : List Char} (spaces : Spaces s) : Members first [] (s ++ ['}'])
  | member {first : Bool} {name : String} {ms : List (String × List Char)} {s k t u v r : List Char}
      (leads : Leads first s) (named : IsText k name) (before : Spaces t) (behind : Spaces u)
      (value : Written .value v) (others : Members false ms r) :
      Members first ((name, v) :: ms) (s ++ (k ++ (t ++ ':' :: (u ++ (v ++ r)))))

theorem Members.written {first : Bool} {ms : List (String × List Char)} {r : List Char}
    (members : Members first ms r) : Written (.inside .object first) r := by
  induction members with
  | ended spaces => exact .ended (c := .object) spaces
  | member leads named before behind value _ ih =>
    obtain ⟨raw, spelled, rfl⟩ := named
    have key := Key.named spelled.passed before
    have part := Written.part leads key behind value ih
    simp only [List.append_assoc, List.cons_append, List.nil_append] at part
    exact part

/-- The inside of an object from an entry on, its names and its values as they are written. A name may
    hold half of a character. -/
inductive Entries : Bool → List (List Char × List Char) → List Char → Prop where
  | ended {first : Bool} {s : List Char} (spaces : Spaces s) : Entries first [] (s ++ ['}'])
  | entry {first : Bool} {raw : List Char} {es : List (List Char × List Char)}
      {s t u v r : List Char} (leads : Leads first s) (passed : Passed raw) (before : Spaces t)
      (behind : Spaces u) (value : Written .value v) (others : Entries false es r) :
      Entries first ((quotedText raw, v) :: es)
        (s ++ (quotedText raw ++ (t ++ ':' :: (u ++ (v ++ r)))))

/-- Entries, and the members that those of them are whose names are texts. -/
inductive Legible : List (List Char × List Char) → List (String × List Char) → Prop where
  | nil : Legible [] []
  | named {k v : List Char} {name : String} {es : List (List Char × List Char)}
      {ms : List (String × List Char)} (named : IsText k name) (others : Legible es ms) :
      Legible ((k, v) :: es) ((name, v) :: ms)
  | garbled {k v : List Char} {es : List (List Char × List Char)} {ms : List (String × List Char)}
      (garbled : ∀ name, ¬ IsText k name) (others : Legible es ms) : Legible ((k, v) :: es) ms

/-- Members are entries all of whose names are texts. -/
theorem members_iff {first : Bool} {ms : List (String × List Char)} {r : List Char} :
    Members first ms r ↔
      ∃ es, Entries first es r ∧ Legible es ms ∧ ∀ e ∈ es, ∃ name, IsText e.1 name := by
  constructor
  · intro members
    induction members with
    | ended spaces => exact ⟨[], .ended spaces, .nil, nofun⟩
    | member leads named before behind value _ ih =>
      obtain ⟨es, others, legible, texts⟩ := ih
      obtain ⟨raw, spelled, rfl⟩ := named
      have text : IsText (quotedText raw) _ := ⟨raw, spelled, rfl⟩
      exact ⟨_, .entry leads spelled.passed before behind value others, .named text legible,
        List.forall_mem_cons.mpr ⟨⟨_, text⟩, texts⟩⟩
  · rintro ⟨es, entries, legible, texts⟩
    induction entries generalizing ms with
    | ended spaces =>
      cases legible
      exact .ended spaces
    | entry leads _ before behind value _ ih =>
      obtain ⟨⟨name, text⟩, texts⟩ := List.forall_mem_cons.mp texts
      cases legible with
      | named named others => exact .member leads named before behind value (ih others texts)
      | garbled garbled _ => exact absurd text (garbled name)

/-- The inside of a list from an element on, with its elements as they are written. -/
inductive Items : Bool → List (List Char) → List Char → Prop where
  | ended {first : Bool} {s : List Char} (spaces : Spaces s) : Items first [] (s ++ [']'])
  | item {first : Bool} {vs : List (List Char)} {s v r : List Char} (leads : Leads first s)
      (value : Written .value v) (others : Items false vs r) :
      Items first (v :: vs) (s ++ (v ++ r))

theorem Items.written {first : Bool} {vs : List (List Char)} {r : List Char}
    (items : Items first vs r) : Written (.inside .list first) r := by
  induction items with
  | ended spaces => exact .ended (c := .list) spaces
  | item leads value _ ih => exact .part leads .none spaces_nil value ih

end Retro24.Json
