/-
  File:      Retro24/Json/Record.lean
  Subject:   Structures, read straight from a text without a value in between.

  * `wrongTypeAt`: the failure at a value of the wrong kind; a scalar is read to be shown.
  * `readNat`, `readText`, `readName`: bounded naturals, strings, names from a table of choices.
  * `readStruct`: a structure, from an object or from an array of its fields in order. Keys of no
    field are passed over with their values, and a field may stand only once. The fields may all be
    required, or each keep what it is when the text lacks it.
-/
import Retro24.Json.Decoding
import Retro24.Json.Reading

namespace Retro24.Json

/-! ## 1. Simple values -/

/-- A mismatch at the start of `rest`. -/
def mismatchAt (m : Mismatch) (rest : List Char) : Failure := failure (.mismatch m) rest 0

/-- The failure at a value of the wrong kind. The text starts with the value. -/
def wrongTypeAt (expected : String) (cs : List Char) : Failure :=
  let shown (found : Found) (rest : List Char) := mismatchAt (.wrongType found expected) rest
  match cs with
  | [] => failure .endInValue [] 0
  | 'n' :: rest =>
    match expectWord ['u', 'l', 'l'] rest with
    | .ok rest => shown .null rest
    | .error e => e
  | 't' :: rest =>
    match expectWord ['r', 'u', 'e'] rest with
    | .ok rest => shown (.bool true) rest
    | .error e => e
  | 'f' :: rest =>
    match expectWord ['a', 'l', 's', 'e'] rest with
    | .ok rest => shown (.bool false) rest
    | .error e => e
  | '"' :: rest =>
    match readString rest with
    | .ok (s, rest) => shown (.string s) rest
    | .error e => e
  | '-' :: rest =>
    match readNumber true rest with
    | .ok (n, rest) => shown (.number n) rest
    | .error e => e
  | '[' :: _ => shown .sequence cs
  | '{' :: _ => shown .map cs
  | c :: _ =>
    if c.isDigit then
      match readNumber false cs with
      | .ok (n, rest) => shown (.number n) rest
      | .error e => e
    else failure .expectedValue cs 1

/-- What a decoded value is, read up to `rest`. -/
def orMismatch {α : Type} (x : Decoded α) (rest : List Char) : Read α :=
  match x with
  | .ok x => .ok (x, rest)
  | .error m => .error (mismatchAt m rest)

/-- A natural number below a bound. -/
def readNat (bound : Nat) (expected : String) (cs : List Char) : Read Nat :=
  let cs := skipSpace cs
  let decode (n : Read Number) : Read Nat :=
    n.bind fun (n, rest) => orMismatch ((Value.number n).decodeNat bound expected) rest
  match cs with
  | '-' :: rest => decode (readNumber true rest)
  | c :: _ =>
    if c.isDigit then decode (readNumber false cs) else .error (wrongTypeAt expected cs)
  | [] => .error (failure .endInValue [] 0)

/-- A string. -/
def readText (expected : String) (cs : List Char) : Read String :=
  let cs := skipSpace cs
  match cs with
  | '"' :: rest => readString rest
  | _ => .error (wrongTypeAt expected cs)

/-- The null that stands for the content of a name. -/
def readUnit (cs : List Char) : Except Failure (List Char) :=
  let cs := skipSpace cs
  match cs with
  | 'n' :: rest => expectWord ['u', 'l', 'l'] rest
  | _ => .error (wrongTypeAt "unit" cs)

/-- One of a table of choices, by its name alone or by its name as the only key of an object. -/
def readName {α : Type} (choices : List (String × α)) (cs : List Char) : Read α :=
  let cs := skipSpace cs
  match cs with
  | [] => .error (failure .endInValue [] 0)
  | '"' :: rest => (readString rest).bind fun (s, rest) => orMismatch (Value.choose choices s) rest
  | '{' :: rest =>
    match readText "variant identifier" rest with
    | .error e => .error e
    | .ok (s, rest) =>
      match orMismatch (Value.choose choices s) rest with
      | .error e => .error e
      | .ok (x, rest) =>
        match (expectColon rest).bind readUnit with
        | .error e => .error e
        | .ok rest =>
          let rest := skipSpace rest
          match rest with
          | '}' :: rest => .ok (x, rest)
          | [] => .error (failure .endInObject [] 0)
          | _ => .error (failure .expectedValue rest 0)
  | _ => .error (failure .expectedValue cs 1)

/-! ## 2. Structures -/

/-- A field of a structure: its name, and how its value is read into a draft of the structure. -/
structure FieldReader (σ : Type) where
  name : String
  read : List Char → σ → Read σ

/-- The rest of a text behind a list that ends here, or up to what stands in the way of its end. -/
def behindList (cs : List Char) : List Char :=
  match endList cs with
  | .ok rest => rest
  | .error e => e.rest

/-- The rest of a text behind an object that ends here, or up to what stands in the way of its
    end. -/
def behindObject (cs : List Char) : List Char :=
  match endObject cs with
  | .ok rest => rest
  | .error e => e.rest

/-- The entries of an object read into a draft, `present` being the names of the fields it has. -/
def readFields {σ : Type} (limit : Nat) (required : Bool) (fields : List (FieldReader σ))
    (first : Bool) (present : List String) (draft : σ) (cs : List Char) : Nat → Read σ
  | 0 => .error (failure .endInObject cs 0)
  | turns + 1 =>
    match nextKey first cs with
    | .error e => .error e
    | .ok (false, rest) =>
      match fields.find? fun f => required && !present.contains f.name with
      | some field => .error (mismatchAt (.missingField field.name) (behindObject rest))
      | none => (endObject rest).map fun rest => (draft, rest)
    | .ok (true, rest) =>
      match readString rest with
      | .error e => .error e
      | .ok (key, rest) =>
        match fields.find? fun f => f.name == key with
        | none =>
          match (expectColon rest).bind (skipValue limit) with
          | .error e => .error e
          | .ok rest => readFields limit required fields false present draft rest turns
        | some field =>
          if present.contains key then
            .error (mismatchAt (.duplicateField key) (behindObject rest))
          else
            match (expectColon rest).bind fun rest => field.read rest draft with
            | .error e => .error e
            | .ok (draft, rest) =>
              readFields limit required fields false (key :: present) draft rest turns

theorem readFields_zero {σ : Type} (limit : Nat) (required : Bool) (fields : List (FieldReader σ))
    (first : Bool) (present : List String) (draft : σ) (cs : List Char) :
    readFields limit required fields first present draft cs 0 =
      .error (failure .endInObject cs 0) := by
  rw [readFields]

/-- The elements of a list read into a draft, field by field, `index` of them being done. -/
def readInOrder {σ : Type} (required : Bool) (expected : String) (index : Nat) (draft : σ)
    (cs : List Char) : List (FieldReader σ) → Read σ
  | [] => (endList cs).map fun rest => (draft, rest)
  | field :: fields =>
    match nextElement (index == 0) cs with
    | .error e => .error e
    | .ok (false, rest) =>
      if required then .error (mismatchAt (.wrongLength index expected) (behindList rest))
      else (endList rest).map fun rest => (draft, rest)
    | .ok (true, rest) =>
      match field.read rest draft with
      | .error e => .error e
      | .ok (draft, rest) => readInOrder required expected (index + 1) draft rest fields

/-- A structure. Fields that the text lacks keep what they are in `blank`, unless all of them are
    required. -/
def readStruct {σ : Type} (limit : Nat) (name : String) (required : Bool)
    (fields : List (FieldReader σ)) (blank : σ) (cs : List Char) : Read σ :=
  let cs := skipSpace cs
  match cs with
  | '{' :: rest => readFields limit required fields true [] blank rest limit
  | '[' :: rest =>
    readInOrder required (Value.elementsText name fields.length) 0 blank rest fields
  | _ => .error (wrongTypeAt name cs)

end Retro24.Json
