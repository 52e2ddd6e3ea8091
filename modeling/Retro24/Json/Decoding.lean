/-
  File:      Retro24/Json/Decoding.lean
  Subject:   Values taken apart into the data that they stand for.

  * `Value.decodeNat`, `decodeBool`, `decodeList`: bounded naturals, truth values, sequences.
  * `Value.decodeStruct`: a structure, from an object or from an array of its fields in order. The
    entries of an object are looked at in the order of their keys and unknown ones passed over; the
    first bad one is the mismatch, and only then does a missing one count.
  * `Value.decodeName`: one of a list of names, alone or as the only key of an object.
-/
import Retro24.Json.Issue

namespace Retro24.Json

/-- Data or the reason why a value does not hold it. -/
abbrev Decoded (α : Type) := Except Mismatch α

/-- A field of a structure: its name, and how its value goes into a draft of the structure. -/
structure Member (σ : Type) where
  name : String
  decode : Value → σ → Decoded σ

namespace Value

/-! ## 1. Simple values -/

/-- A natural number below a bound. -/
def decodeNat (bound : Nat) (expected : String) (v : Value) : Decoded Nat :=
  match v with
  | number (.integer i) =>
    if 0 ≤ i ∧ i < bound then .ok i.toNat else .error (.wrongValue (.number (.integer i)) expected)
  | v => .error (.wrongType v.found expected)

/-- A byte. -/
def decodeByte (v : Value) : Decoded UInt8 := (v.decodeNat 0x100 "u8").map UInt8.ofNat

/-- A word of sixteen bits. -/
def decodeWord (v : Value) : Decoded UInt16 := (v.decodeNat 0x10000 "u16").map UInt16.ofNat

/-- A word of thirty-two bits. -/
def decodeLong (v : Value) : Decoded UInt32 := (v.decodeNat 0x100000000 "u32").map UInt32.ofNat

/-- A truth value. -/
def decodeBool (v : Value) : Decoded Bool :=
  match v with
  | bool b => .ok b
  | v => .error (.wrongType v.found "a boolean")

/-- Elements decoded one after another, `done` being the earlier ones, the last one first. -/
def decodeItems {α : Type} (item : Value → Decoded α) (done : List α) :
    List Value → Decoded (List α)
  | [] => .ok done.reverse
  | v :: vs =>
    match item v with
    | .error e => .error e
    | .ok x => decodeItems item (x :: done) vs

/-- A sequence. -/
def decodeList {α : Type} (item : Value → Decoded α) (v : Value) : Decoded (List α) :=
  match v with
  | array items => decodeItems item [] items
  | v => .error (.wrongType v.found "a sequence")

/-! ## 2. Structures -/

/-- The entries of an object put into a draft, and the names of the fields that they gave, on top of
    those in `present`. -/
def decodeEntries {σ : Type} (fields : List (Member σ)) (draft : σ) (present : List String) :
    List (String × Value) → Decoded (σ × List String)
  | [] => .ok (draft, present)
  | (key, v) :: rest =>
    match fields.find? fun f => f.name == key with
    | none => decodeEntries fields draft present rest
    | some field =>
      match field.decode v draft with
      | .error e => .error e
      | .ok draft => decodeEntries fields draft (key :: present) rest

/-- The elements of an array put into a draft, field by field, `index` of them being done. -/
def decodeInOrder {σ : Type} (expected : String) (index : Nat) (draft : σ) :
    List (Member σ) → List Value → Decoded σ
  | [], [] => .ok draft
  | [], rest => .error (.wrongLength (index + rest.length) "fewer elements in array")
  | _ :: _, [] => .error (.wrongLength index expected)
  | field :: fields, v :: vs =>
    match field.decode v draft with
    | .error e => .error e
    | .ok draft => decodeInOrder expected (index + 1) draft fields vs

/-- What a sequence of all fields of a structure is called. -/
def elementsText (name : String) (count : Nat) : String :=
  name ++ " with " ++ toString count ++ " elements"

/-- A draft with all of a structure's fields filled in. -/
def decodeStruct {σ : Type} (name : String) (fields : List (Member σ)) (blank : σ) (v : Value) :
    Decoded σ :=
  match v with
  | object entries =>
    match decodeEntries fields blank [] entries with
    | .error e => .error e
    | .ok (draft, present) =>
      match fields.find? fun f => !present.contains f.name with
      | some field => .error (.missingField field.name)
      | none => .ok draft
  | array items => decodeInOrder (elementsText name fields.length) 0 blank fields items
  | v => .error (.wrongType v.found name)

/-! ## 3. Names -/

/-- What a name stands for in a table of choices. -/
def choose {α : Type} (choices : List (String × α)) (name : String) : Decoded α :=
  match lookup? name choices with
  | some x => .ok x
  | none => .error (.unknownVariant name (choices.map Prod.fst))

/-- One of a table of choices, by its name. -/
def decodeName {α : Type} (choices : List (String × α)) (v : Value) : Decoded α :=
  match v with
  | string s => choose choices s
  | object [(key, content)] =>
    match choose choices key, content with
    | .error e, _ => .error e
    | .ok x, null => .ok x
    | .ok _, content => .error (.wrongType content.found "unit")
  | object _ => .error (.wrongValue .map "map with a single key")
  | v => .error (.wrongType v.found "string or map")

end Value

end Retro24.Json
