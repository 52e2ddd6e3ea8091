/-
  File:      Retro24/Json/Value.lean
  Subject:   JSON values.

  * `Number`: an integer or a double. Whatever is written with a point or an exponent is a double,
    and so is an integer beyond the 64-bit range.
  * `Value`: the values; the entries of an object stand in the order of their keys.
  * `insertEntry`: an entry put in its place; a later entry replaces an earlier one of its key.
  * `Value.get`, `Value.natural?`, `Value.text?`: lookups that read anything unsuitable as absent.
-/

namespace Retro24.Json

/-! ## 1. Values -/

/-- A number. -/
inductive Number where
  | integer (i : Int)
  | real (x : Float)

/-- A value. -/
inductive Value where
  | null
  | bool (b : Bool)
  | number (n : Number)
  | string (s : String)
  | array (items : List Value)
  | object (entries : List (String × Value))

/-- The value of a natural number. -/
def Value.ofNat (n : Nat) : Value := .number (.integer n)

instance : Inhabited Value := ⟨.null⟩

/-! ## 2. Entries -/

/-- The value under a key. -/
def lookup? {α : Type} (key : String) : List (String × α) → Option α
  | [] => none
  | (k, v) :: rest => if k = key then some v else lookup? key rest

/-- Entries in the order of their keys with one more put in its place, instead of any entry that
    the key had. -/
def insertEntry {α : Type} (key : String) (value : α) : List (String × α) → List (String × α)
  | [] => [(key, value)]
  | (k, v) :: rest =>
    if key < k then (key, value) :: (k, v) :: rest
    else if key = k then (key, value) :: rest
    else (k, v) :: insertEntry key value rest

/-! ## 3. Lookups -/

namespace Value

/-- The value under a key, and null when there is none. -/
def get (v : Value) (key : String) : Value :=
  match v with
  | object entries => (lookup? key entries).getD null
  | _ => null

/-- The number, if it is an integer of 64 bits without a sign. -/
def natural? : Value → Option Nat
  | number (.integer i) => if 0 ≤ i ∧ i < 0x10000000000000000 then some i.toNat else none
  | _ => none

/-- The text of a string. -/
def text? : Value → Option String
  | string s => some s
  | _ => none

end Value

end Retro24.Json
