/-
  File:      Retro24/Key.lean
  Subject:   The five keys and the keyboard byte.

  * `Key`, `Key.mask`: every key is one bit of the byte at $0020, which holds at most one key.
  * `Key.ofMask?`: the key of a keyboard byte (`ofMask?_mask`); two keys together are none.
  * `Key.ofName?`: the key under a name typed by a person.
-/
import Retro24.Name

namespace Retro24

/-- A key. -/
inductive Key where
  | up
  | down
  | left
  | right
  | action
  deriving DecidableEq

/-- The keyboard byte. -/
def keyboardAddress : UInt16 := 0x0020

namespace Key

/-- The keys in the order of their bits. -/
def all : List Key := [up, down, left, right, action]

/-- The keyboard byte while a key is held. -/
def mask : Key → UInt8
  | up => 0x01
  | down => 0x02
  | left => 0x04
  | right => 0x08
  | action => 0x10

/-- The key that a keyboard byte stands for. -/
def ofMask? (byte : UInt8) : Option Key := all.find? fun k => k.mask == byte

@[simp] theorem ofMask?_mask (k : Key) : ofMask? k.mask = some k := by cases k <;> rfl

/-- The name of a key in data files. -/
def name : Key → String
  | up => "Up"
  | down => "Down"
  | left => "Left"
  | right => "Right"
  | action => "Action"

/-- The names that people may type for a key. -/
def names : List (String × Key) :=
  [("up", up), ("w", up), ("down", down), ("s", down), ("left", left), ("a", left),
   ("right", right), ("d", right), ("action", action), ("space", action), ("fire", action)]

/-- The key under a name, in any case. -/
def ofName? (name : String) : Option Key := Name.lookup? names name

end Key

end Retro24
