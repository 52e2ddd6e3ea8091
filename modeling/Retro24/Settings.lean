/-
  File:      Retro24/Settings.lean
  Subject:   The settings of a session and their file.

  * `KeyBindings`: the names of host keys bound to the keys of the machine; `KeyBindings.lookup?`
    looks a name up without regard to the case of ASCII letters.
  * `Settings`: clock rate, batch length, scale of pictures, and bindings; `Settings.standard`.
  * `Settings.parse`, `Settings.text`: the file's text, read and written. What the text lacks is as
    in the standard settings, but the bindings stand there all or not at all.
  * `Settings.ofFile`: the settings in a file, or the standard ones where there are none.
-/
import Retro24.Journal
import Retro24.Json.Record
import Retro24.Json.Writing

namespace Retro24

open Json (FieldReader Read Value)

/-! ## 1. Bindings -/

/-- The host keys bound to the keys of the machine. -/
structure KeyBindings where
  up : String
  down : String
  left : String
  right : String
  action : String
  deriving DecidableEq

namespace KeyBindings

/-- The arrow keys and the space bar. -/
def standard : KeyBindings := ⟨"Up", "Down", "Left", "Right", "Space"⟩

/-- The bindings in the order in which they are looked through. -/
def bindings (k : KeyBindings) : List (String × Key) :=
  [(k.up, .up), (k.down, .down), (k.left, .left), (k.right, .right), (k.action, .action)]

/-- The first key that a host key is bound to. -/
def lookup? (k : KeyBindings) (name : String) : Option Key :=
  (k.bindings.find? fun b => Name.sameAscii b.1 name).map Prod.snd

/-- The fields in the order of a list of them. -/
def fields : List (FieldReader KeyBindings) :=
  let field (name : String) (put : KeyBindings → String → KeyBindings) : FieldReader KeyBindings :=
    ⟨name, fun cs k => (Json.readText "a string" cs).map fun (s, rest) => (put k s, rest)⟩
  [field "up" ({ · with up := · }), field "down" ({ · with down := · }),
   field "left" ({ · with left := · }), field "right" ({ · with right := · }),
   field "action" ({ · with action := · })]

/-- The bindings as an object. -/
def toJson (k : KeyBindings) : Value :=
  .object
    [("up", .string k.up), ("down", .string k.down), ("left", .string k.left),
     ("right", .string k.right), ("action", .string k.action)]

end KeyBindings

/-! ## 2. Settings -/

/-- The settings of a session. -/
structure Settings where
  clockRate : ClockRate
  batchLength : UInt32
  /-- How many times a pixel is repeated in a picture file, in both directions. -/
  scale : UInt8
  keyboard : KeyBindings
  deriving DecidableEq

namespace Settings

/-- The settings unless they are changed. -/
def standard : Settings := ⟨.fast, Machine.standardBatchLength, 4, .standard⟩

/-- The fields in the order of a list of them. -/
def fields (limit : Nat) : List (FieldReader Settings) :=
  [⟨"clock_speed", fun cs s =>
      (Json.readName ClockRate.names cs).map fun (x, rest) => ({ s with clockRate := x }, rest)⟩,
   ⟨"cycles_per_frame", fun cs s =>
      (Json.readNat 0x100000000 "u32" cs).map fun (n, rest) =>
        ({ s with batchLength := UInt32.ofNat n }, rest)⟩,
   ⟨"scale", fun cs s =>
      (Json.readNat 0x100 "u8" cs).map fun (n, rest) => ({ s with scale := UInt8.ofNat n }, rest)⟩,
   ⟨"keyboard", fun cs s =>
      (Json.readStruct limit "struct KeyMapping" true KeyBindings.fields .standard cs).map
        fun (k, rest) => ({ s with keyboard := k }, rest)⟩]

/-- The settings in a text. -/
def parse (text : String) : Except Json.Complaint Settings :=
  let limit := text.length
  Json.readAll (Json.readStruct limit "struct Settings" false (fields limit) standard) text

/-- The settings as an object. -/
def toJson (s : Settings) : Value :=
  .object
    [("clock_speed", .string s.clockRate.name),
     ("cycles_per_frame", .ofNat s.batchLength.toNat), ("scale", .ofNat s.scale.toNat),
     ("keyboard", s.keyboard.toJson)]

/-- The text of the settings. -/
def text (s : Settings) : String := s.toJson.pretty

/-- The settings in a file that was read, with what there is to report: a file that is no settings
    counts as none, and so does one that cannot be read. -/
def ofFile (path : String) (contents : Except FileError String) : Settings × List Entry :=
  match contents with
  | .error _ => (standard, [])
  | .ok text =>
    match parse text with
    | .ok settings => (settings, [])
    | .error complaint => (standard, [.settingsIgnored path complaint])

/-- The key that a name stands for: first a bound host key, then a key's own name. -/
def findKey? (s : Settings) (name : String) : Option Key :=
  s.keyboard.lookup? name <|> Key.ofName? name

end Settings

end Retro24
