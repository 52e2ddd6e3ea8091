/-
  File:      Retro24/Program.lean
  Subject:   Program images: bytes that are copied to memory from $0100 upwards.

  * `Program`: the bytes, and the file they came from, if any.
  * `Program.ensureFits`: an image may be as long as the way from $0100 to the last address.
  * `Program.placeIn`: the copy itself; it fails only where the check does
    (`placeIn_of_ensureFits`).
-/
import Retro24.Bus
import Retro24.Files
import Retro24.Registers

namespace Retro24

/-- Bytes to be executed from $0100 on. -/
structure Program where
  bytes : List UInt8
  /-- The file that the bytes were read from. -/
  path : Option String
  deriving DecidableEq

/-- Why a program cannot be loaded. -/
inductive ProgramError where
  | unreadable (path : String) (cause : FileError)
  | tooLarge (length : Nat) (cause : AddressError)
  deriving DecidableEq

namespace ProgramError

/-- The text of the cause. -/
def causeMessage : ProgramError → String
  | unreadable _ cause => cause.message
  | tooLarge _ cause => cause.message

/-- The text of a load error. -/
def message (e : ProgramError) : String :=
  match e with
  | unreadable path _ => "failed to read program image " ++ path ++ ": " ++ e.causeMessage
  | tooLarge length _ =>
    "program image of " ++ toString length ++ " bytes does not fit: " ++ e.causeMessage

end ProgramError

namespace Program

/-- An image that came from no file. -/
def ofBytes (bytes : List UInt8) : Program := ⟨bytes, none⟩

/-- The number of bytes. -/
def length (p : Program) : Nat := p.bytes.length

/-- The image in a file that was read, or the reason why it was not. -/
def ofFile (path : String) (contents : Except FileError ByteArray) :
    Except ProgramError Program :=
  match contents with
  | .ok bytes => .ok ⟨bytes.toList, some path⟩
  | .error cause => .error (.unreadable path cause)

/-- The image fits between $0100 and the last address. -/
def ensureFits (p : Program) : Except ProgramError Unit :=
  if startAddress.toNat + p.length ≤ 65536 then .ok ()
  else .error (.tooLarge p.length ⟨startAddress.toNat + p.length - 1⟩)

/-- Memory with the image copied to $0100. -/
def placeIn (p : Program) (b : Bus) : Except ProgramError Bus :=
  (b.load startAddress p.bytes).mapError (.tooLarge p.length)

/-- An image that passes the check is copied. -/
theorem placeIn_of_ensureFits {p : Program} (b : Bus) (h : p.ensureFits = .ok ()) :
    p.placeIn b = .ok (Memory.store b startAddress p.bytes) := by
  have fits : startAddress.toNat + p.bytes.length ≤ 65536 := by
    unfold ensureFits at h
    split at h
    · assumption
    · cases h
  have loaded : b.load startAddress p.bytes = .ok (Memory.store b startAddress p.bytes) :=
    if_pos fits
  rw [placeIn, loaded]
  rfl

end Program

end Retro24
