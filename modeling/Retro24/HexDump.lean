/-
  File:      Retro24/HexDump.lean
  Subject:   Memory as lines of hexadecimal bytes, written and read back.

  * `HexDump.text`: sixteen bytes a line, behind the address of the first of them.
  * `HexDump.parse?`: the addresses and bytes of such lines.
-/
import Retro24.Frame
import Retro24.Hex
import Retro24.Statement

namespace Retro24.HexDump

/-! ## 1. Writing -/

/-- The bytes of a line. -/
def lineBytes : List UInt8 → List Char
  | [] => []
  | [b] => Hex.byteDigits b
  | b :: bs => Hex.byteDigits b ++ ' ' :: lineBytes bs

/-- A line: an address of at least four digits and up to sixteen bytes. -/
def line (address : Nat) (bytes : List UInt8) : List Char :=
  (Hex.padded 4 address).toList ++ ':' :: ' ' :: (lineBytes bytes ++ ['\n'])

/-- The lines of pieces of memory, sixteen addresses apart. -/
def lines (address : Nat) : List (List UInt8) → List Char
  | [] => []
  | piece :: rest => line address piece ++ lines (address + 16) rest

/-- The dump of bytes that start at an address. -/
def text (base : UInt16) (bytes : List UInt8) : String :=
  String.ofList (lines base.toNat (pieces 16 bytes))

/-! ## 2. Reading -/

/-- The bytes of a line. -/
def parseBytes? : List Char → Option (List UInt8)
  | [a, b] => (Statement.byte? [a, b]).map fun x => [x]
  | a :: b :: ' ' :: rest =>
    (Statement.byte? [a, b]).bind fun x => (parseBytes? rest).map fun xs => x :: xs
  | _ => none

/-- The address and the bytes of a line without its end. -/
def parseLine? (cs : List Char) : Option (Nat × List UInt8) :=
  match cs.dropWhile (· != ':') with
  | ':' :: ' ' :: rest =>
    (Hex.number? (cs.takeWhile (· != ':'))).bind fun address =>
      (parseBytes? rest).map fun bytes => (address, bytes)
  | _ => none

/-- The lines of a text, each ended by a new line. -/
def splitLines (current : List Char) : List Char → List (List Char)
  | [] => []
  | c :: cs =>
    if c = '\n' then current.reverse :: splitLines [] cs else splitLines (c :: current) cs

/-- The addresses and the bytes of the lines of a dump. -/
def parse? (dump : String) : Option (List (Nat × List UInt8)) :=
  (splitLines [] dump.toList).mapM parseLine?

end Retro24.HexDump
