/-
  File:      Retro24/Png.lean
  Subject:   Pictures as PNG files.

  * `checksum`, `adler`: the two check sums of the format.
  * `encode`: an RGBA picture of eight bits a channel; the pixels are stored without compression.
  * `decode?`: reads such a file back.
-/

namespace Retro24.Png

/-! ## 1. Check sums -/

/-- One step of the cyclic check sum. -/
def checksumStep (c : UInt32) : UInt32 := if c &&& 1 = 1 then (c >>> 1) ^^^ 0xEDB88320 else c >>> 1

/-- The cyclic check sum of every byte. -/
def checksumTable : Array UInt32 :=
  (Array.range 256).map fun n => (List.range 8).foldl (fun c _ => checksumStep c) n.toUInt32

/-- The cyclic check sum of bytes. -/
def checksum (bytes : ByteArray) : UInt32 :=
  let table := checksumTable
  ~~~bytes.foldl (fun c b => table[(c.toUInt8 ^^^ b).toNat]?.getD 0 ^^^ (c >>> 8)) 0xFFFFFFFF

/-- The sum of bytes and the sum of their running sums. -/
def adler (bytes : ByteArray) : UInt32 :=
  let (a, b) := bytes.foldl
    (fun (a, b) x =>
      let a := (a + x.toUInt32) % 65521
      (a, (b + a) % 65521))
    ((1 : UInt32), (0 : UInt32))
  b <<< 16 ||| a

/-! ## 2. Writing -/

/-- The bytes of a long word, the most significant first. -/
def longBytes (n : UInt32) : List UInt8 :=
  [(n >>> 24).toUInt8, (n >>> 16).toUInt8, (n >>> 8).toUInt8, n.toUInt8]

/-- Bytes put behind others. -/
def append (out : ByteArray) (bytes : List UInt8) : ByteArray := bytes.foldl ByteArray.push out

/-- A chunk: its length, its name, its bytes and their check sum. -/
def chunk (name : String) (bytes : ByteArray) : ByteArray :=
  let body := name.toUTF8 ++ bytes
  append (append .empty (longBytes bytes.size.toUInt32) ++ body) (longBytes (checksum body))

/-- The rows of a picture, each behind the mark that it stands as it is. -/
def scanlines (rowSize : Nat) (rgba : ByteArray) : Nat → Nat → ByteArray → ByteArray
  | _, 0, out => out
  | row, rows + 1, out =>
    scanlines rowSize rgba (row + 1) rows
      (out.push 0 ++ rgba.extract (row * rowSize) ((row + 1) * rowSize))

/-- The largest block that is stored without compression. -/
def blockSize : Nat := 65535

/-- Stored blocks of the bytes from `start` on. -/
def storedBlocks (bytes : ByteArray) : Nat → Nat → ByteArray → ByteArray
  | _, 0, out => out
  | start, blocks + 1, out =>
    let size := min blockSize (bytes.size - start)
    let mark : UInt8 := if blocks = 0 then 1 else 0
    let low := size.toUInt8
    let high := (size / 256).toUInt8
    storedBlocks bytes (start + size) blocks
      (append out [mark, low, high, ~~~low, ~~~high] ++ bytes.extract start (start + size))

/-- Bytes as a compressed stream that compresses nothing. -/
def stored (bytes : ByteArray) : ByteArray :=
  let blocks := max 1 ((bytes.size + blockSize - 1) / blockSize)
  append (storedBlocks bytes 0 blocks (append .empty [0x78, 0x01])) (longBytes (adler bytes))

/-- Why a picture cannot be written. -/
inductive EncodeError where
  | zeroWidth
  | zeroHeight
  | wrongSize (expected actual : Nat)

/-- The text of an encoding error. -/
def EncodeError.message : EncodeError → String
  | zeroWidth => "Zero width not allowed"
  | zeroHeight => "Zero height not allowed"
  | wrongSize expected actual =>
    "wrong data size, expected " ++ toString expected ++ " got " ++ toString actual

/-- The first eight bytes of every file. -/
def signature : List UInt8 := [0x89, 0x50, 0x4E, 0x47, 0x0D, 0x0A, 0x1A, 0x0A]

/-- Whether a picture of this size can be written from that many bytes. -/
def check (width height : UInt32) (bytes : Nat) : Except EncodeError Unit :=
  if width = 0 then .error .zeroWidth
  else if height = 0 then .error .zeroHeight
  else
    let expected := width.toNat * 4 * height.toNat
    if bytes = expected then .ok () else .error (.wrongSize expected bytes)

/-- The file of a picture. -/
def encode (width height : UInt32) (rgba : ByteArray) : Except EncodeError ByteArray :=
  (check width height rgba.size).map fun _ =>
    let header := append .empty (longBytes width ++ longBytes height ++ [8, 6, 0, 0, 0])
    let rows := scanlines (width.toNat * 4) rgba 0 height.toNat .empty
    append .empty signature ++ chunk "IHDR" header ++ chunk "IDAT" (stored rows) ++
      chunk "IEND" .empty

/-! ## 3. Reading -/

/-- A picture of eight bits a channel. -/
structure Image where
  width : Nat
  height : Nat
  rgba : ByteArray

/-- The number in the four bytes from `start` on. -/
def longAt (bytes : ByteArray) (start : Nat) : Nat :=
  (bytes.extract start (start + 4)).foldl (fun n b => 256 * n + b.toNat) 0

/-- The bytes of stored blocks from `start` on. -/
def unstore (bytes : ByteArray) : Nat → Nat → ByteArray → ByteArray
  | _, 0, out => out
  | start, fuel + 1, out =>
    let byte (i : Nat) : Nat := (bytes[start + i]?.getD 0).toNat
    let size := byte 1 + 256 * byte 2
    let out := out ++ bytes.extract (start + 5) (start + 5 + size)
    if byte 0 = 1 then out else unstore bytes (start + 5 + size) fuel out

/-- The rows of a picture without their marks. -/
def unmark (rowSize : Nat) (rows : ByteArray) : Nat → Nat → ByteArray → ByteArray
  | _, 0, out => out
  | row, count + 1, out =>
    unmark rowSize rows (row + 1) count
      (out ++ rows.extract (row * (rowSize + 1) + 1) ((row + 1) * (rowSize + 1)))

/-- The picture in a file whose pixels are stored. -/
def decode? (file : ByteArray) : Option Image :=
  if file.size < 57 ∨ (file.extract 0 8).toList ≠ signature then none
  else
    let width := longAt file 16
    let height := longAt file 20
    let length := longAt file 33
    let rows := unstore file 43 (length + 1) .empty
    some ⟨width, height, unmark (width * 4) rows 0 height .empty⟩

end Retro24.Png
