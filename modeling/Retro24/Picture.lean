/-
  File:      Retro24/Picture.lean
  Subject:   Frames as picture files.

  * `enlarged?`: the pixels of a frame as bytes of red, green, blue and alpha, each pixel repeated
    in both directions; nothing for a frame without a width, whose rows cannot be told apart.
  * `pictureFile?`: the file of a scaled frame, unless its sides are no words of 32 bits.
  * `writePicture`: the file written; where there is none an empty file is left.
-/
import Retro24.Files
import Retro24.Frame
import Retro24.Png

namespace Retro24

/-! ## 1. Scaling -/

/-- The bytes of a color in the order of a picture file. -/
def rgbaBytes (argb : UInt32) : Array UInt8 :=
  #[(argb >>> 16).toUInt8, (argb >>> 8).toUInt8, argb.toUInt8, (argb >>> 24).toUInt8]

/-- Some bytes put a number of times behind others. -/
def appendTimes (bytes : Array UInt8) : Nat → Array UInt8 → Array UInt8
  | 0, out => out
  | times + 1, out => appendTimes bytes times (out ++ bytes)

/-- The bytes of a row, each pixel repeated. -/
def scaledRow (scale : Nat) (row : List UInt32) : Array UInt8 :=
  row.foldl (fun out p => appendTimes (rgbaBytes p) scale out) #[]

/-- The bytes of rows, each row repeated. -/
def scaledRows (scale : Nat) (rows : List (List UInt32)) : Array UInt8 :=
  rows.foldl (fun out row => appendTimes (scaledRow scale row) scale out) #[]

/-- The bytes of a frame, each pixel repeated in both directions. A scale of zero counts as one. -/
def enlarged? (f : Frame) (scale : UInt32) : Option (Array UInt8) :=
  if f.width = 0 then none
  else some (scaledRows (max scale 1).toNat (pieces f.width.toNat f.pixels.toList))

/-! ## 2. Files -/

/-- The file of a frame, each pixel repeated in both directions. The sides are counted in words of
    32 bits, and there is no answer if one of them overflows. -/
def pictureFile? (f : Frame) (scale : UInt32) : Option (Except Png.EncodeError ByteArray) :=
  (longWord? (f.width.toNat * (max scale 1).toNat)).bind fun width =>
    (longWord? (f.height.toNat * (max scale 1).toNat)).map fun height =>
      if width = 0 then .error .zeroWidth
      else if height = 0 then .error .zeroHeight
      else Png.encode width height ⟨(enlarged? f scale).getD #[]⟩

/-- Why no picture file is written. -/
inductive PictureError where
  | notCreated (path : String) (cause : FileError)
  | notEncoded (path : String) (cause : Png.EncodeError)

namespace PictureError

/-- The text of what failed. -/
def message : PictureError → String
  | notCreated path _ => "failed to create PNG: " ++ path
  | notEncoded path _ => "failed to write PNG: " ++ path

/-- The text of why it failed. -/
def causeMessage : PictureError → String
  | notCreated _ cause => cause.message
  | notEncoded _ cause => cause.message

end PictureError

/-- The picture file of a frame written. There is no answer if the file was made and then a side of
    the picture overflows. -/
def writePicture {m : Type → Type} [Monad m] (files : FileStore m) (f : Frame) (scale : UInt32)
    (path : String) : m (Option (Except PictureError Unit)) := do
  let file? := pictureFile? f scale
  let bytes :=
    match file? with
    | some (.ok bytes) => bytes
    | _ => .empty
  match ← files.write path bytes with
  | .error cause => return some (.error (.notCreated path cause))
  | .ok () => return file?.map fun file => (file.mapError (.notEncoded path)).map fun _ => ()

end Retro24
