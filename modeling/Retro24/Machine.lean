/-
  File:      Retro24/Machine.lean
  Subject:   The whole machine: processor, memory, display and the program in its slot.

  * `Machine`: with the frame on the screen, the cycles between two looks at the draw flag, and the
    number of pictures drawn so far.
  * `Machine.step`, `Machine.runBatch`: one cycle, and a batch of cycles that serves the draw flag
    once at its end.
  * `Machine.redrawIfAsked`, `Machine.redraw`: a picture on request, and a picture at once.
  * `Machine.softReset`, `Machine.hardReset`: memory and registers as at power-on, without or with
    the IO page and the boot title.
  * `Machine.installProgram`, `Machine.reload`, `Machine.mount`, `Machine.unmount`: the slot of the
    program. An image that does not fit changes nothing.
  * `Machine.press`, `Machine.release`, `Machine.keyHeld?`: the keyboard byte.

  What fails gives back the machine as it was left beside the error.
-/
import Retro24.Cpu
import Retro24.Display
import Retro24.Glyph
import Retro24.Key
import Retro24.Program

namespace Retro24

/-! ## 1. The machine and its errors -/

/-- The machine. -/
structure Machine where
  cpu : Cpu Bus
  display : Display
  /-- The picture drawn last. -/
  frame : Frame
  /-- The program in the slot. -/
  program : Option Program
  /-- The cycles of a batch. -/
  batchLength : UInt32
  pictures : UInt64

/-- Why an operation of the machine fails. -/
inductive MachineError where
  | cpu (fault : CpuFault)
  | bus (cause : AddressError)
  | load (cause : ProgramError)
  | unknownSlot (name : String)
  deriving DecidableEq

namespace MachineError

/-- The text of a machine error. -/
def message : MachineError → String
  | cpu fault => "CPU fault: " ++ fault.message
  | bus cause => "Bus error: " ++ cause.message
  | load cause => "Program load failed: " ++ cause.message
  | unknownSlot name => "Invalid mount point: " ++ name

/-- The texts of what lies behind a machine error, the nearest first. -/
def causes : MachineError → List String
  | cpu fault => [fault.message]
  | bus cause => [cause.message]
  | load cause => [cause.message, cause.causeMessage]
  | unknownSlot _ => []

end MachineError

/-- What a batch of cycles did. -/
structure BatchReport where
  /-- The cycles done. -/
  cycles : UInt32
  /-- Whether a picture was drawn on request. -/
  redrawn : Bool
  /-- Whether the processor is halted behind the batch. -/
  halted : Bool
  deriving DecidableEq

/-- The report of nothing. -/
def BatchReport.none : BatchReport := ⟨0, false, false⟩

namespace Machine

/-! ## 2. Parts -/

/-- The machine with another processor. -/
@[inline] def withCpu (m : Machine) (f : Cpu Bus → Cpu Bus) : Machine :=
  match m with
  | ⟨cpu, display, frame, program, batchLength, pictures⟩ =>
    ⟨f cpu, display, frame, program, batchLength, pictures⟩

/-- The machine with other memory. -/
@[inline] def withBus (m : Machine) (f : Bus → Bus) : Machine :=
  m.withCpu fun
    | ⟨regs, cycles, memory⟩ => ⟨regs, cycles, f memory⟩

/-- The memory. -/
@[inline] def bus (m : Machine) : Bus := m.cpu.memory

/-- The registers. -/
@[inline] def registers (m : Machine) : Registers := m.cpu.regs

/-- Whether the processor is halted. -/
@[inline] def halted (m : Machine) : Bool := m.cpu.halted

/-- The machine with other cycles to a batch; a batch has at least one. -/
def setBatchLength (m : Machine) (cycles : UInt32) : Machine :=
  { m with batchLength := max cycles 1 }

/-- The machine with one color shown in another way. The picture on the screen stays. -/
def recolor (m : Machine) (c : ScreenColor) (argb : UInt32) : Machine :=
  { m with display := m.display.recolor c argb }

/-! ## 3. Pictures -/

/-- The machine with the picture of its planes on the screen. -/
def redraw (m : Machine) : Machine :=
  match m with
  | ⟨cpu, display, frame, program, batchLength, pictures⟩ =>
    ⟨cpu, display, display.drawOver cpu.memory frame, program, batchLength, pictures + 1⟩

/-- A picture if a program has asked for one, which takes the request back; and whether it has. -/
def redrawIfAsked (m : Machine) : Bool × Machine :=
  if m.bus.wantsRedraw then (true, m.redraw.withBus Bus.withdrawRedraw) else (false, m)

/-! ## 4. Cycles -/

/-- One cycle unless the processor is halted, and whether it was done. -/
@[inline] def step (m : Machine) : Except MachineError Bool × Machine :=
  if m.halted then (.ok false, m)
  else
    match m.cpu.fetch with
    | .ok op => (.ok true, m.withCpu (·.perform op))
    | .error fault => (.error (.cpu fault), m)

/-- Up to `limit` steps on top of `done`, ending early where none is done or one fails. -/
def stepsFrom (done : UInt32) (m : Machine) : Nat → Except MachineError UInt32 × Machine
  | 0 => (.ok done, m)
  | limit + 1 =>
    match m.step with
    | (.ok true, m) => stepsFrom (done + 1) m limit
    | (.ok false, m) => (.ok done, m)
    | (.error e, m) => (.error e, m)

/-- Up to `cycles` cycles, ending early at a halt, and then a picture if one is asked for. A fault
    comes before the picture. -/
def runBatch (m : Machine) (cycles : UInt32) : Except MachineError BatchReport × Machine :=
  match stepsFrom 0 m cycles.toNat with
  | (.error e, m) => (.error e, m)
  | (.ok done, m) =>
    match m.redrawIfAsked with
    | (redrawn, m) => (.ok ⟨done, redrawn, m.halted⟩, m)

/-- One batch, and the frame that is on the screen behind it. -/
def nextFrame (m : Machine) : Except MachineError Frame × Machine :=
  match m.runBatch m.batchLength with
  | (.error e, m) => (.error e, m)
  | (.ok _, m) => (.ok m.frame, m)

/-! ## 5. Resets -/

/-- RAM, video and registers as at power-on. The IO page stays, the watchdogs apart. -/
def softReset (m : Machine) : Machine :=
  (m.withCpu fun
    | ⟨regs, cycles, memory⟩ => Cpu.reset ⟨regs, cycles, memory.wipeRam.wipeVideo⟩).redraw

/-- All memory and the registers as at power-on, and the boot title on the screen. -/
def hardReset (m : Machine) : Machine :=
  ((m.withCpu fun
    | ⟨regs, cycles, memory⟩ => Cpu.reset ⟨regs, cycles, memory.wipe⟩).withBus
      Bus.drawTitle).redraw

/-- The cycles of a batch unless they are set. -/
def standardBatchLength : UInt32 := 100

/-- A machine as power comes on. -/
def powerOn : Machine :=
  let cpu := Cpu.powerOn Bus.blank
  hardReset
    { cpu
      display := .powerOn
      frame := Display.powerOn.picture cpu.memory
      program := none
      batchLength := standardBatchLength
      pictures := 0 }

instance : Inhabited Machine := ⟨powerOn⟩

/-! ## 6. The program slot -/

/-- A soft reset, then the image at $0100. An image that does not fit is refused before. -/
def installProgram (m : Machine) (image : Program) : Except MachineError Unit × Machine :=
  match image.ensureFits with
  | .error e => (.error (.load e), m)
  | .ok () =>
    let m := m.softReset
    match image.placeIn m.bus with
    | .error e => (.error (.load e), m)
    | .ok bus => (.ok (), { m.withBus fun _ => bus with program := some image })

/-- The image of a file that was read; a file that could not be read changes nothing. -/
def installFile (m : Machine) (path : String) (contents : Except FileError ByteArray) :
    Except MachineError Unit × Machine :=
  match Program.ofFile path contents with
  | .error e => (.error (.load e), m)
  | .ok image => m.installProgram image

/-- The program in the slot loaded once more, and whether there is one. -/
def reload (m : Machine) : Except MachineError Bool × Machine :=
  match m.program with
  | none => (.ok false, m)
  | some image =>
    match m.installProgram image with
    | (.error e, m) => (.error e, m)
    | (.ok (), m) => (.ok true, m)

/-- A slot for a program. -/
structure Slot where
  id : String
  name : String
  extensions : List String
  required : Bool
  deriving DecidableEq

/-- The slot of the machine. -/
def programSlot : Slot := ⟨"Program", "Program Image", ["bin"], true⟩

/-- The slots of the machine. -/
def slots : List Slot := [programSlot]

/-- Bytes put into a slot and loaded. -/
def mount (m : Machine) (id : String) (bytes : List UInt8) : Except MachineError Unit × Machine :=
  if id = programSlot.id then m.installProgram (.ofBytes bytes)
  else (.error (.unknownSlot id), m)

/-- A slot emptied. Memory stays as it is. -/
def unmount (m : Machine) (id : String) : Except MachineError Unit × Machine :=
  if id = programSlot.id then (.ok (), { m with program := none })
  else (.error (.unknownSlot id), m)

/-- Whether a slot holds a program. -/
def slotFilled (m : Machine) (id : String) : Bool := id == programSlot.id && m.program.isSome

/-! ## 7. The keyboard -/

/-- A key held, instead of any other. -/
def press (m : Machine) (k : Key) : Machine := m.withBus (·.write keyboardAddress k.mask)

/-- No key held. -/
def release (m : Machine) : Machine := m.withBus (·.write keyboardAddress 0)

/-- The key that is held. -/
def keyHeld? (m : Machine) : Option Key := Key.ofMask? (m.bus.read keyboardAddress)

end Machine

end Retro24
