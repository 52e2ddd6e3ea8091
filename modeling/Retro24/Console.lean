/-
  File:      Retro24/Console.lean
  Subject:   The machine with a journal of what it does.

  Each operation is the one of the machine under the same name; the journal gets an entry for every
  cycle, fault, picture on request, reset, loaded program and file that could not be read.
-/
import Retro24.Trace

namespace Retro24

/-- A machine and the journal of it. -/
structure Console where
  machine : Machine
  journal : Journal

namespace Console

/-- The console with another machine, of which there is nothing to report. -/
@[inline] def withMachine (c : Console) (f : Machine → Machine) : Console :=
  match c with
  | ⟨machine, journal⟩ => ⟨f machine, journal⟩

/-- The journal with an entry for the fault in an error. -/
def noteFault (j : Journal) : MachineError → Journal
  | .cpu fault => j.note (.fault fault)
  | _ => j

/-- A machine as power comes on. -/
def powerOn (threshold : Option Level) : Console :=
  ⟨.powerOn, (Journal.blank threshold).note .hardReset⟩

instance : Inhabited Console := ⟨powerOn none⟩

/-- One cycle unless the processor is halted. -/
def step (c : Console) : Except MachineError Bool × Console :=
  match c with
  | ⟨machine, journal⟩ =>
    let journal := journal.watch machine.cpu 1
    match machine.step with
    | (.ok ran, machine) => (.ok ran, ⟨machine, journal⟩)
    | (.error e, machine) => (.error e, ⟨machine, noteFault journal e⟩)

/-- A batch of cycles and then a picture if one is asked for. -/
def runBatch (c : Console) (cycles : UInt32) : Except MachineError BatchReport × Console :=
  match c with
  | ⟨machine, journal⟩ =>
    let journal := journal.watch machine.cpu cycles.toNat
    match machine.runBatch cycles with
    | (.error e, machine) => (.error e, ⟨machine, noteFault journal e⟩)
    | (.ok report, machine) =>
      let journal :=
        if report.redrawn then journal.note (.redrawn machine.pictures) else journal
      (.ok report, ⟨machine, journal⟩)

/-- One batch, and the frame that is on the screen behind it. -/
def nextFrame (c : Console) : Except MachineError Frame × Console :=
  match c.runBatch c.machine.batchLength with
  | (.error e, c) => (.error e, c)
  | (.ok _, c) => (.ok c.machine.frame, c)

/-- A picture if a program has asked for one. -/
def redrawIfAsked (c : Console) : Bool × Console :=
  match c with
  | ⟨machine, journal⟩ =>
    match machine.redrawIfAsked with
    | (true, machine) => (true, ⟨machine, journal.note (.redrawn machine.pictures)⟩)
    | (false, machine) => (false, ⟨machine, journal⟩)

/-- RAM, video and registers as at power-on. -/
def softReset (c : Console) : Console := ⟨c.machine.softReset, c.journal.note .softReset⟩

/-- Everything as at power-on, with the boot title on the screen. -/
def hardReset (c : Console) : Console := ⟨c.machine.hardReset, c.journal.note .hardReset⟩

/-- A soft reset and an image at $0100. -/
def installProgram (c : Console) (image : Program) : Except MachineError Unit × Console :=
  match c.machine.installProgram image with
  | (.ok (), machine) => (.ok (), ⟨machine, (c.journal.note .softReset).note (.loaded image)⟩)
  | (.error e, machine) => (.error e, ⟨machine, c.journal⟩)

/-- The image of a file that was read. -/
def installFile (c : Console) (path : String) (contents : Except FileError ByteArray) :
    Except MachineError Unit × Console :=
  match Program.ofFile path contents with
  | .error e => (.error (.load e), { c with journal := c.journal.note (.unreadable e) })
  | .ok image => c.installProgram image

/-- The program in the slot loaded once more. -/
def reload (c : Console) : Except MachineError Bool × Console :=
  match c.machine.program with
  | none => (.ok false, c)
  | some image =>
    match c.installProgram image with
    | (.error e, c) => (.error e, c)
    | (.ok (), c) => (.ok true, c)

/-- Bytes put into a slot and loaded. -/
def mount (c : Console) (id : String) (bytes : List UInt8) : Except MachineError Unit × Console :=
  if id = Machine.programSlot.id then c.installProgram (.ofBytes bytes)
  else (.error (.unknownSlot id), c)

end Console

end Retro24
