/-
  File:      Retro24/Proofs/Machine/Requests.lean
  Subject:   Everything that can be asked of the machine, and the machines that come of it.

  * `BusRequest`, `Bus.serve`: the changes to the banks that are open to whoever holds them.
  * `Request`, `Answer`, `Machine.serve`: the operations of the machine, what they answer, and the
    machine as it is left, also by an operation that fails.
  * `Machine.serveAll`: a list of requests, one after the other.
  * `Machine.Reachable`: the machines that come of requests to one that was just switched on.
-/
import Retro24.SaveState

namespace Retro24

/-! ## 1. Requests to the banks -/

/-- A change to the banks. -/
inductive BusRequest where
  | write (a : UInt16) (v : UInt8)
  | writeWide (a : UInt64) (v : UInt8)
  | load (start : UInt16) (data : List UInt8)
  | wipeVideo
  | wipeRam
  | wipeIo
  | wipe
  | withdrawRedraw
  | drawPattern (pattern : List UInt8) (column row : UInt64)
  | drawTitle

/-- What came of a change, and the banks behind it. -/
def Bus.serve (b : Bus) : BusRequest → Except AddressError Unit × Bus
  | .write a v => (.ok (), b.write a v)
  | .writeWide a v => b.settle (b.writeWide a v)
  | .load start data => b.settle (b.load start data)
  | .wipeVideo => (.ok (), b.wipeVideo)
  | .wipeRam => (.ok (), b.wipeRam)
  | .wipeIo => (.ok (), b.wipeIo)
  | .wipe => (.ok (), b.wipe)
  | .withdrawRedraw => (.ok (), b.withdrawRedraw)
  | .drawPattern pattern column row => (.ok (), b.drawPattern pattern column row)
  | .drawTitle => (.ok (), b.drawTitle)

/-! ## 2. Requests to the machine -/

/-- An operation of the machine. -/
inductive Request where
  | setBatchLength (cycles : UInt32)
  | recolor (c : ScreenColor) (argb : UInt32)
  | step
  | runBatch (cycles : UInt32)
  | nextFrame
  | redrawIfAsked
  | redraw
  | softReset
  | hardReset
  | installProgram (image : Program)
  | installFile (path : String) (contents : Except FileError ByteArray)
  | mount (id : String) (bytes : List UInt8)
  | unmount (id : String)
  | reload
  | press (k : Key)
  | release
  | bus (r : BusRequest)
  | restore (v : Json.Value)

/-- What an operation gives back. -/
inductive Answer where
  | nothing
  | redrawn (asked : Bool)
  | flag (result : Except MachineError Bool)
  | report (result : Except MachineError BatchReport)
  | frame (result : Except MachineError Frame)
  | machine (result : Except MachineError Unit)
  | bus (result : Except AddressError Unit)
  | state (result : Except StateError Unit)

/-- An answer without the frame that it may bring. -/
def Answer.outcome : Answer → Answer
  | .frame result => .machine (result.map fun _ => ())
  | answer => answer

namespace Machine

/-- The answer to a request, and the machine behind it. -/
def serve (m : Machine) : Request → Answer × Machine
  | .setBatchLength cycles => (.nothing, m.setBatchLength cycles)
  | .recolor c argb => (.nothing, m.recolor c argb)
  | .step => (.flag m.step.1, m.step.2)
  | .runBatch cycles => (.report (m.runBatch cycles).1, (m.runBatch cycles).2)
  | .nextFrame => (.frame m.nextFrame.1, m.nextFrame.2)
  | .redrawIfAsked => (.redrawn m.redrawIfAsked.1, m.redrawIfAsked.2)
  | .redraw => (.frame (.ok m.redraw.frame), m.redraw)
  | .softReset => (.nothing, m.softReset)
  | .hardReset => (.nothing, m.hardReset)
  | .installProgram image => (.machine (m.installProgram image).1, (m.installProgram image).2)
  | .installFile path contents =>
    (.machine (m.installFile path contents).1, (m.installFile path contents).2)
  | .mount id bytes => (.machine (m.mount id bytes).1, (m.mount id bytes).2)
  | .unmount id => (.machine (m.unmount id).1, (m.unmount id).2)
  | .reload => (.flag m.reload.1, m.reload.2)
  | .press k => (.nothing, m.press k)
  | .release => (.nothing, m.release)
  | .bus r => (.bus (m.bus.serve r).1, m.withBus fun b => (b.serve r).2)
  | .restore v =>
    match m.restore v with
    | .ok restored => (.state (.ok ()), restored)
    | .error e => (.state (.error e), m)

/-- The answers to a list of requests, and the machine behind the last. -/
def serveAll (m : Machine) : List Request → List Answer × Machine
  | [] => ([], m)
  | r :: rs =>
    let (answer, m) := m.serve r
    let (answers, m) := m.serveAll rs
    (answer :: answers, m)

theorem serveAll_append (m : Machine) (rs qs : List Request) :
    (m.serveAll (rs ++ qs)).2 = ((m.serveAll rs).2.serveAll qs).2 := by
  induction rs generalizing m with
  | nil => rfl
  | cons r rs ih => exact ih (m.serve r).2

/-- The machines that come of requests to one that was just switched on. -/
inductive Reachable : Machine → Prop where
  | powerOn : Reachable powerOn
  | serve (m : Machine) (r : Request) (h : Reachable m) : Reachable (m.serve r).2

theorem Reachable.serveAll {m : Machine} (h : m.Reachable) (rs : List Request) :
    (m.serveAll rs).2.Reachable := by
  induction rs generalizing m with
  | nil => exact h
  | cons r rs ih => exact ih (.serve m r h)

end Machine

end Retro24
