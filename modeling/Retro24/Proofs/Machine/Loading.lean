/-
  File:      Retro24/Proofs/Machine/Loading.lean
  Subject:   A program is loaded completely, or not at all.

  * `Program.placeIn_iff`: the check in front of the reset and the one behind it agree on every
    image; `Program.writeAll_of_ensureFits`: and the bytes can then be written one by one.
  * `Machine.loaded`: the machine behind an image that is installed.
  * `AllOrNothing`: an operation that is done if it may be, and that is refused and changes nothing
    otherwise (`of_ok`, `of_error`). `installProgram_cases`, `mount_cases`, `unmount_cases`,
    `installFile_cases`: the operations of the program slot are of this kind.
  * `reload_loaded`: a program in the slot can be loaded once more, at any time.
  * `loads_all_or_nothing`: all of it together, on every reachable machine.
-/
import Retro24.Proofs.Machine.Invariant
import Retro24.Proofs.Memory.Spans

namespace Retro24

/-- **An image that passes the check is never refused by the copy**, whatever memory it is copied
    to, and one that does not pass would be. -/
theorem Program.placeIn_iff (image : Program) (b : Bus) :
    image.ensureFits = .ok () ↔ ∃ b', image.placeIn b = .ok b' := by
  constructor
  · exact fun fits => ⟨_, placeIn_of_ensureFits b fits⟩
  · intro ⟨b', placed⟩
    by_cases fits : startAddress.toNat + image.length ≤ 65536
    · exact if_pos fits
    · have refused : b.load startAddress image.bytes = .error _ := if_neg fits
      rw [placeIn, refused] at placed
      cases placed

/-- Nor is any of its bytes refused on its way to memory. -/
theorem Program.writeAll_of_ensureFits {image : Program} (b : Bus)
    (fits : image.ensureFits = .ok ()) :
    b.writeAll startAddress.toUInt64 image.bytes =
      .ok (Memory.store b startAddress image.bytes) := by
  refine Bus.writeAll_eq b ?_
  unfold ensureFits at fits
  split at fits
  · assumption
  · cases fits

namespace Machine

variable {m m' : Machine}

/-- The machine behind an image that is installed: the image over the memory of a soft reset. -/
def loaded (m : Machine) (image : Program) : Machine :=
  { m.softReset.withBus (Memory.store · startAddress image.bytes) with program := some image }

/-- An operation is done and answers if it may be done, and otherwise is refused and leaves the
    machine as it was. -/
def AllOrNothing {α : Type} (m : Machine) (may : Prop) (came : Except MachineError α × Machine)
    (answer : α) (done : Machine) : Prop :=
  (may ∧ came = (.ok answer, done)) ∨ (¬ may ∧ ∃ e, came = (.error e, m))

/-- An operation that succeeds was done. -/
theorem AllOrNothing.of_ok {α : Type} {may : Prop} {came : Except MachineError α × Machine}
    {answer given : α} {done : Machine} (h : AllOrNothing m may came answer done)
    (ok : came = (.ok given, m')) : may ∧ m' = done := by
  rcases h with ⟨may, here⟩ | ⟨-, e, refused⟩
  · cases here.symm.trans ok
    exact ⟨may, rfl⟩
  · cases refused.symm.trans ok

/-- An operation that fails has changed nothing. -/
theorem AllOrNothing.of_error {α : Type} {may : Prop} {came : Except MachineError α × Machine}
    {answer : α} {done : Machine} {e : MachineError} (h : AllOrNothing m may came answer done)
    (failed : came.1 = .error e) : came.2 = m := by
  rcases h with ⟨-, here⟩ | ⟨-, e, refused⟩
  · rw [here] at failed
    cases failed
  · rw [refused]

theorem installProgram_cases (m : Machine) (image : Program) :
    AllOrNothing m (image.length ≤ programLimit) (m.installProgram image) () (m.loaded image) := by
  unfold AllOrNothing
  rw [installProgram_eq]
  by_cases fits : image.length ≤ programLimit
  · rw [if_pos fits]
    exact .inl ⟨fits, rfl⟩
  · rw [if_neg fits]
    exact .inr ⟨fits, _, rfl⟩

theorem mount_cases (m : Machine) (id : String) (bytes : List UInt8) :
    AllOrNothing m (id = programSlot.id ∧ bytes.length ≤ programLimit) (m.mount id bytes) ()
      (m.loaded (.ofBytes bytes)) := by
  unfold mount
  by_cases slot : id = programSlot.id
  · rw [if_pos slot]
    rcases m.installProgram_cases (.ofBytes bytes) with ⟨fits, done⟩ | ⟨large, refused⟩
    · exact .inl ⟨⟨slot, fits⟩, done⟩
    · exact .inr ⟨fun may => large may.2, refused⟩
  · rw [if_neg slot]
    exact .inr ⟨fun may => slot may.1, _, rfl⟩

theorem unmount_cases (m : Machine) (id : String) :
    AllOrNothing m (id = programSlot.id) (m.unmount id) () { m with program := none } := by
  unfold unmount
  by_cases slot : id = programSlot.id
  · rw [if_pos slot]
    exact .inl ⟨slot, rfl⟩
  · rw [if_neg slot]
    exact .inr ⟨slot, _, rfl⟩

/-- A file that can be read is an image like any other. -/
theorem installFile_cases (m : Machine) (path : String) (bytes : ByteArray) :
    AllOrNothing m (bytes.toList.length ≤ programLimit) (m.installFile path (.ok bytes)) ()
      (m.loaded ⟨bytes.toList, some path⟩) :=
  m.installProgram_cases ⟨bytes.toList, some path⟩

/-- Nor does a file that is refused or cannot be read change anything. -/
theorem installFile_of_error (m : Machine) {path : String}
    {contents : Except FileError ByteArray} {e : MachineError}
    (failed : (m.installFile path contents).1 = .error e) :
    (m.installFile path contents).2 = m := by
  cases contents with
  | error cause => rfl
  | ok bytes => exact (m.installFile_cases path bytes).of_error failed

/-- What is in the slot fits, so that loading it once more is never refused. -/
theorem reload_loaded (h : m.Sound) {image : Program} (stored : m.program = some image) :
    m.reload = (.ok true, m.loaded image) := by
  rw [reload_eq h, stored]
  rcases m.installProgram_cases image with ⟨-, done⟩ | ⟨large, -⟩
  · simp only [done]
  · exact absurd (h.program image stored) large

/-- **A program is loaded completely or not at all.** On every reachable machine an image is refused
    exactly if it has more than 65280 bytes, and another slot than the one of the program always;
    what is refused, and a file that cannot be read, leaves the whole machine as it was. The copy
    behind the reset never refuses what passed the check in front of it, as a whole or at any byte,
    and a reload is never refused either. -/
theorem loads_all_or_nothing (h : m.Reachable) :
    (∀ image, AllOrNothing m (image.length ≤ 65280) (m.installProgram image) () (m.loaded image)) ∧
    (∀ id bytes, AllOrNothing m (id = "Program" ∧ bytes.length ≤ 65280) (m.mount id bytes) ()
      (m.loaded (.ofBytes bytes))) ∧
    (∀ id, AllOrNothing m (id = "Program") (m.unmount id) () { m with program := none }) ∧
    (∀ path bytes, AllOrNothing m (bytes.toList.length ≤ 65280) (m.installFile path (.ok bytes)) ()
      (m.loaded ⟨bytes.toList, some path⟩)) ∧
    (∀ path cause,
      m.installFile path (.error cause) = (.error (.load (.unreadable path cause)), m)) ∧
    (∀ (image : Program) (b : Bus), image.ensureFits = .ok () ↔ ∃ b', image.placeIn b = .ok b') ∧
    (∀ (image : Program) (b : Bus), image.ensureFits = .ok () →
      b.writeAll startAddress.toUInt64 image.bytes =
        .ok (Memory.store b startAddress image.bytes)) ∧
    (m.program = none → m.reload = (.ok false, m)) ∧
    ∀ image, m.program = some image → m.reload = (.ok true, m.loaded image) := by
  have sound := sound_of_reachable h
  refine ⟨m.installProgram_cases, m.mount_cases, m.unmount_cases, m.installFile_cases,
    fun path cause => rfl, Program.placeIn_iff, fun image => Program.writeAll_of_ensureFits,
    fun empty => ?_, fun image => reload_loaded sound⟩
  rw [reload_eq sound, empty]

/-- A machine whose program was left by a fault: an image that is one byte too long and a slot that
    there is not leave it as it is, and its program can be loaded once more. -/
theorem loads_all_or_nothing_mishaps :
    (powerOn.serveAll mishaps).2.Reachable ∧
      (∃ e, (powerOn.serveAll mishaps).2.mount "Program" (List.replicate 65281 0) =
        (.error e, (powerOn.serveAll mishaps).2)) ∧
      (∃ e, (powerOn.serveAll mishaps).2.mount "Cartridge" [] =
        (.error e, (powerOn.serveAll mishaps).2)) ∧
      (powerOn.serveAll mishaps).2.reload =
        (.ok true, (powerOn.serveAll mishaps).2.loaded (.ofBytes [0x2E])) := by
  have reachable := Reachable.powerOn.serveAll mishaps
  obtain ⟨-, mounts, -, -, -, -, -, -, reloads⟩ := loads_all_or_nothing reachable
  have stored : (powerOn.serveAll mishaps).2.program = some (.ofBytes [0x2E]) := by
    decide +kernel
  refine ⟨reachable, ?_, ?_, reloads _ stored⟩
  · rcases mounts "Program" (List.replicate 65281 0) with ⟨⟨-, fits⟩, -⟩ | ⟨-, refused⟩
    · rw [List.length_replicate] at fits
      exact absurd fits (by decide)
    · exact refused
  · rcases mounts "Cartridge" [] with ⟨⟨slot, -⟩, -⟩ | ⟨-, refused⟩
    · exact absurd slot (by decide)
    · exact refused

end Machine
end Retro24
