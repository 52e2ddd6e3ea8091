/-
  File:      Retro24/Proofs/Machine/Resets.lean
  Subject:   Resets and loads leave nothing of what was before.

  * `Cpu.Fresh`: the processor and the memory that a soft reset leaves (`fresh_softReset`), and a
    load with the bytes of its image on top (`fresh_loaded`). `Fresh.unique`: there is only one for
    an IO page and an image; `Fresh.again`: a second reset or load finds the same IO page.
  * `Machine.Loads`: the ways of loading an image with success. `Loads.eq_loaded`: they all leave
    the same machine.
  * `Request.Spares`, `Machine.SparesSlot`: requests that leave the program in its slot
    (`program_serve`, `program_serveAll`). `Loads.reload_restores`: behind all of them a reload
    leaves what the load had left.
  * `Machine.SameView`: machines that cannot be told apart by processor, memory and frame;
    `softReset_again`, `hardReset_again`, `loaded_again`.
  * `resets_erase_history`: all of it together, on every reachable machine.
-/
import Retro24.Proofs.Machine.Futures
import Retro24.Proofs.Machine.Loading
import Retro24.Proofs.Machine.Partition

namespace Retro24

open Memory (read write)

/-! ## 1. What a reset and a load leave -/

/-- A processor as a soft reset or a load leaves it, with the banks `before` it: registers and
    counter as at power-on, the bytes of the image from $0100 on, RAM and video filled behind them,
    and the IO page as it was but for the watchdogs. A reset is the case of no bytes. -/
structure Cpu.Fresh (before : Bus) (bytes : List UInt8) (c : Cpu Bus) : Prop where
  regs : c.regs = .powerOn
  cycles : c.cycles = 0
  io (a : UInt16) : a.toNat < 0x0100 →
    read c.memory a = if a = tickAddress ∨ a = tockAddress then 0 else read before a
  image (i : Nat) (inside : i < bytes.length) :
    read c.memory (UInt16.ofNat (0x0100 + i)) = bytes[i]
  ram (a : UInt16) : 0x0100 + bytes.length ≤ a.toNat → a.toNat < 0xE000 → read c.memory a = 0xFF
  video (a : UInt16) : 0x0100 + bytes.length ≤ a.toNat → 0xE000 ≤ a.toNat → read c.memory a = 0

namespace Cpu

variable {before before' : Bus} {bytes bytes' : List UInt8} {c c' : Cpu Bus}

/-- Above the IO page it depends on the image only. -/
theorem Fresh.read_above (h : Fresh before bytes c) (h' : Fresh before' bytes c') {a : UInt16}
    (above : 0x0100 ≤ a.toNat) : read c.memory a = read c'.memory a := by
  by_cases covered : a.toNat < 0x0100 + bytes.length
  · have inside : a.toNat - 0x0100 < bytes.length := by omega
    have place : UInt16.ofNat (0x0100 + (a.toNat - 0x0100)) = a := by
      rw [Nat.add_sub_cancel' above, UInt16.ofNat_toNat]
    have here := h.image _ inside
    have here' := h'.image _ inside
    rw [place] at here here'
    rw [here, here']
  · by_cases low : a.toNat < 0xE000
    · rw [h.ram a (by omega) low, h'.ram a (by omega) low]
    · rw [h.video a (by omega) (by omega), h'.video a (by omega) (by omega)]

/-- **There is only one such processor** for an IO page and an image. -/
theorem Fresh.unique (h : Fresh before bytes c) (h' : Fresh before bytes c') : c = c' := by
  have agree : Memory.Agree c.memory c'.memory := by
    intro a
    by_cases io : a.toNat < 0x0100
    · rw [h.io a io, h'.io a io]
    · exact h.read_above h' (Nat.not_lt.mp io)
  have memory := Bus.eq_of_agree agree
  have regs := h.regs.trans h'.regs.symm
  have cycles := h.cycles.trans h'.cycles.symm
  rcases c with ⟨_, _, _⟩
  rcases c' with ⟨_, _, _⟩
  cases regs
  cases cycles
  cases memory
  rfl

/-- **A second reset or load finds the IO page that the first one found**, the watchdogs apart,
    which it clears. -/
theorem Fresh.again (h : Fresh before bytes c) (h' : Fresh c.memory bytes' c') :
    Fresh before bytes' c' := by
  refine ⟨h'.regs, h'.cycles, fun a io => ?_, h'.image, h'.ram, h'.video⟩
  rw [h'.io a io]
  by_cases watchdog : a = tickAddress ∨ a = tockAddress
  · rw [if_pos watchdog, if_pos watchdog]
  · rw [if_neg watchdog, if_neg watchdog, h.io a io, if_neg watchdog]

end Cpu

namespace Machine

variable {m m' : Machine} {image : Program}

/-- **What a soft reset leaves.** -/
theorem fresh_softReset (m : Machine) : Cpu.Fresh m.bus [] m.softReset.cpu := by
  have memory (a : UInt16) : read m.softReset.cpu.memory a =
      if a = tockAddress then 0
      else if a = tickAddress then 0 else m.bus.wipeRam.wipeVideo.read a := by
    show read (write (write m.bus.wipeRam.wipeVideo tickAddress 0) tockAddress 0) a = _
    rw [Memory.read_write, Memory.read_write]
    rfl
  have above (a : UInt16) (h : 0x0100 ≤ a.toNat) :
      read m.softReset.cpu.memory a = m.bus.wipeRam.wipeVideo.read a := by
    have tock : a ≠ tockAddress := by
      intro same
      subst same
      exact absurd h (by decide)
    have tick : a ≠ tickAddress := by
      intro same
      subst same
      exact absurd h (by decide)
    rw [memory, if_neg tock, if_neg tick]
  refine ⟨rfl, rfl, fun a io => ?_, nofun, fun a low high => ?_, fun a low high => ?_⟩
  · rw [memory, Bus.read_wiped_io m.bus io]
    by_cases tock : a = tockAddress
    · rw [if_pos tock, if_pos (.inr tock)]
    · by_cases tick : a = tickAddress
      · rw [if_neg tock, if_pos tick, if_pos (.inl tick)]
      · rw [if_neg tock, if_neg tick, if_neg (by simp [tick, tock])]
        rfl
  · rw [above a low, Bus.read_wiped_ram m.bus low high]
  · rw [above a (Nat.le_trans (by decide) high), Bus.read_wiped_video m.bus high]

/-- **What a load leaves.** -/
theorem fresh_loaded (m : Machine) (fits : image.length ≤ programLimit) :
    Cpu.Fresh m.bus image.bytes (m.loaded image).cpu := by
  have reset := m.fresh_softReset
  have start : startAddress.toNat = 0x0100 := rfl
  have span : startAddress.toNat + image.bytes.length ≤ 65536 := by
    have room : image.bytes.length ≤ 65280 := fits
    omega
  have memory : (m.loaded image).cpu.memory =
      Memory.store m.softReset.cpu.memory startAddress image.bytes := rfl
  refine ⟨rfl, rfl, fun a io => ?_, fun i inside => ?_, fun a low high => ?_, fun a low high => ?_⟩
  · rw [memory, Memory.read_store_outside _ span (.inl io)]
    exact reset.io a io
  · rw [memory]
    exact Memory.read_store_inside _ span inside
  · rw [memory, Memory.read_store_outside _ span (.inr low)]
    exact reset.ram a (Nat.le_trans (Nat.le_add_right _ _) low) high
  · rw [memory, Memory.read_store_outside _ span (.inr low)]
    exact reset.video a (Nat.le_trans (Nat.le_add_right _ _) low) high

/-! ## 2. Loads -/

/-- The ways of loading an image with success. -/
inductive Loads (m : Machine) (image : Program) (m' : Machine) : Prop where
  | install (done : m.installProgram image = (.ok (), m'))
  | file {path : String} {contents : Except FileError ByteArray}
      (made : Program.ofFile path contents = .ok image)
      (done : m.installFile path contents = (.ok (), m'))
  | mount {id : String} {bytes : List UInt8} (made : image = .ofBytes bytes)
      (done : m.mount id bytes = (.ok (), m'))
  | reload (stored : m.program = some image) (done : m.reload = (.ok true, m'))

/-- **However an image is loaded, it fits and the machine behind it is the same.** -/
theorem Loads.eq_loaded (h : m.Loads image m') (sound : m.Sound) :
    image.length ≤ programLimit ∧ m' = m.loaded image := by
  cases h with
  | install done => exact (m.installProgram_cases image).of_ok done
  | @file path contents made done =>
    have same : m.installFile path contents = m.installProgram image := by
      rw [installFile, made]
    rw [same] at done
    exact (m.installProgram_cases image).of_ok done
  | @mount id bytes made done =>
    subst made
    obtain ⟨may, behind⟩ := (m.mount_cases id bytes).of_ok done
    exact ⟨may.2, behind⟩
  | reload stored done =>
    cases (reload_loaded sound stored).symm.trans done
    exact ⟨sound.program image stored, rfl⟩

theorem Sound.loaded (sound : m.Sound) (fits : image.length ≤ programLimit) :
    (m.loaded image).Sound := by
  have installed := sound.installProgram image
  rw [installProgram_eq, if_pos fits] at installed
  exact installed

theorem Loads.fresh (h : m.Loads image m') (sound : m.Sound) :
    Cpu.Fresh m.bus image.bytes m'.cpu := by
  obtain ⟨fits, rfl⟩ := h.eq_loaded sound
  exact m.fresh_loaded fits

/-! ## 3. Requests that spare the program -/

end Machine

/-- Whether a request leaves the program in its slot: it does not empty it, and if it is to load
    something else then it fails. -/
def Request.Spares (m : Machine) : Request → Prop
  | .unmount id => id ≠ "Program"
  | .installProgram image => ∃ e, (m.installProgram image).1 = .error e
  | .installFile path contents => ∃ e, (m.installFile path contents).1 = .error e
  | .mount id bytes => ∃ e, (m.mount id bytes).1 = .error e
  | _ => True

namespace Machine

variable {m m' : Machine} {image : Program}

/-- Requests one after another that all leave the program in its slot. -/
def SparesSlot (m : Machine) : List Request → Prop
  | [] => True
  | r :: rs => r.Spares m ∧ (m.serve r).2.SparesSlot rs

theorem program_step (m : Machine) : m.step.2.program = m.program := by
  unfold step
  split
  · rfl
  · cases m.cpu.fetch <;> rfl

theorem program_redrawIfAsked (m : Machine) : m.redrawIfAsked.2.program = m.program := by
  unfold redrawIfAsked
  split <;> rfl

theorem program_runBatch (m : Machine) (cycles : UInt32) :
    (m.runBatch cycles).2.program = m.program := by
  rw [runBatch_eq, stepsFrom_eq_run]
  rcases (m.cpu.run cycles.toNat).1 with fault | k
  · rfl
  · exact program_redrawIfAsked _

/-- **A request that spares the program leaves it in its slot**, whatever else it does. -/
theorem program_serve (sound : m.Sound) {r : Request} (spares : r.Spares m) :
    (m.serve r).2.program = m.program := by
  cases r with
  | step => exact m.program_step
  | runBatch cycles => exact m.program_runBatch cycles
  | nextFrame =>
    show m.nextFrame.2.program = m.program
    rw [nextFrame_eq]
    exact m.program_runBatch m.batchLength
  | redrawIfAsked => exact m.program_redrawIfAsked
  | installProgram image =>
    obtain ⟨e, failed⟩ := spares
    exact congrArg program ((m.installProgram_cases image).of_error failed)
  | installFile path contents =>
    obtain ⟨e, failed⟩ := spares
    exact congrArg program (m.installFile_of_error failed)
  | mount id bytes =>
    obtain ⟨e, failed⟩ := spares
    exact congrArg program ((m.mount_cases id bytes).of_error failed)
  | unmount id =>
    rcases m.unmount_cases id with ⟨slot, -⟩ | ⟨-, e, refused⟩
    · exact absurd slot spares
    · exact congrArg (fun came => came.2.program) refused
  | reload =>
    show m.reload.2.program = m.program
    cases stored : m.program with
    | none =>
      rw [reload_eq sound, stored]
      exact stored
    | some image =>
      rw [reload_loaded sound stored]
      rfl
  | restore v =>
    rw [serve_restore]
    rcases readState v with e | ⟨regs, bus⟩ <;> rfl
  | _ => rfl

theorem program_serveAll (sound : m.Sound) {rs : List Request} (spares : m.SparesSlot rs) :
    (m.serveAll rs).2.program = m.program := by
  induction rs generalizing m with
  | nil => rfl
  | cons r rs ih =>
    obtain ⟨here, later⟩ := spares
    exact (ih (sound_serve sound r) later).trans (program_serve sound here)

/-- **Behind whatever spares the program, a reload leaves the registers, the counter, RAM and video
    that its load had left.** -/
theorem Loads.reload_restores (h : m.Loads image m') (sound : m.Sound) {rs : List Request}
    (spares : m'.SparesSlot rs) :
    ∃ t, (m'.serveAll rs).2.reload = (.ok true, t) ∧ t.registers = m'.registers ∧
      t.cpu.cycles = m'.cpu.cycles ∧
      ∀ a : UInt16, 0x0100 ≤ a.toNat → read t.bus a = read m'.bus a := by
  obtain ⟨fits, behind⟩ := h.eq_loaded sound
  have sound' : m'.Sound := by
    rw [behind]
    exact sound.loaded fits
  have stored : (m'.serveAll rs).2.program = some image := by
    rw [program_serveAll sound' spares, behind]
    rfl
  have first := h.fresh sound
  have second := (m'.serveAll rs).2.fresh_loaded fits
  exact ⟨_, reload_loaded (sound_serveAll sound' rs) stored, second.regs.trans first.regs.symm,
    second.cycles.trans first.cycles.symm, fun a above => second.read_above first above⟩

/-! ## 4. Twice -/

/-- Machines with the same registers, counter, memory and frame. -/
structure SameView (m m' : Machine) : Prop where
  registers : m.registers = m'.registers
  cycles : m.cpu.cycles = m'.cpu.cycles
  memory : m.bus = m'.bus
  frame : m.frame = m'.frame

theorem SameView.of_cpu (cpu : m.cpu = m'.cpu) (frame : m.frame = m'.frame) : m.SameView m' :=
  ⟨congrArg Cpu.regs cpu, congrArg Cpu.cycles cpu, congrArg Cpu.memory cpu, frame⟩

theorem softReset_frame (sound : m.Sound) :
    m.softReset.frame = m.display.picture m.softReset.bus :=
  (sound.withCpu _).redraw_frame

theorem hardReset_cpu (m : Machine) : m.hardReset.cpu = powerOn.cpu := rfl

theorem hardReset_frame (sound : m.Sound) :
    m.hardReset.frame = m.display.picture powerOn.bus :=
  ((sound.withCpu _).withBus _).redraw_frame

theorem hardReset_again (sound : m.Sound) : m.hardReset.hardReset.SameView m.hardReset := by
  refine .of_cpu (m.hardReset.hardReset_cpu.trans m.hardReset_cpu.symm) ?_
  rw [hardReset_frame sound.hardReset, hardReset_frame sound]
  rfl

/-- A soft reset behind a reset or a load is the one in its place. -/
theorem softReset_behind {bytes : List UInt8} {m' : Machine} (sound : m.Sound) (sound' : m'.Sound)
    (fresh : Cpu.Fresh m.bus bytes m'.cpu) (display : m'.display = m.display) :
    m'.softReset.cpu = m.softReset.cpu ∧ m'.softReset.frame = m.softReset.frame := by
  have cpu := (fresh.again m'.fresh_softReset).unique m.fresh_softReset
  refine ⟨cpu, ?_⟩
  have bus : m'.softReset.bus = m.softReset.bus := congrArg Cpu.memory cpu
  rw [softReset_frame sound', softReset_frame sound, display, bus]

theorem softReset_again (sound : m.Sound) : m.softReset.softReset.SameView m.softReset := by
  obtain ⟨cpu, frame⟩ := softReset_behind sound sound.softReset m.fresh_softReset rfl
  exact .of_cpu cpu frame

theorem loaded_again (sound : m.Sound) (fits : image.length ≤ programLimit) :
    ((m.loaded image).loaded image).SameView (m.loaded image) := by
  have fresh := m.fresh_loaded fits
  obtain ⟨-, frame⟩ := softReset_behind sound (sound.loaded fits) fresh rfl
  exact .of_cpu ((fresh.again ((m.loaded image).fresh_loaded fits)).unique fresh) frame

theorem Loads.again {m'' : Machine} (h : m.Loads image m') (h' : m'.Loads image m'')
    (sound : m.Sound) : m''.SameView m' := by
  obtain ⟨fits, rfl⟩ := h.eq_loaded sound
  obtain ⟨-, rfl⟩ := h'.eq_loaded (sound.loaded fits)
  exact loaded_again sound fits

theorem reload_again (sound : m.Sound) : m.reload.2.reload.2.SameView m.reload.2 := by
  cases stored : m.program with
  | none =>
    have nothing : m.reload.2 = m := by
      rw [reload_eq sound, stored]
    rw [nothing, nothing]
    exact .of_cpu rfl rfl
  | some image =>
    have first := reload_loaded sound stored
    have fits := sound.program image stored
    have kept : (m.loaded image).program = some image := rfl
    have second := reload_loaded (sound.loaded fits) kept
    rw [first, second]
    exact loaded_again sound fits

/-! ## 5. History erased -/

/-- **Resets and loads erase history.** On every reachable machine a hard reset leaves processor,
    memory and picture as power-on does; a soft reset leaves nothing but the IO page, its watchdogs
    apart; and so does a load, with the image from $0100 on. Behind whatever does not empty the slot
    or load something else, a reload therefore leaves the registers, the counter, RAM and video that
    the load had left. Each of these twice is the same as once. -/
theorem resets_erase_history (h : m.Reachable) :
    m.hardReset.cpu = powerOn.cpu ∧ m.hardReset.frame = m.display.picture powerOn.bus ∧
    Cpu.Fresh m.bus [] m.softReset.cpu ∧
    (∀ image m', m.Loads image m' →
      Cpu.Fresh m.bus image.bytes m'.cpu ∧
      (∀ rs, m'.SparesSlot rs →
        ∃ t, (m'.serveAll rs).2.reload = (.ok true, t) ∧ t.registers = m'.registers ∧
          t.cpu.cycles = m'.cpu.cycles ∧
          ∀ a : UInt16, 0x0100 ≤ a.toNat → read t.bus a = read m'.bus a) ∧
      ∀ m'', m'.Loads image m'' → m''.SameView m') ∧
    m.hardReset.hardReset.SameView m.hardReset ∧
    m.softReset.softReset.SameView m.softReset ∧
    m.reload.2.reload.2.SameView m.reload.2 := by
  have sound := sound_of_reachable h
  refine ⟨m.hardReset_cpu, hardReset_frame sound, m.fresh_softReset, fun image m' loads => ?_,
    hardReset_again sound, softReset_again sound, reload_again sound⟩
  exact ⟨loads.fresh sound, fun rs spares => loads.reload_restores sound spares,
    fun m'' again => loads.again again sound⟩

/-- A program of one byte that is no opcode, which faults, is wiped from memory and outlives a slot
    that there is not and a state that is refused. -/
theorem resets_erase_history_mishaps :
    ∃ (m' : Machine) (rs : List Request) (t : Machine),
      powerOn.Loads (.ofBytes [0x2E]) m' ∧
      rs = [.runBatch 5, .press .left, .hardReset, .mount "Cartridge" [], .restore .null] ∧
      m'.SparesSlot rs ∧ (m'.serveAll rs).2.reload = (.ok true, t) ∧
      t.registers = m'.registers ∧ read t.bus startAddress = 0x2E ∧
      read m'.bus startAddress = 0x2E := by
  have mounted : powerOn.mount "Program" [0x2E] =
      (.ok (), powerOn.loaded (.ofBytes [0x2E])) := by
    rcases powerOn.mount_cases "Program" [0x2E] with ⟨-, done⟩ | ⟨large, -⟩
    · exact done
    · exact absurd ⟨rfl, by decide⟩ large
  have loads : powerOn.Loads (.ofBytes [0x2E]) (powerOn.loaded (.ofBytes [0x2E])) :=
    .mount rfl mounted
  obtain ⟨-, -, -, behind, -⟩ := resets_erase_history .powerOn
  obtain ⟨fresh, restores, -⟩ := behind _ _ loads
  have spares : (powerOn.loaded (.ofBytes [0x2E])).SparesSlot
      [.runBatch 5, .press .left, .hardReset, .mount "Cartridge" [], .restore .null] :=
    ⟨trivial, trivial, trivial, ⟨_, congrArg Prod.fst (if_neg (by decide))⟩, trivial, trivial⟩
  obtain ⟨t, reloaded, registers, -, same⟩ := restores _ spares
  have byte : read (powerOn.loaded (.ofBytes [0x2E])).bus startAddress = 0x2E :=
    fresh.image 0 (by decide)
  exact ⟨_, _, t, loads, rfl, spares, reloaded, registers,
    (same startAddress (by decide)).trans byte, byte⟩

end Machine
end Retro24
