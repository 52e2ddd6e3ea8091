/-
  File:      Retro24/Proofs/Machine/Invariant.lean
  Subject:   What holds of every machine that can be reached.

  * `Machine.Sound`: the sizes of frame, palette and program, and a batch that is not empty. Cycles
    and changes to memory do not touch it (`Sound.withCpu`); `sound_serve` is the step, request by
    request, and `sound_of_reachable` the induction.
  * `Machine.InRange`: every access to the arrays behind the banks stays inside them.
  * `restore_image`: a state that is accepted holds arrays of the right sizes.
  * `reload_eq`: a program in the slot fits, so that loading it once more cannot fail.
  * `reachable_in_bounds`: all of it together, on every reachable machine.
-/
import Retro24.Proofs.Machine.Requests
import Retro24.Proofs.Memory.Access

namespace Retro24.Machine

/-! ## 1. The invariant -/

/-- The most bytes that a program has: as many as there are from $0100 to the last address. -/
def programLimit : Nat := 65280

/-- **The invariant.** -/
structure Sound (m : Machine) : Prop where
  width : m.frame.width = 64
  height : m.frame.height = 64
  pixels : m.frame.pixels.size = pixelCount
  palette : m.display.palette.colors.size = 4
  batch : 1 ≤ m.batchLength
  program : ∀ image, m.program = some image → image.length ≤ programLimit

variable {m : Machine}

theorem ensureFits_eq (image : Program) :
    image.ensureFits =
      if image.length ≤ programLimit then .ok ()
      else .error (.tooLarge image.length ⟨startAddress.toNat + image.length - 1⟩) := by
  have span : startAddress.toNat + image.length ≤ 65536 ↔ image.length ≤ programLimit := by
    show 256 + image.length ≤ 65536 ↔ image.length ≤ 65280
    omega
  simp only [Program.ensureFits, span]

theorem Sound.withCpu (h : m.Sound) (f : Cpu Bus → Cpu Bus) : (m.withCpu f).Sound :=
  ⟨h.width, h.height, h.pixels, h.palette, h.batch, h.program⟩

theorem Sound.withBus (h : m.Sound) (f : Bus → Bus) : (m.withBus f).Sound := h.withCpu _

theorem Sound.redraw (h : m.Sound) : m.redraw.Sound :=
  ⟨h.width, h.height, (Display.size_drawOver ..).trans h.pixels, h.palette, h.batch, h.program⟩

theorem Sound.redrawIfAsked (h : m.Sound) : m.redrawIfAsked.2.Sound := by
  unfold Machine.redrawIfAsked
  split
  · exact h.redraw.withBus _
  · exact h

/-! ## 2. Cycles -/

theorem Sound.step (h : m.Sound) : m.step.2.Sound := by
  unfold Machine.step
  split
  · exact h
  · cases m.cpu.fetch with
    | ok op => exact h.withCpu _
    | error fault => exact h

theorem stepsFrom_succ (m : Machine) (done : UInt32) (limit : Nat) :
    m.stepsFrom done (limit + 1) =
      match m.step.1 with
      | .ok true => m.step.2.stepsFrom (done + 1) limit
      | .ok false => (.ok done, m.step.2)
      | .error e => (.error e, m.step.2) := by
  rw [Machine.stepsFrom]
  rcases m.step with ⟨(e | (_ | _)), behind⟩ <;> rfl

theorem runBatch_eq (m : Machine) (cycles : UInt32) :
    m.runBatch cycles =
      match (m.stepsFrom 0 cycles.toNat).1 with
      | .error e => (.error e, (m.stepsFrom 0 cycles.toNat).2)
      | .ok done =>
        (.ok ⟨done, (m.stepsFrom 0 cycles.toNat).2.redrawIfAsked.1,
          (m.stepsFrom 0 cycles.toNat).2.redrawIfAsked.2.halted⟩,
        (m.stepsFrom 0 cycles.toNat).2.redrawIfAsked.2) := by
  rw [Machine.runBatch]
  rcases m.stepsFrom 0 cycles.toNat with ⟨(e | done), behind⟩ <;> rfl

theorem nextFrame_eq (m : Machine) :
    m.nextFrame =
      ((m.runBatch m.batchLength).1.map fun _ => (m.runBatch m.batchLength).2.frame,
        (m.runBatch m.batchLength).2) := by
  rw [Machine.nextFrame]
  rcases m.runBatch m.batchLength with ⟨(e | report), behind⟩ <;> rfl

theorem Sound.stepsFrom (h : m.Sound) (done : UInt32) (limit : Nat) :
    (m.stepsFrom done limit).2.Sound := by
  induction limit generalizing m done with
  | zero => exact h
  | succ limit ih =>
    rw [stepsFrom_succ]
    rcases m.step.1 with e | (_ | _)
    · exact h.step
    · exact h.step
    · exact ih h.step (done + 1)

theorem Sound.runBatch (h : m.Sound) (cycles : UInt32) : (m.runBatch cycles).2.Sound := by
  have behind := h.stepsFrom 0 cycles.toNat
  rw [runBatch_eq]
  cases (m.stepsFrom 0 cycles.toNat).1 with
  | error e => exact behind
  | ok done => exact behind.redrawIfAsked

theorem Sound.nextFrame (h : m.Sound) : m.nextFrame.2.Sound := by
  rw [nextFrame_eq]
  exact h.runBatch m.batchLength

/-! ## 3. Resets and programs -/

theorem Sound.softReset (h : m.Sound) : m.softReset.Sound := (h.withCpu _).redraw

theorem Sound.hardReset (h : m.Sound) : m.hardReset.Sound := ((h.withCpu _).withBus _).redraw

/-- An image that fits is installed, and one that does not is refused and changes nothing. -/
theorem installProgram_eq (m : Machine) (image : Program) :
    m.installProgram image =
      if image.length ≤ programLimit then
        (.ok (), { m.softReset.withBus (Memory.store · startAddress image.bytes) with
          program := some image })
      else (.error (.load (.tooLarge image.length ⟨startAddress.toNat + image.length - 1⟩)), m) := by
  have check := ensureFits_eq image
  unfold installProgram
  by_cases fits : image.length ≤ programLimit
  · rw [if_pos fits] at check ⊢
    simp only [check, Program.placeIn_of_ensureFits m.softReset.bus check]
    rfl
  · rw [if_neg fits] at check ⊢
    simp only [check]

/-- Bytes that fit are mounted. -/
theorem mount_eq (m : Machine) {bytes : List UInt8} (fits : bytes.length ≤ programLimit) :
    m.mount "Program" bytes =
      (.ok (), { m.softReset.withBus (Memory.store · startAddress bytes) with
        program := some (.ofBytes bytes) }) := by
  have slot : "Program" = programSlot.id := rfl
  have image : (Program.ofBytes bytes).length ≤ programLimit := fits
  unfold mount
  rw [if_pos slot, installProgram_eq, if_pos image]
  rfl

theorem Sound.installProgram (h : m.Sound) (image : Program) : (m.installProgram image).2.Sound := by
  rw [installProgram_eq]
  split
  · next fits =>
    have reset := h.softReset
    refine ⟨reset.width, reset.height, reset.pixels, reset.palette, reset.batch, fun stored e => ?_⟩
    cases e
    exact fits
  · exact h

theorem Sound.installFile (h : m.Sound) (path : String) (contents : Except FileError ByteArray) :
    (m.installFile path contents).2.Sound := by
  unfold Machine.installFile
  cases Program.ofFile path contents with
  | error e => exact h
  | ok image => exact h.installProgram image

theorem Sound.mount (h : m.Sound) (id : String) (bytes : List UInt8) : (m.mount id bytes).2.Sound := by
  unfold Machine.mount
  split
  · exact h.installProgram (.ofBytes bytes)
  · exact h

theorem Sound.unmount (h : m.Sound) (id : String) : (m.unmount id).2.Sound := by
  unfold Machine.unmount
  split
  · exact ⟨h.width, h.height, h.pixels, h.palette, h.batch, nofun⟩
  · exact h

/-- A program in the slot can always be loaded once more. -/
theorem reload_eq (h : m.Sound) :
    m.reload =
      match m.program with
      | none => (.ok false, m)
      | some image => (.ok true, (m.installProgram image).2) := by
  unfold Machine.reload
  cases stored : m.program with
  | none => rfl
  | some image =>
    simp only [installProgram_eq, if_pos (h.program image stored)]

theorem Sound.reload (h : m.Sound) : m.reload.2.Sound := by
  rw [reload_eq h]
  cases m.program with
  | none => exact h
  | some image => exact h.installProgram image

/-! ## 4. Settings and states -/

theorem Sound.setBatchLength (h : m.Sound) (cycles : UInt32) : (m.setBatchLength cycles).Sound := by
  refine ⟨h.width, h.height, h.pixels, h.palette, ?_, h.program⟩
  show 1 ≤ if cycles ≤ 1 then 1 else cycles
  split
  · exact UInt32.le_refl 1
  · next more => exact UInt32.le_of_lt (UInt32.not_le.mp more)

theorem Sound.recolor (h : m.Sound) (c : ScreenColor) (argb : UInt32) : (m.recolor c argb).Sound :=
  ⟨h.width, h.height, h.pixels, (Palette.size_set ..).trans h.palette, h.batch, h.program⟩

/-- The processor that an accepted state stands for. -/
def restored (v : Json.Value) (regs : Registers) (bus : Bus) : Cpu Bus :=
  ⟨regs, UInt64.ofNat ((v.get "cycles").natural?.getD 0), bus⟩

/-- An accepted state is drawn, and replaces the processor and its memory only. -/
theorem restore_eq (m : Machine) (v : Json.Value) :
    m.restore v =
      match readState v with
      | .error e => .error e
      | .ok (regs, bus) => .ok (m.withCpu fun _ => restored v regs bus).redraw := rfl

theorem serve_restore (m : Machine) (v : Json.Value) :
    m.serve (.restore v) =
      match readState v with
      | .error e => (.state (.error e), m)
      | .ok (regs, bus) => (.state (.ok ()), (m.withCpu fun _ => restored v regs bus).redraw) := by
  rw [serve, restore_eq]
  rcases readState v with e | ⟨regs, bus⟩ <;> rfl

theorem Sound.restore (h : m.Sound) (v : Json.Value) : (m.serve (.restore v)).2.Sound := by
  rw [serve_restore]
  rcases readState v with e | ⟨regs, bus⟩
  · exact h
  · exact (h.withCpu fun _ => restored v regs bus).redraw

theorem image_of_toBus? {image : BusImage} {bus : Bus} (h : image.toBus? = some bus) :
    image = .ofBus bus := by
  unfold BusImage.toBus? at h
  split at h
  · cases h
    rfl
  · cases h

/-- The parts of a state that is read; the banks in it are arrays of their sizes. -/
theorem readState_ok {v : Json.Value} {regs : Registers} {bus : Bus}
    (h : readState v = .ok (regs, bus)) :
    (v.get "version").natural? = some stateVersion ∧ (v.get "system").text? = some systemName ∧
      Registers.ofJson (v.get "registers") = .ok regs ∧
      BusImage.ofJson (v.get "bus") = .ok (.ofBus bus) := by
  unfold readState at h
  split at h
  · cases h
  next version =>
  split at h
  · cases h
  next system =>
  cases registers : Registers.ofJson (v.get "registers") with
  | error e =>
    rw [registers] at h
    cases h
  | ok _ =>
    rw [registers] at h
    cases read : BusImage.ofJson (v.get "bus") with
    | error e =>
      rw [read] at h
      cases h
    | ok image =>
      simp only [read] at h
      cases banks : image.toBus? with
      | none =>
        rw [banks] at h
        cases h
      | some _ =>
        rw [banks] at h
        cases h
        rw [image_of_toBus? banks]
        exact ⟨Classical.not_not.mp version, Classical.not_not.mp system, rfl, rfl⟩

/-! ## 5. Requests -/

/-- **Every request keeps the invariant, whatever it answers.** -/
theorem sound_serve (h : m.Sound) (r : Request) : (m.serve r).2.Sound := by
  cases r with
  | setBatchLength cycles => exact h.setBatchLength cycles
  | recolor c argb => exact h.recolor c argb
  | step => exact h.step
  | runBatch cycles => exact h.runBatch cycles
  | nextFrame => exact h.nextFrame
  | redrawIfAsked => exact h.redrawIfAsked
  | redraw => exact h.redraw
  | softReset => exact h.softReset
  | hardReset => exact h.hardReset
  | installProgram image => exact h.installProgram image
  | installFile path contents => exact h.installFile path contents
  | mount id bytes => exact h.mount id bytes
  | unmount id => exact h.unmount id
  | reload => exact h.reload
  | press k => exact h.withBus (·.write keyboardAddress k.mask)
  | release => exact h.withBus (·.write keyboardAddress 0)
  | bus r => exact h.withBus fun b => (b.serve r).2
  | restore v => exact h.restore v

theorem sound_serveAll (h : m.Sound) (rs : List Request) : (m.serveAll rs).2.Sound := by
  induction rs generalizing m with
  | nil => exact h
  | cons r rs ih => exact ih (sound_serve h r)

theorem sound_powerOn : Sound powerOn := by
  have pixels : (Display.powerOn.picture Bus.blank).pixels.size = pixelCount := by
    rw [Display.picture, Display.size_drawOver, Frame.blank, Array.size_replicate]
    rfl
  exact Sound.hardReset ⟨rfl, rfl, pixels, rfl, by decide, nofun⟩

/-- **The invariant on every reachable machine.** -/
theorem sound_of_reachable (h : m.Reachable) : m.Sound := by
  induction h with
  | powerOn => exact sound_powerOn
  | serve m r _ ih => exact sound_serve ih r

/-! ## 6. Accesses -/

/-- The arrays behind the banks have their sizes, and every access to them finds its place there. -/
structure InRange (m : Machine) : Prop where
  io : (BusImage.ofBus m.bus).io.size = 256
  ram : (BusImage.ofBus m.bus).ram.size = 57088
  video : (BusImage.ofBus m.bus).video.size = 8192
  read : ∀ a, (BusImage.ofBus m.bus).read? a = some (m.bus.read a)
  write : ∀ a v, (BusImage.ofBus m.bus).write? a v = some (.ofBus (m.bus.write a v))
  region : ∀ r, (BusImage.ofBus m.bus).region? r = some (m.bus.region r).toList
  pixel : ∀ n : Fin pixelCount, (BusImage.ofBus m.bus).pixel? n.val = some (m.bus.colorAt n)
  text : (BusImage.ofBus m.bus).text? = some (screenText m.bus)
  picture : (BusImage.ofBus m.bus).paint? m.display m.frame = some (m.display.drawOver m.bus m.frame)
  pattern : ∀ bits column row, (BusImage.ofBus m.bus).drawPattern? bits column row =
    some (.ofBus (m.bus.drawPattern bits column row))

/-- The frame and the palette of a sound machine fit the planes. -/
theorem Sound.inRange (h : m.Sound) : m.InRange where
  io := m.bus.io.size_toArray
  ram := m.bus.ram.size_toArray
  video := m.bus.video.size_toArray
  read := BusImage.read?_ofBus m.bus
  write := BusImage.write?_ofBus m.bus
  region := BusImage.region?_ofBus m.bus
  pixel := BusImage.pixel?_ofBus m.bus
  text := BusImage.text?_ofBus m.bus
  picture := BusImage.paint?_ofBus m.bus m.display m.frame h.palette h.pixels
  pattern := BusImage.drawPattern?_ofBus m.bus

theorem Sound.reload_ok (h : m.Sound) : ∃ loaded, m.reload.1 = .ok loaded := by
  rw [reload_eq h]
  cases m.program with
  | none => exact ⟨false, rfl⟩
  | some image => exact ⟨true, rfl⟩

/-- The arrays of an accepted state are those of the banks behind it. -/
theorem restore_image {v : Json.Value} {m' : Machine} (h : m.restore v = .ok m') :
    BusImage.ofJson (v.get "bus") = .ok (.ofBus m'.bus) := by
  rw [restore_eq] at h
  cases read : readState v with
  | error e =>
    rw [read] at h
    cases h
  | ok state =>
    rw [read] at h
    cases h
    exact (readState_ok read).2.2.2

/-- **Whatever is asked of a machine, in whatever order and with whatever success, sizes and bounds
    hold**: those of the invariant, those of every access to memory, frame and palette, and those
    that loading the program once more relies on. A state is accepted only with arrays of the sizes
    of the banks. -/
theorem reachable_in_bounds (h : m.Reachable) :
    m.Sound ∧ m.InRange ∧ (∃ loaded, m.reload.1 = .ok loaded) ∧
    ∀ (v : Json.Value) (m' : Machine), m.restore v = .ok m' →
      ∃ image, BusImage.ofJson (v.get "bus") = .ok image ∧ image.io.size = 256 ∧
        image.ram.size = 57088 ∧ image.video.size = 8192 ∧ BusImage.ofBus m'.bus = image := by
  have sound := sound_of_reachable h
  refine ⟨sound, sound.inRange, sound.reload_ok, fun v m' accepted => ?_⟩
  exact ⟨.ofBus m'.bus, restore_image accepted, m'.bus.io.size_toArray, m'.bus.ram.size_toArray,
    m'.bus.video.size_toArray, rfl⟩

/-- An empty batch asked for, a program whose first byte is no opcode, a batch that fails on it, and
    a state that is refused. -/
def mishaps : List Request :=
  [.setBatchLength 0, .mount "Program" [0x2E], .runBatch 5, .restore .null]

theorem reachable_in_bounds_mishaps :
    (powerOn.serveAll mishaps).2.Reachable ∧ (powerOn.serveAll mishaps).2.Sound ∧
      (powerOn.serveAll mishaps).2.InRange ∧
      ∃ loaded, (powerOn.serveAll mishaps).2.reload.1 = .ok loaded := by
  have reachable := Reachable.powerOn.serveAll mishaps
  obtain ⟨sound, inRange, loaded, -⟩ := reachable_in_bounds reachable
  exact ⟨reachable, sound, inRange, loaded⟩

end Retro24.Machine
