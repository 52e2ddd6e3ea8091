/-
  File:      Retro24/Proofs/Machine/Futures.lean
  Subject:   A machine restored from a saved state goes on like the one that saved it.

  * `Alike`: the same processor, memory, palette and batch length. Frames, programs and the numbers
    of pictures may differ.
  * `Together`: two machines after a step of both: alike, and the frames left alone or the same.
  * `serve_together`: the step, request by request; only loading the program once more looks at
    what may differ. `serveAll_together`: the induction over a list of requests.
  * `restored_follows_saved`: the statement about a state that goes through its text.
-/
import Retro24.Proofs.Machine.Invariant
import Retro24.Proofs.Machine.SaveStates

namespace Retro24.Machine

/-! ## 1. Machines that differ in what they show -/

/-- The same processor, memory, palette and batch length. -/
structure Alike (s t : Machine) : Prop where
  cpu : s.cpu = t.cpu
  display : s.display = t.display
  batch : s.batchLength = t.batchLength

/-- **A step of two machines**: alike behind it, and either no picture was drawn or the frames are
    the same. -/
structure Together (s t s' t' : Machine) : Prop where
  alike : Alike s' t'
  frames : (s'.pictures = s.pictures ∧ s'.frame = s.frame ∧ t'.frame = t.frame) ∨
    s'.frame = t'.frame

variable {s t s' t' s'' t'' : Machine}

theorem Alike.bus (h : Alike s t) : s.bus = t.bus := congrArg Cpu.memory h.cpu

theorem Alike.halted (h : Alike s t) : s.halted = t.halted := congrArg Cpu.halted h.cpu

theorem Together.refl (h : Alike s t) : Together s t s t := ⟨h, .inl ⟨rfl, rfl, rfl⟩⟩

theorem Together.trans (h : Together s t s' t') (h' : Together s' t' s'' t'') :
    Together s t s'' t'' := by
  refine ⟨h'.alike, ?_⟩
  rcases h'.frames with ⟨pictures, left, right⟩ | same
  · rw [pictures, left, right]
    exact h.frames
  · exact .inr same

theorem Alike.withCpu (h : Alike s t) (f : Cpu Bus → Cpu Bus) :
    Together s t (s.withCpu f) (t.withCpu f) :=
  ⟨⟨congrArg f h.cpu, h.display, h.batch⟩, .inl ⟨rfl, rfl, rfl⟩⟩

theorem Alike.withBus (h : Alike s t) (f : Bus → Bus) :
    Together s t (s.withBus f) (t.withBus f) := h.withCpu _

/-- Drawing over a frame of the screen's size leaves nothing of it. -/
theorem drawOver_eq_picture (d : Display) (b : Bus) {f : Frame} (width : f.width = 64)
    (height : f.height = 64) (pixels : f.pixels.size = pixelCount) :
    d.drawOver b f = d.picture b := by
  obtain ⟨w, h, ps⟩ := f
  cases width
  cases height
  refine congrArg (Frame.mk 64 64) (Array.ext ?_ fun n inside inside' => ?_)
  · rw [Array.size_mapIdx, Array.size_mapIdx, Frame.blank, Array.size_replicate]
    exact pixels
  · have onScreen : n < pixelCount := by
      rw [Array.size_mapIdx, pixels] at inside
      exact inside
    rw [Array.getElem_mapIdx, Array.getElem_mapIdx, dif_pos onScreen, dif_pos onScreen]

theorem Sound.redraw_frame {m : Machine} (h : m.Sound) :
    m.redraw.frame = m.display.picture m.bus :=
  drawOver_eq_picture m.display m.bus h.width h.height h.pixels

theorem Alike.redraw (h : Alike s t) (hs : s.Sound) (ht : t.Sound) :
    Together s t s.redraw t.redraw := by
  refine ⟨⟨h.cpu, h.display, h.batch⟩, .inr ?_⟩
  rw [hs.redraw_frame, ht.redraw_frame, h.display, h.bus]

/-! ## 2. Cycles and resets of both -/

theorem Alike.step (h : Alike s t) :
    s.step.1 = t.step.1 ∧ Together s t s.step.2 t.step.2 := by
  unfold Machine.step
  rw [h.halted, h.cpu]
  cases t.halted with
  | true => exact ⟨rfl, .refl h⟩
  | false =>
    cases t.cpu.fetch with
    | error fault => exact ⟨rfl, .refl h⟩
    | ok op => exact ⟨rfl, h.withCpu _⟩

theorem Alike.stepsFrom (h : Alike s t) (done : UInt32) (limit : Nat) :
    (s.stepsFrom done limit).1 = (t.stepsFrom done limit).1 ∧
      Together s t (s.stepsFrom done limit).2 (t.stepsFrom done limit).2 := by
  induction limit generalizing s t done with
  | zero => exact ⟨rfl, .refl h⟩
  | succ limit ih =>
    obtain ⟨result, behind⟩ := h.step
    rw [stepsFrom_succ, stepsFrom_succ, result]
    rcases t.step.1 with e | (_ | _)
    · exact ⟨rfl, behind⟩
    · exact ⟨rfl, behind⟩
    · obtain ⟨count, last⟩ := ih behind.alike (done + 1)
      exact ⟨count, behind.trans last⟩

theorem Alike.redrawIfAsked (h : Alike s t) (hs : s.Sound) (ht : t.Sound) :
    s.redrawIfAsked.1 = t.redrawIfAsked.1 ∧
      Together s t s.redrawIfAsked.2 t.redrawIfAsked.2 := by
  unfold Machine.redrawIfAsked
  rw [h.bus]
  cases t.bus.wantsRedraw with
  | false => exact ⟨rfl, .refl h⟩
  | true =>
    have drawn := h.redraw hs ht
    exact ⟨rfl, drawn.trans (drawn.alike.withBus _)⟩

theorem Alike.runBatch (h : Alike s t) (hs : s.Sound) (ht : t.Sound) (cycles : UInt32) :
    (s.runBatch cycles).1 = (t.runBatch cycles).1 ∧
      Together s t (s.runBatch cycles).2 (t.runBatch cycles).2 := by
  obtain ⟨count, behind⟩ := h.stepsFrom 0 cycles.toNat
  obtain ⟨redrawn, shown⟩ := behind.alike.redrawIfAsked (hs.stepsFrom 0 cycles.toNat)
    (ht.stepsFrom 0 cycles.toNat)
  rw [runBatch_eq, runBatch_eq, count]
  cases (t.stepsFrom 0 cycles.toNat).1 with
  | error e => exact ⟨rfl, behind⟩
  | ok done =>
    refine ⟨?_, behind.trans shown⟩
    rw [redrawn, shown.alike.halted]

theorem Alike.softReset (h : Alike s t) (hs : s.Sound) (ht : t.Sound) :
    Together s t s.softReset t.softReset :=
  (h.withCpu _).trans ((h.withCpu _).alike.redraw (hs.withCpu _) (ht.withCpu _))

theorem Alike.hardReset (h : Alike s t) (hs : s.Sound) (ht : t.Sound) :
    Together s t s.hardReset t.hardReset := by
  have wiped := h.withCpu fun c => Cpu.reset ⟨c.regs, c.cycles, c.memory.wipe⟩
  have titled := wiped.trans (wiped.alike.withBus Bus.drawTitle)
  exact titled.trans (titled.alike.redraw ((hs.withCpu _).withBus _) ((ht.withCpu _).withBus _))

theorem Alike.installProgram (h : Alike s t) (hs : s.Sound) (ht : t.Sound) (image : Program) :
    (s.installProgram image).1 = (t.installProgram image).1 ∧
      Together s t (s.installProgram image).2 (t.installProgram image).2 := by
  rw [installProgram_eq, installProgram_eq]
  by_cases fits : image.length ≤ programLimit
  · rw [if_pos fits, if_pos fits]
    have reset := h.softReset hs ht
    have placed := reset.trans (reset.alike.withBus (Memory.store · startAddress image.bytes))
    exact ⟨rfl, ⟨placed.alike.cpu, placed.alike.display, placed.alike.batch⟩, placed.frames⟩
  · rw [if_neg fits, if_neg fits]
    exact ⟨rfl, .refl h⟩

/-! ## 3. One request to both -/

/-- **One request to two machines**: the same outcome, and the same answer once the frames are. -/
structure InStep (s t : Machine) (p q : Answer × Machine) : Prop where
  outcome : p.1.outcome = q.1.outcome
  together : Together s t p.2 q.2
  answer : p.2.frame = q.2.frame → p.1 = q.1

theorem Together.inStep (h : Together s t s' t') {a b : Answer} (same : a = b) :
    InStep s t (a, s') (b, t') :=
  ⟨congrArg Answer.outcome same, h, fun _ => same⟩

theorem Alike.mount (h : Alike s t) (hs : s.Sound) (ht : t.Sound) (id : String)
    (bytes : List UInt8) :
    (s.mount id bytes).1 = (t.mount id bytes).1 ∧
      Together s t (s.mount id bytes).2 (t.mount id bytes).2 := by
  unfold Machine.mount
  split
  · exact h.installProgram hs ht (.ofBytes bytes)
  · exact ⟨rfl, .refl h⟩

theorem Alike.installFile (h : Alike s t) (hs : s.Sound) (ht : t.Sound) (path : String)
    (contents : Except FileError ByteArray) :
    (s.installFile path contents).1 = (t.installFile path contents).1 ∧
      Together s t (s.installFile path contents).2 (t.installFile path contents).2 := by
  unfold Machine.installFile
  cases Program.ofFile path contents with
  | error e => exact ⟨rfl, .refl h⟩
  | ok image => exact h.installProgram hs ht image

theorem Alike.unmount (h : Alike s t) (id : String) :
    (s.unmount id).1 = (t.unmount id).1 ∧ Together s t (s.unmount id).2 (t.unmount id).2 := by
  unfold Machine.unmount
  split
  · exact ⟨rfl, ⟨h.cpu, h.display, h.batch⟩, .inl ⟨rfl, rfl, rfl⟩⟩
  · exact ⟨rfl, .refl h⟩

theorem Alike.nextFrame (h : Alike s t) (hs : s.Sound) (ht : t.Sound) :
    InStep s t (.frame s.nextFrame.1, s.nextFrame.2) (.frame t.nextFrame.1, t.nextFrame.2) := by
  obtain ⟨report, behind⟩ := h.runBatch hs ht t.batchLength
  rw [nextFrame_eq, nextFrame_eq, h.batch, report]
  refine ⟨?_, behind, fun same => ?_⟩
  · cases (t.runBatch t.batchLength).1 <;> rfl
  -- the frame given back is the one on the screen
  · simp only at same
    rw [same]

theorem Alike.restore (h : Alike s t) (hs : s.Sound) (ht : t.Sound) (v : Json.Value) :
    InStep s t (s.serve (.restore v)) (t.serve (.restore v)) := by
  rw [serve_restore, serve_restore]
  rcases readState v with e | ⟨regs, bus⟩
  · exact (Together.refl h).inStep rfl
  · have loaded := h.withCpu fun _ => restored v regs bus
    exact (loaded.trans (loaded.alike.redraw (hs.withCpu _) (ht.withCpu _))).inStep rfl

/-- **The step.** Two machines that are alike give the same outcome to every request but the one that
    loads the program in the slot once more, and are alike behind it. -/
theorem serve_together (h : Alike s t) (hs : s.Sound) (ht : t.Sound) {r : Request}
    (fresh : r ≠ .reload) : InStep s t (s.serve r) (t.serve r) := by
  cases r with
  | setBatchLength cycles =>
    have set : Together s t (s.setBatchLength cycles) (t.setBatchLength cycles) :=
      ⟨⟨h.cpu, h.display, rfl⟩, .inl ⟨rfl, rfl, rfl⟩⟩
    exact set.inStep rfl
  | recolor c argb =>
    have colors : s.display.recolor c argb = t.display.recolor c argb := by rw [h.display]
    have set : Together s t (s.recolor c argb) (t.recolor c argb) :=
      ⟨⟨h.cpu, colors, h.batch⟩, .inl ⟨rfl, rfl, rfl⟩⟩
    exact set.inStep rfl
  | step => exact h.step.2.inStep (congrArg Answer.flag h.step.1)
  | runBatch cycles =>
    obtain ⟨report, behind⟩ := h.runBatch hs ht cycles
    exact behind.inStep (congrArg Answer.report report)
  | nextFrame => exact h.nextFrame hs ht
  | redrawIfAsked =>
    obtain ⟨asked, behind⟩ := h.redrawIfAsked hs ht
    exact behind.inStep (congrArg Answer.redrawn asked)
  | redraw => exact ⟨rfl, h.redraw hs ht, fun same => congrArg (Answer.frame <| .ok ·) same⟩
  | softReset => exact (h.softReset hs ht).inStep rfl
  | hardReset => exact (h.hardReset hs ht).inStep rfl
  | installProgram image =>
    obtain ⟨result, behind⟩ := h.installProgram hs ht image
    exact behind.inStep (congrArg Answer.machine result)
  | installFile path contents =>
    obtain ⟨result, behind⟩ := h.installFile hs ht path contents
    exact behind.inStep (congrArg Answer.machine result)
  | mount id bytes =>
    obtain ⟨result, behind⟩ := h.mount hs ht id bytes
    exact behind.inStep (congrArg Answer.machine result)
  | unmount id => exact (h.unmount id).2.inStep (congrArg Answer.machine (h.unmount id).1)
  | reload => exact absurd rfl fresh
  | press k => exact (h.withBus (·.write keyboardAddress k.mask)).inStep rfl
  | release => exact (h.withBus (·.write keyboardAddress 0)).inStep rfl
  | bus r =>
    have result : (s.bus.serve r).1 = (t.bus.serve r).1 := by rw [h.bus]
    exact (h.withBus fun b => (b.serve r).2).inStep (congrArg Answer.bus result)
  | restore v => exact h.restore hs ht v

/-! ## 4. Any number of requests to both -/

/-- A picture is drawn in the course of the requests: the number of pictures moves. -/
def Draws (m : Machine) (rs : List Request) : Prop :=
  ∃ part, part <+: rs ∧ (m.serveAll part).2.pictures ≠ m.pictures

/-- **The run.** Two machines that are alike stay alike, and their frames are the same from the first
    picture on. -/
theorem serveAll_together (h : Alike s t) (hs : s.Sound) (ht : t.Sound) {rs : List Request}
    (fresh : .reload ∉ rs) :
    Alike (s.serveAll rs).2 (t.serveAll rs).2 ∧
      (s.Draws rs ∨ s.frame = t.frame → (s.serveAll rs).2.frame = (t.serveAll rs).2.frame) := by
  induction rs generalizing s t with
  | nil =>
    refine ⟨h, fun shown => ?_⟩
    rcases shown with ⟨part, inside, moved⟩ | same
    · rw [List.prefix_nil.mp inside] at moved
      exact absurd rfl moved
    · exact same
  | cons r rs ih =>
    have first := serve_together h hs ht (List.ne_of_not_mem_cons fresh).symm
    obtain ⟨alike, frames⟩ := ih first.together.alike (sound_serve hs r) (sound_serve ht r)
      (List.not_mem_of_not_mem_cons fresh)
    refine ⟨alike, fun shown => frames ?_⟩
    -- either the first request draws, or the picture is drawn behind it
    rcases first.together.frames with ⟨pictures, left, right⟩ | same
    · rcases shown with ⟨part, inside, moved⟩ | same
      · cases part with
        | nil => exact absurd rfl moved
        | cons q part =>
          obtain ⟨rfl, behind⟩ := List.cons_prefix_cons.mp inside
          refine .inl ⟨part, behind, ?_⟩
          rw [pictures]
          exact moved
      · rw [left, right]
        exact .inr same
    · exact .inr same

/-- **A saved state is the whole machine as far as its future goes.** Its text, read and restored by
    any machine with the same palette and batch length, brings the registers, the memory and the
    counter, shows the memory, and leaves the program in the slot. From then on both machines answer
    every request with the same outcome (the one that loads the slot's program apart), their
    processors and memories stay equal, and from the first picture on so do the frames, those on the
    screen and those given back. -/
theorem restored_follows_saved (hs : s.Reachable) (ht : t.Reachable)
    (palette : s.display.palette = t.display.palette) (batch : s.batchLength = t.batchLength) :
    ∃ state t', Json.Value.parse s.toJson.pretty = .ok state ∧ t.restore state = .ok t' ∧
      t'.registers = s.registers ∧ Memory.Agree t'.bus s.bus ∧ t'.cpu.cycles = s.cpu.cycles ∧
      t'.frame = t.display.picture s.bus ∧ t'.program = t.program ∧
      ∀ rs r, .reload ∉ rs → r ≠ .reload →
        ((s.serveAll rs).2.serve r).1.outcome = ((t'.serveAll rs).2.serve r).1.outcome ∧
        ((s.serveAll rs).2.serve r).2.cpu = ((t'.serveAll rs).2.serve r).2.cpu ∧
        (s.Draws (rs ++ [r]) →
          ((s.serveAll rs).2.serve r).1 = ((t'.serveAll rs).2.serve r).1 ∧
          ((s.serveAll rs).2.serve r).2.frame = ((t'.serveAll rs).2.serve r).2.frame) := by
  have soundS := sound_of_reachable hs
  have soundT := sound_of_reachable ht
  have loaded := soundT.withCpu fun _ => s.cpu
  refine ⟨s.toJson, _, parse_pretty_toJson s, restore_toJson t s, rfl, fun _ => rfl, rfl,
    loaded.redraw_frame, rfl, fun rs r fresh last => ?_⟩
  have alike : Alike s (t.withCpu fun _ => s.cpu).redraw := 
    ⟨rfl, congrArg Display.mk palette, batch⟩
  obtain ⟨before, -⟩ := serveAll_together alike soundS loaded.redraw fresh
  have step := serve_together before (sound_serveAll soundS rs) (sound_serveAll loaded.redraw rs) last
  have fresh' : .reload ∉ rs ++ [r] := by
    intro inside
    rcases List.mem_append.mp inside with inside | inside
    · exact fresh inside
    · exact last (List.mem_singleton.mp inside).symm
  obtain ⟨-, frames⟩ := serveAll_together alike soundS loaded.redraw fresh'
  refine ⟨step.outcome, step.together.alike.cpu, fun drawn => ?_⟩
  have shown := frames (.inl drawn)
  rw [serveAll_append, serveAll_append] at shown
  exact ⟨step.answer shown, shown⟩

/-- A machine that has run into the halt at the start of empty RAM, with a key held. -/
def halting : Machine := (powerOn.serveAll [.press .left, .runBatch 3]).2

/-- The two machines after a reset, which draws, and a frame. -/
theorem restored_follows_saved_halting :
    halting.Reachable ∧ powerOn.Reachable ∧
      halting.display.palette = powerOn.display.palette ∧
      halting.batchLength = powerOn.batchLength ∧
      ∃ state t', Json.Value.parse halting.toJson.pretty = .ok state ∧
        powerOn.restore state = .ok t' ∧ t'.registers = halting.registers ∧
        t'.frame = powerOn.display.picture halting.bus ∧
        ((halting.serveAll [.softReset]).2.serve .nextFrame).1 =
          ((t'.serveAll [.softReset]).2.serve .nextFrame).1 := by
  have reachable : halting.Reachable := Reachable.powerOn.serveAll [.press .left, .runBatch 3]
  have palette : halting.display.palette = powerOn.display.palette := by decide +kernel
  have batch : halting.batchLength = powerOn.batchLength := by decide +kernel
  obtain ⟨state, t', read, accepted, registers, -, -, frame, -, future⟩ :=
    restored_follows_saved reachable .powerOn palette batch
  have draws : halting.Draws [.softReset, .nextFrame] := by
    refine ⟨[.softReset], List.prefix_append [Request.softReset] [.nextFrame], ?_⟩
    show halting.pictures + 1 ≠ halting.pictures
    exact fun same => absurd (UInt64.add_eq_left.mp same) (by decide)
  obtain ⟨-, -, shown⟩ := future [.softReset] .nextFrame (by simp) (by simp)
  exact ⟨reachable, .powerOn, palette, batch, state, t', read, accepted, registers, frame,
    (shown draws).1⟩

end Retro24.Machine
