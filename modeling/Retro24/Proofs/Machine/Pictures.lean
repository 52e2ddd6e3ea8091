/-
  File:      Retro24/Proofs/Machine/Pictures.lean
  Subject:   The picture on the screen and the memory behind it.

  * `Display.picture_eq_iff`: pictures are equal if every pixel is shown in the same way.
  * `Program.colorAt`: the color of a pixel in an image that is long enough to reach the planes;
    `colorAt_of_short`: in any other image it is black. `Fresh.colorAt`: behind a reset or a load
    these are the colors in memory.
  * `Machine.Current`: the frame is the picture of the planes. Resets and accepted states end with a
    picture (`current_hardReset`, `current_softReset`, `current_restore`).
  * `Loads.frame_eq`: a load draws before it copies the image, so that its frame is black all over.
    `Loads.current_iff`: it is current if the image shows nothing else.
  * `pictures_current`: all of it together, on every reachable machine and with every palette.
-/
import Retro24.Proofs.Machine.Resets

namespace Retro24

open Memory (read)

/-! ## 1. Colors of pixels -/

namespace Display

/-- What is shown for a color. -/
def shown (d : Display) (c : ScreenColor) : UInt32 := d.palette.get c.index

theorem shade_eq (d : Display) (b : Bus) (i : Fin pixelCount) :
    d.shade b i = d.shown (b.colorAt i) := by
  unfold shade
  rw [ScreenColor.paletteIndex_eq_index]
  rfl

/-- Every place of an array written anew. -/
theorem mapIdx_eq_ofFn {α : Type} {n : Nat} {xs : Array α} (size : xs.size = n) (f : Fin n → α) :
    (xs.mapIdx fun i x => if h : i < n then f ⟨i, h⟩ else x) = Array.ofFn f := by
  apply Array.ext
  · rw [Array.size_mapIdx, size, Array.size_ofFn]
  · intro i inside inside'
    rw [Array.size_ofFn] at inside'
    rw [Array.getElem_mapIdx, dif_pos inside', Array.getElem_ofFn]

/-- The planes drawn over a frame of their size, pixel by pixel. -/
theorem drawOver_eq (d : Display) (b : Bus) {f : Frame} (size : f.pixels.size = pixelCount) :
    d.drawOver b f = ⟨f.width, f.height, Array.ofFn fun i => d.shown (b.colorAt i)⟩ := by
  unfold drawOver
  rw [mapIdx_eq_ofFn size, funext (d.shade_eq b)]

theorem picture_eq (d : Display) (b : Bus) :
    d.picture b = ⟨64, 64, Array.ofFn fun i : Fin pixelCount => d.shown (b.colorAt i)⟩ := by
  have size : (Frame.blank 64 64).pixels.size = pixelCount := by
    rw [Frame.blank, Array.size_replicate]
    rfl
  exact drawOver_eq d b size

/-- **Pictures are equal exactly if every pixel is shown in the same way.** -/
theorem picture_eq_iff {d : Display} {b b' : Bus} :
    d.picture b = d.picture b' ↔ ∀ i, d.shown (b.colorAt i) = d.shown (b'.colorAt i) := by
  rw [picture_eq, picture_eq]
  constructor
  · intro same i
    have pixel := congrArg (·.pixels[i.val]?) same
    simp only [Array.getElem?_ofFn, i.isLt, dif_pos, Option.some.injEq] at pixel
    exact pixel
  · intro same
    rw [funext same]

end Display

/-- A pixel in the planes, as their bytes are read. -/
theorem Bus.colorAt_eq (b : Bus) (i : Fin pixelCount) :
    b.colorAt i = .ofPlanes (Memory.read b (UInt16.ofNat (0xE000 + i)) != 0)
      (Memory.read b (UInt16.ofNat (0xF000 + i)) != 0) := by
  have place (r : Region) (j : Fin r.size) :
      b.get ⟨r, j⟩ = Memory.read b (UInt16.ofNat (r.start.toNat + j)) := by
    have address : UInt16.ofNat (r.start.toNat + j) = Cell.address ⟨r, j⟩ := by
      rw [← UInt16.toNat_inj, ← UInt16.ofNat_toNat (x := Cell.address _), Cell.toNat_address]
    rw [address]
    show _ = b.get (Region.locate _)
    rw [Region.locate_address]
  unfold colorAt isBright isColored
  rw [place, place]
  rfl

/-! ## 2. Images that reach the planes -/

namespace Program

/-- Whether a byte of an image is there and not zero. -/
def lit (image : Program) (n : Nat) : Bool := image.bytes[n]?.getD 0 != 0

/-- The color of a pixel in an image. The planes begin behind as many bytes as RAM has. -/
def colorAt (image : Program) (i : Fin pixelCount) : ScreenColor :=
  .ofPlanes (image.lit (57088 + i)) (image.lit (61184 + i))

/-- An image that fits RAM shows nothing. -/
theorem colorAt_of_short {image : Program} (short : image.length ≤ 57088) (i : Fin pixelCount) :
    image.colorAt i = .black := by
  have dark (n : Nat) (beyond : 57088 ≤ n) : image.lit n = false := by
    rw [lit, List.getElem?_eq_none (Nat.le_trans short beyond)]
    rfl
  rw [colorAt, dark _ (Nat.le_add_right _ _), dark _ (by omega)]
  rfl

end Program

namespace Cpu

variable {before : Bus} {c : Cpu Bus} {image : Program}

/-- What a reset or a load leaves in the planes is the image, as far as it goes. -/
theorem Fresh.read_planes (h : Fresh before image.bytes c) {n : Nat} (planes : 57088 ≤ n)
    (inside : 0x0100 + n < 65536) :
    read c.memory (UInt16.ofNat (0x0100 + n)) = image.bytes[n]?.getD 0 := by
  by_cases covered : n < image.bytes.length
  · rw [h.image n covered, List.getElem?_eq_getElem covered]
    rfl
  · have place : (UInt16.ofNat (0x0100 + n)).toNat = 0x0100 + n :=
      UInt16.toNat_ofNat_of_lt' inside
    rw [h.video _ (by omega) (by omega), List.getElem?_eq_none (Nat.not_lt.mp covered)]
    rfl

/-- **Behind a reset or a load the colors in memory are those of the image.** -/
theorem Fresh.colorAt (h : Fresh before image.bytes c) (i : Fin pixelCount) :
    c.memory.colorAt i = image.colorAt i := by
  have small : i.val < 4096 := i.isLt
  have bright := h.read_planes (n := 57088 + i) (by omega) (by omega)
  have color := h.read_planes (n := 61184 + i) (by omega) (by omega)
  have first : 0x0100 + (57088 + i.val) = 0xE000 + i.val := by omega
  have second : 0x0100 + (61184 + i.val) = 0xF000 + i.val := by omega
  rw [first] at bright
  rw [second] at color
  rw [Bus.colorAt_eq, bright, color]
  rfl

end Cpu

/-! ## 3. The picture on the screen -/

namespace Machine

variable {m m' : Machine} {image : Program} {d : Display}

/-- The frame on the screen is the picture of the planes. -/
def Current (m : Machine) : Prop := m.frame = m.display.picture m.bus

/-- The machine with other colors on its screen. -/
def inColors (m : Machine) (d : Display) : Machine := { m with display := d }

theorem Sound.inColors (sound : m.Sound) (four : d.palette.colors.size = 4) :
    (m.inColors d).Sound :=
  ⟨sound.width, sound.height, sound.pixels, four, sound.batch, sound.program⟩

theorem current_hardReset (sound : m.Sound) : m.hardReset.Current :=
  ((sound.withCpu _).withBus _).redraw_frame

/-- Power comes on with a hard reset. -/
theorem current_powerOn : powerOn.Current := by
  have size : (Display.powerOn.picture Bus.blank).pixels.size = pixelCount := by
    rw [Display.picture_eq, Array.size_ofFn]
  unfold powerOn
  exact current_hardReset ⟨rfl, rfl, size, rfl, by decide, nofun⟩

theorem current_softReset (sound : m.Sound) : m.softReset.Current := softReset_frame sound

/-- A state that is accepted is drawn. -/
theorem current_restore (sound : m.Sound) {v : Json.Value} (accepted : m.restore v = .ok m') :
    m'.Current := by
  rw [restore_eq] at accepted
  cases state : readState v with
  | error e =>
    rw [state] at accepted
    cases accepted
  | ok parts =>
    rw [state] at accepted
    cases accepted
    exact (sound.withCpu fun _ => restored v parts.1 parts.2).redraw_frame

/-- Behind a soft reset the screen is black all over. -/
theorem softReset_colorAt (m : Machine) (i : Fin pixelCount) :
    m.softReset.bus.colorAt i = .black := by
  have fresh : Cpu.Fresh m.bus (Program.ofBytes []).bytes m.softReset.cpu := m.fresh_softReset
  exact (fresh.colorAt i).trans (Program.colorAt_of_short (Nat.zero_le _) i)

/-- **A load draws behind its reset and before it copies the image.** -/
theorem Loads.frame_eq (h : m.Loads image m') (sound : m.Sound) :
    m'.frame = m.display.picture m.softReset.bus := by
  obtain ⟨-, rfl⟩ := h.eq_loaded sound
  exact softReset_frame sound

/-- **A load leaves a current frame exactly if no pixel of the image is shown otherwise than
    black.** -/
theorem Loads.current_iff (h : m.Loads image m') (sound : m.Sound) :
    m'.Current ↔ ∀ i, m.display.shown (image.colorAt i) = m.display.shown .black := by
  have display : m'.display = m.display := by
    obtain ⟨-, rfl⟩ := h.eq_loaded sound
    rfl
  have colors (i : Fin pixelCount) : m'.bus.colorAt i = image.colorAt i :=
    (h.fresh sound).colorAt i
  unfold Current
  rw [h.frame_eq sound, display, Display.picture_eq_iff]
  constructor
  · intro same i
    rw [← colors, ← same, softReset_colorAt]
  · intro same i
    rw [colors, same, softReset_colorAt]

/-- So it does if the image fits RAM. -/
theorem Loads.current_of_short (h : m.Loads image m') (sound : m.Sound)
    (short : image.length ≤ 57088) : m'.Current := by
  refine (h.current_iff sound).mpr ?_
  intro i
  rw [Program.colorAt_of_short short]

/-- **Behind resets and accepted states the frame shows the memory that was established**, on every
    reachable machine and with every palette. Behind a load memory shows the image, and the frame a
    screen that is black all over; it is current exactly if the image shows nothing else there, and
    always if the image fits RAM. An empty slot is not loaded, and that changes nothing. -/
theorem pictures_current (h : m.Reachable) (four : d.palette.colors.size = 4) :
    powerOn.Current ∧ (m.inColors d).hardReset.Current ∧ (m.inColors d).softReset.Current ∧
    (∀ v m', (m.inColors d).restore v = .ok m' → m'.Current) ∧
    (∀ image m', (m.inColors d).Loads image m' →
      (∀ i, m'.bus.colorAt i = image.colorAt i) ∧
      m'.frame = d.picture (m.inColors d).softReset.bus ∧
      (∀ i, (m.inColors d).softReset.bus.colorAt i = .black) ∧
      (m'.Current ↔ ∀ i, d.shown (image.colorAt i) = d.shown .black) ∧
      (image.length ≤ 57088 → m'.Current)) ∧
    (m.program = none → (m.inColors d).reload = (.ok false, m.inColors d)) := by
  have sound := (sound_of_reachable h).inColors four
  refine ⟨?_, current_hardReset sound, current_softReset sound, ?_, ?_, ?_⟩
  · exact current_powerOn
  · intro v m' accepted
    exact current_restore sound accepted
  · intro image m' loads
    exact ⟨(loads.fresh sound).colorAt, loads.frame_eq sound, softReset_colorAt _,
      loads.current_iff sound, loads.current_of_short sound⟩
  · intro empty
    have stored : (m.inColors d).program = none := empty
    rw [reload_eq sound, stored]

/-- In other colors, and behind a program that failed and a state that was refused. -/
theorem pictures_current_mishaps :
    ∃ (d : Display) (m m' : Machine), d = Display.powerOn.recolor .black 0xFF123456 ∧
      m = (powerOn.serveAll mishaps).2.inColors d ∧ m.hardReset.Current ∧ m.softReset.Current ∧
      m.mount "Program" [0x2E] = (.ok (), m') ∧ m'.Current := by
  let d : Display := Display.powerOn.recolor .black 0xFF123456
  let m : Machine := (powerOn.serveAll mishaps).2.inColors d
  have mounted : m.mount "Program" [0x2E] = (.ok (), m.loaded (.ofBytes [0x2E])) :=
    m.mount_eq (by decide)
  have reachable := Reachable.powerOn.serveAll mishaps
  obtain ⟨-, hard, soft, -, loads, -⟩ :=
    pictures_current (d := d) reachable (Palette.size_set ..)
  obtain ⟨-, -, -, -, current⟩ := loads _ _ (.mount rfl mounted)
  exact ⟨d, m, _, rfl, rfl, hard, soft, mounted, current (by decide)⟩

/-- An image as long as RAM and one byte more, which is not zero and stands in the first pixel. -/
def spilling : Program := .ofBytes (List.replicate 57089 1)

theorem spilling_colorAt : spilling.colorAt 0 = .white := by
  have bright : spilling.lit 57088 = true := by
    unfold spilling Program.ofBytes Program.lit
    rw [List.getElem?_replicate, if_pos (by decide)]
    rfl
  have plain : spilling.lit 61184 = false := by
    unfold spilling Program.ofBytes Program.lit
    rw [List.getElem?_replicate, if_neg (by decide)]
    rfl
  show ScreenColor.ofPlanes (spilling.lit 57088) (spilling.lit 61184) = .white
  rw [bright, plain]
  rfl

/-- **Its pixel is white in memory and black in the frame.** -/
theorem load_leaves_stale_frame :
    ∃ m' : Machine, powerOn.mount "Program" (List.replicate 57089 1) = (.ok (), m') ∧
      m'.frame ≠ m'.display.picture m'.bus := by
  have fits : (List.replicate 57089 (1 : UInt8)).length ≤ programLimit := by
    rw [List.length_replicate]
    decide
  have mounted := powerOn.mount_eq fits
  have loads : powerOn.Loads spilling (powerOn.loaded spilling) := .mount rfl mounted
  refine ⟨_, mounted, ?_⟩
  intro current
  have pixel := (loads.current_iff sound_powerOn).mp current 0
  rw [spilling_colorAt] at pixel
  exact absurd pixel (by decide)

end Machine
end Retro24
