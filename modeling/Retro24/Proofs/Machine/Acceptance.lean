/-
  File:      Retro24/Proofs/Machine/Acceptance.lean
  Subject:   Exactly which values are restored as states, and what they replace.

  * `Registers.StoredIn`, `BusImage.StoredIn`: the values that hold registers and banks, which are
    the objects that give every field, whatever else they hold, and the arrays of the fields in
    order.
  * `Registers.ofJson_eq_ok_iff`, `BusImage.ofJson_eq_ok_iff`: these are the values decoded.
  * `Machine.StateIn`: a value that holds a state; `readState_eq_ok_iff`: these are the values read.
  * `restore_exactly`: the statement about every value and every reachable machine.
-/
import Retro24.Proofs.Json.Structures
import Retro24.Proofs.Machine.Futures

namespace Retro24

open Json (Value Exact Gives Tracks)

/-! ## 1. Registers -/

namespace Registers

/-- The entries of an object give every register. -/
structure InObject (r : Registers) (entries : List (String × Value)) : Prop where
  ar : Gives .ofWord entries "ar" r.ar
  ic : Gives .ofWord entries "ic" r.ic
  r0 : Gives .ofByte entries "r0" r.r0
  r1 : Gives .ofByte entries "r1" r.r1
  r2 : Gives .ofByte entries "r2" r.r2
  r3 : Gives .ofByte entries "r3" r.r3
  halted : Gives .bool entries "hlt" r.halted
  opcode : Gives .ofByte entries "current_opcode" r.opcode

/-- The registers in the order of an array of them. -/
def inOrder (r : Registers) : List Value :=
  [.ofWord r.ar, .ofWord r.ic, .ofByte r.r0, .ofByte r.r1, .ofByte r.r2, .ofByte r.r3,
    .bool r.halted, .ofByte r.opcode]

/-- The values that hold registers. -/
def StoredIn (r : Registers) : Value → Prop := Json.Holds r.InObject r.inOrder

/-- Every key of the registers fills one of them and leaves the others alone. -/
theorem tracked :
    Tracks fields "ar" .ofWord ar ∧ Tracks fields "ic" .ofWord ic ∧
      Tracks fields "r0" .ofByte r0 ∧ Tracks fields "r1" .ofByte r1 ∧
      Tracks fields "r2" .ofByte r2 ∧ Tracks fields "r3" .ofByte r3 ∧
      Tracks fields "hlt" .bool halted ∧ Tracks fields "current_opcode" .ofByte opcode := by
  refine ⟨?_, ?_, ?_, ?_, ?_, ?_, ?_, ?_⟩ <;>
    refine ⟨by simp [fields], fun field inside v s s' accepted => ?_⟩ <;>
    simp only [fields, List.mem_cons, List.not_mem_nil, or_false] at inside <;>
    rcases inside with rfl | rfl | rfl | rfl | rfl | rfl | rfl | rfl <;>
    obtain ⟨x, decoded, rfl⟩ := Json.map_eq_ok_iff.mp accepted <;>
    simp only [Json.exact_decodeWord v _, Json.exact_decodeByte v _, Json.exact_decodeBool v _]
      at decoded <;>
    simp [decoded]

/-- What the fields of an object give is taken by the fields of the registers. -/
theorem InObject.needed {r : Registers} {entries : List (String × Value)} (h : r.InObject entries) :
    ∀ field ∈ fields, Json.valuesUnder field.name entries ≠ [] ∧
      ∀ v ∈ Json.valuesUnder field.name entries, ∀ s, ∃ s', field.decode v s = .ok s' := by
  intro field inside
  simp only [fields, List.mem_cons, List.not_mem_nil, or_false] at inside
  rcases inside with rfl | rfl | rfl | rfl | rfl | rfl | rfl | rfl
  · exact h.ar.needed Json.exact_decodeWord fun (s : Registers) w => { s with ar := w }
  · exact h.ic.needed Json.exact_decodeWord fun (s : Registers) w => { s with ic := w }
  · exact h.r0.needed Json.exact_decodeByte fun (s : Registers) b => { s with r0 := b }
  · exact h.r1.needed Json.exact_decodeByte fun (s : Registers) b => { s with r1 := b }
  · exact h.r2.needed Json.exact_decodeByte fun (s : Registers) b => { s with r2 := b }
  · exact h.r3.needed Json.exact_decodeByte fun (s : Registers) b => { s with r3 := b }
  · exact h.halted.needed Json.exact_decodeBool fun (s : Registers) b => { s with halted := b }
  · exact h.opcode.needed Json.exact_decodeByte fun (s : Registers) b => { s with opcode := b }

/-- An object that is decoded gives the registers it is decoded to. -/
theorem inObject_of_ofJson {r : Registers} {entries : List (String × Value)}
    (h : ofJson (.object entries) = .ok r) : r.InObject entries := by
  obtain ⟨ar, ic, r0, r1, r2, r3, halted, opcode⟩ := tracked
  exact ⟨Json.gives_of_decodeStruct ar h, Json.gives_of_decodeStruct ic h,
    Json.gives_of_decodeStruct r0 h, Json.gives_of_decodeStruct r1 h,
    Json.gives_of_decodeStruct r2 h, Json.gives_of_decodeStruct r3 h,
    Json.gives_of_decodeStruct halted h, Json.gives_of_decodeStruct opcode h⟩

theorem InObject.unique {r s : Registers} {entries : List (String × Value)} (h : r.InObject entries)
    (h' : s.InObject entries) : r = s := by
  cases r
  cases s
  rw [mk.injEq]
  exact ⟨h.ar.unique Json.exact_decodeWord h'.ar, h.ic.unique Json.exact_decodeWord h'.ic,
    h.r0.unique Json.exact_decodeByte h'.r0, h.r1.unique Json.exact_decodeByte h'.r1,
    h.r2.unique Json.exact_decodeByte h'.r2, h.r3.unique Json.exact_decodeByte h'.r3,
    h.halted.unique Json.exact_decodeBool h'.halted,
    h.opcode.unique Json.exact_decodeByte h'.opcode⟩

theorem ofJson_array_iff {items : List Value} {r : Registers} :
    ofJson (.array items) = .ok r ↔ items = r.inOrder := by
  simp only [ofJson, Value.decodeStruct, Registers.fields,
    Json.decodeInOrder_cons_iff Json.exact_decodeWord,
    Json.decodeInOrder_cons_iff Json.exact_decodeByte,
    Json.decodeInOrder_cons_iff Json.exact_decodeBool, Json.decodeInOrder_nil_iff]
  constructor
  · rintro ⟨ar, _, rfl, ic, _, rfl, r0, _, rfl, r1, _, rfl, r2, _, rfl, r3, _, rfl, halted, _, rfl,
      opcode, _, rfl, rfl, rfl⟩
    rfl
  · rintro rfl
    exact ⟨r.ar, _, rfl, r.ic, _, rfl, r.r0, _, rfl, r.r1, _, rfl, r.r2, _, rfl, r.r3, _, rfl,
      r.halted, _, rfl, r.opcode, _, rfl, rfl, rfl⟩

/-- **Registers are decoded from the values that hold them, and from no others.** -/
theorem ofJson_eq_ok_iff (v : Value) (r : Registers) : ofJson v = .ok r ↔ r.StoredIn v :=
  Json.decodeStruct_eq_ok_iff (fun _ _ => InObject.needed) (fun _ _ => inObject_of_ofJson)
    (fun _ _ _ => InObject.unique) (fun _ _ => ofJson_array_iff) v r

end Registers

/-! ## 2. Banks -/

theorem exact_bytesOfJson : Exact bytesOfJson bytesToJson := by
  intro v bytes
  rw [bytesOfJson, Json.map_eq_ok_iff]
  constructor
  · rintro ⟨xs, decoded, rfl⟩
    rw [(Json.exact_decodeList Json.exact_decodeByte v xs).mp decoded]
    rfl
  · rintro rfl
    exact ⟨bytes.toList, (Json.exact_decodeList Json.exact_decodeByte _ bytes.toList).mpr rfl, rfl⟩

namespace BusImage

/-- The entries of an object give every bank. -/
structure InObject (i : BusImage) (entries : List (String × Value)) : Prop where
  io : Gives bytesToJson entries "io" i.io
  ram : Gives bytesToJson entries "ram" i.ram
  video : Gives bytesToJson entries "video" i.video

/-- The banks in the order of an array of them. -/
def inOrder (i : BusImage) : List Value :=
  [bytesToJson i.io, bytesToJson i.ram, bytesToJson i.video]

/-- The values that hold banks, of whatever sizes. -/
def StoredIn (i : BusImage) : Value → Prop := Json.Holds i.InObject i.inOrder

/-- Every key of the banks fills one of them and leaves the others alone. -/
theorem tracked :
    Tracks fields "io" bytesToJson io ∧ Tracks fields "ram" bytesToJson ram ∧
      Tracks fields "video" bytesToJson video := by
  refine ⟨?_, ?_, ?_⟩ <;>
    refine ⟨by simp [fields], fun field inside v s s' accepted => ?_⟩ <;>
    simp only [fields, List.mem_cons, List.not_mem_nil, or_false] at inside <;>
    rcases inside with rfl | rfl | rfl <;>
    obtain ⟨x, decoded, rfl⟩ := Json.map_eq_ok_iff.mp accepted <;>
    simp only [exact_bytesOfJson v _] at decoded <;>
    simp [decoded]

/-- What the fields of an object give is taken by the fields of the banks. -/
theorem InObject.needed {i : BusImage} {entries : List (String × Value)} (h : i.InObject entries) :
    ∀ field ∈ fields, Json.valuesUnder field.name entries ≠ [] ∧
      ∀ v ∈ Json.valuesUnder field.name entries, ∀ s, ∃ s', field.decode v s = .ok s' := by
  intro field inside
  simp only [fields, List.mem_cons, List.not_mem_nil, or_false] at inside
  rcases inside with rfl | rfl | rfl
  · exact h.io.needed exact_bytesOfJson fun (s : BusImage) bytes => { s with io := bytes }
  · exact h.ram.needed exact_bytesOfJson fun (s : BusImage) bytes => { s with ram := bytes }
  · exact h.video.needed exact_bytesOfJson fun (s : BusImage) bytes => { s with video := bytes }

/-- An object that is decoded gives the banks it is decoded to. -/
theorem inObject_of_ofJson {i : BusImage} {entries : List (String × Value)}
    (h : ofJson (.object entries) = .ok i) : i.InObject entries := by
  obtain ⟨io, ram, video⟩ := tracked
  exact ⟨Json.gives_of_decodeStruct io h, Json.gives_of_decodeStruct ram h,
    Json.gives_of_decodeStruct video h⟩

theorem InObject.unique {i j : BusImage} {entries : List (String × Value)} (h : i.InObject entries)
    (h' : j.InObject entries) : i = j := by
  cases i
  cases j
  rw [mk.injEq]
  exact ⟨h.io.unique exact_bytesOfJson h'.io, h.ram.unique exact_bytesOfJson h'.ram,
    h.video.unique exact_bytesOfJson h'.video⟩

theorem ofJson_array_iff {items : List Value} {i : BusImage} :
    ofJson (.array items) = .ok i ↔ items = i.inOrder := by
  simp only [ofJson, Value.decodeStruct, BusImage.fields,
    Json.decodeInOrder_cons_iff exact_bytesOfJson, Json.decodeInOrder_nil_iff]
  constructor
  · rintro ⟨io, _, rfl, ram, _, rfl, video, _, rfl, rfl, rfl⟩
    rfl
  · rintro rfl
    exact ⟨i.io, _, rfl, i.ram, _, rfl, i.video, _, rfl, rfl, rfl⟩

/-- **Banks are decoded from the values that hold them, and from no others.** -/
theorem ofJson_eq_ok_iff (v : Value) (i : BusImage) : ofJson v = .ok i ↔ i.StoredIn v :=
  Json.decodeStruct_eq_ok_iff (fun _ _ => InObject.needed) (fun _ _ => inObject_of_ofJson)
    (fun _ _ _ => InObject.unique) (fun _ _ => ofJson_array_iff) v i

end BusImage

/-! ## 3. States -/

theorem natural?_eq_some_iff {v : Value} {n : Nat} :
    v.natural? = some n ↔ v = .ofNat n ∧ n < 0x10000000000000000 := by
  constructor
  · intro h
    unfold Value.natural? at h
    split at h
    · next i =>
      split at h
      · next inside =>
        cases h
        refine ⟨?_, by omega⟩
        rw [Value.ofNat, Int.toNat_of_nonneg inside.1]
      · cases h
    · cases h
  · rintro ⟨rfl, below⟩
    exact natural?_ofNat below

theorem text?_eq_some_iff {v : Value} {s : String} : v.text? = some s ↔ v = .string s := by
  cases v <;> simp [Value.text?]

namespace Machine

/-- A value holds a state with the given registers and banks. -/
structure StateIn (v : Value) (regs : Registers) (image : BusImage) : Prop where
  version : v.get "version" = .ofNat 1
  system : v.get "system" = .string "retro24"
  registers : regs.StoredIn (v.get "registers")
  banks : image.StoredIn (v.get "bus")
  io : image.io.size = 256
  ram : image.ram.size = 57088
  video : image.video.size = 8192

variable {m m' : Machine} {v : Value} {regs : Registers} {image : BusImage}

/-- Banks of the right sizes are those of a memory. -/
theorem StateIn.bus (h : StateIn v regs image) : ∃ bus, image = .ofBus bus :=
  ⟨⟨⟨image.io, h.io⟩, ⟨image.ram, h.ram⟩, ⟨image.video, h.video⟩⟩, rfl⟩

/-- **The states read from values are those that the values hold.** -/
theorem readState_eq_ok_iff {bus : Bus} :
    readState v = .ok (regs, bus) ↔ StateIn v regs (.ofBus bus) := by
  constructor
  · intro read
    obtain ⟨version, system, registers, banks⟩ := readState_ok read
    exact
      { version := (natural?_eq_some_iff.mp version).1
        system := text?_eq_some_iff.mp system
        registers := (Registers.ofJson_eq_ok_iff _ regs).mp registers
        banks := (BusImage.ofJson_eq_ok_iff _ _).mp banks
        io := bus.io.size_toArray
        ram := bus.ram.size_toArray
        video := bus.video.size_toArray }
  · intro held
    exact readState_of_parts (natural?_eq_some_iff.mpr ⟨held.version, by decide⟩)
      (text?_eq_some_iff.mpr held.system) ((Registers.ofJson_eq_ok_iff _ regs).mpr held.registers)
      ((BusImage.ofJson_eq_ok_iff _ _).mpr held.banks) (BusImage.toBus?_ofBus bus)

/-- **A machine behind a state with the given registers and banks.** The counter of the state
    counts if it is a natural of 64 bits. -/
structure Restored (m : Machine) (v : Value) (regs : Registers) (image : BusImage) (m' : Machine) :
    Prop where
  registers : m'.registers = regs
  memory : BusImage.ofBus m'.bus = image
  counted : ∀ n : UInt64, v.get "cycles" = .ofNat n.toNat → m'.cpu.cycles = n
  uncounted : (∀ n : UInt64, v.get "cycles" ≠ .ofNat n.toNat) → m'.cpu.cycles = 0
  frame : m'.frame = m.display.picture m'.bus
  pictures : m'.pictures = m.pictures + 1
  program : m'.program = m.program
  display : m'.display = m.display
  batchLength : m'.batchLength = m.batchLength

theorem natural?_eq_none {w : Value} (h : ∀ n : UInt64, w ≠ .ofNat n.toNat) :
    w.natural? = none := by
  cases counted : w.natural? with
  | none => rfl
  | some n =>
    obtain ⟨written, below⟩ := natural?_eq_some_iff.mp counted
    have other := h (.ofNat n)
    rw [UInt64.toNat_ofNat_of_lt' below] at other
    exact absurd written other

/-- The machine behind a state that is read. -/
theorem Sound.restored (h : m.Sound) {bus : Bus} :
    Restored m v regs (.ofBus bus) (m.withCpu fun _ => restored v regs bus).redraw where
  registers := rfl
  memory := rfl
  counted n written := by
    have counter : (v.get "cycles").natural? = some n.toNat := by
      rw [written]
      exact natural?_ofNat n.toNat_lt
    show UInt64.ofNat ((v.get "cycles").natural?.getD 0) = n
    rw [counter, Option.getD_some, UInt64.ofNat_toNat]
  uncounted none := by
    show UInt64.ofNat ((v.get "cycles").natural?.getD 0) = 0
    rw [natural?_eq_none none]
    rfl
  frame := (h.withCpu fun _ => Machine.restored v regs bus).redraw_frame
  pictures := rfl
  program := rfl
  display := rfl
  batchLength := rfl

/-- **Exactly the values that hold a state are restored, and a refusal changes nothing.** Whatever
    the value, the answer says whether it was accepted. If it was not, the machine is what it was;
    if it was, it has the registers and the memory of the state, shows them, and keeps its program,
    its palette and its batch length. -/
theorem restore_exactly (h : m.Reachable) (v : Value) :
    ∃ result, (m.serve (.restore v)).1 = .state result ∧
      (result = .ok () ↔ ∃ regs image, StateIn v regs image) ∧
      (result ≠ .ok () → (m.serve (.restore v)).2 = m) ∧
      ∀ regs image, StateIn v regs image → Restored m v regs image (m.serve (.restore v)).2 := by
  rw [serve_restore]
  cases read : readState v with
  | error e =>
    have none : ∀ regs image, ¬ StateIn v regs image := by
      intro regs image held
      obtain ⟨bus, rfl⟩ := held.bus
      rw [readState_eq_ok_iff.mpr held] at read
      cases read
    refine ⟨.error e, rfl, ⟨nofun, ?_⟩, fun _ => rfl, fun regs image held => ?_⟩
    · rintro ⟨regs, image, held⟩
      exact absurd held (none regs image)
    · exact absurd held (none regs image)
  | ok state =>
    obtain ⟨regs, bus⟩ := state
    have held := readState_eq_ok_iff.mp read
    refine ⟨.ok (), rfl, ⟨fun _ => ⟨regs, _, held⟩, fun _ => rfl⟩,
      fun refused => absurd rfl refused, fun regs' image' held' => ?_⟩
    -- a value holds one state only
    obtain ⟨bus', rfl⟩ := held'.bus
    rw [readState_eq_ok_iff.mpr held'] at read
    cases read
    exact (sound_of_reachable h).restored

/-- A state of a blank machine without a counter, its registers as an array. -/
def uncountedState : Value :=
  .object
    [("bus", (BusImage.ofBus .blank).toJson), ("registers", .array Registers.powerOn.inOrder),
     ("system", .string "retro24"), ("version", .ofNat 1)]

/-- A machine that has run accepts that state, and refuses null. -/
theorem restore_exactly_halting :
    halting.Reachable ∧ StateIn uncountedState .powerOn (.ofBus .blank) ∧
      Restored halting uncountedState .powerOn (.ofBus .blank)
        (halting.serve (.restore uncountedState)).2 ∧
      (halting.serve (.restore uncountedState)).2.cpu.cycles = 0 ∧
      (halting.serve (.restore .null)).2 = halting := by
  have reachable : halting.Reachable := Reachable.powerOn.serveAll [.press .left, .runBatch 3]
  have held : StateIn uncountedState .powerOn (.ofBus .blank) :=
    { version := rfl
      system := rfl
      registers := .array
      banks := (BusImage.ofJson_eq_ok_iff _ _).mp (BusImage.ofJson_toJson (.ofBus .blank))
      io := Bus.blank.io.size_toArray
      ram := Bus.blank.ram.size_toArray
      video := Bus.blank.video.size_toArray }
  obtain ⟨_, -, -, -, restored⟩ := restore_exactly reachable uncountedState
  obtain ⟨_, -, accepted, kept, -⟩ := restore_exactly reachable .null
  have behind := restored _ _ held
  refine ⟨reachable, held, behind, behind.uncounted fun n => nofun, kept fun ok => ?_⟩
  obtain ⟨regs, image, none⟩ := accepted.mp ok
  exact nomatch none.version

end Machine

end Retro24
