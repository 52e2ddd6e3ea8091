/-
  File:      Retro24/Proofs/Machine/SaveStates.lean
  Subject:   A state that was saved is restored, also through its text.

  * `decodeByte_ofNat` and its like: a number, an array of bytes, the registers and the banks are
    decoded from what they are written as.
  * `plain_toJson`: the state of a machine is a value that its text keeps; `parse_pretty_toJson`: so
    the text holds the state.
  * `restore_toJson`: the machine behind a restored state has the processor and the memory of the
    saved one, and shows them.
-/
import Retro24.Proofs.Json.RoundTrip
import Retro24.SaveState

namespace Retro24

open Json (Value Plain Decoded)

/-! ## 1. Decoding -/

theorem decodeNat_ofNat {n bound : Nat} (h : n < bound) (expected : String) :
    (Value.ofNat n).decodeNat bound expected = .ok n := by
  have inside : (0 : Int) ≤ n ∧ (n : Int) < bound := by omega
  unfold Value.ofNat Value.decodeNat
  exact if_pos inside

theorem decodeByte_ofNat (b : UInt8) : (Value.ofNat b.toNat).decodeByte = .ok b := by
  rw [Value.decodeByte, decodeNat_ofNat b.toNat_lt]
  exact congrArg Except.ok UInt8.ofNat_toNat

theorem decodeWord_ofNat (w : UInt16) : (Value.ofNat w.toNat).decodeWord = .ok w := by
  rw [Value.decodeWord, decodeNat_ofNat w.toNat_lt]
  exact congrArg Except.ok UInt16.ofNat_toNat

theorem natural?_ofNat {n : Nat} (h : n < 0x10000000000000000) : (Value.ofNat n).natural? = some n := by
  have inside : (0 : Int) ≤ n ∧ (n : Int) < 0x10000000000000000 := by omega
  unfold Value.ofNat Value.natural?
  exact if_pos inside

theorem decodeItems_bytes (bytes done : List UInt8) :
    Value.decodeItems Value.decodeByte done (bytes.map fun b => .ofNat b.toNat) =
      .ok (done.reverse ++ bytes) := by
  induction bytes generalizing done with
  | nil => rw [List.append_nil]; rfl
  | cons b bytes ih =>
    simp only [List.map_cons, Value.decodeItems, decodeByte_ofNat, ih, List.reverse_cons,
      List.append_assoc, List.cons_append, List.nil_append]

theorem bytesOfJson_bytesToJson (bytes : Array UInt8) :
    bytesOfJson (bytesToJson bytes) = .ok bytes := by
  have decoded := decodeItems_bytes bytes.toList []
  rw [List.reverse_nil, List.nil_append] at decoded
  simp only [bytesOfJson, bytesToJson, Value.decodeList, decoded]
  rfl

/-- An entry of a field goes into the draft. -/
theorem decodeEntries_field {σ : Type} (fields : List (Json.Member σ)) (key : String)
    {draft draft' : σ} {present : List String} {v : Value} {rest : List (String × Value)}
    {decode : Value → σ → Decoded σ}
    (found : (fields.find? fun f => f.name == key) = some ⟨key, decode⟩)
    (decoded : decode v draft = .ok draft') :
    Value.decodeEntries fields draft present ((key, v) :: rest) =
      Value.decodeEntries fields draft' (key :: present) rest := by
  simp only [Value.decodeEntries, found, decoded]

theorem decodeStruct_object {σ : Type} {fields : List (Json.Member σ)} {blank draft : σ}
    {present : List String} {entries : List (String × Value)} (name : String)
    (read : Value.decodeEntries fields blank [] entries = .ok (draft, present))
    (complete : (fields.find? fun f => !present.contains f.name) = none) :
    (Value.object entries).decodeStruct name fields blank = .ok draft := by
  simp only [Value.decodeStruct, read, complete]

/-- **The registers are decoded from what they are written as.** -/
theorem Registers.ofJson_toJson (r : Registers) : ofJson r.toJson = .ok r := by
  have word (w : UInt16) (f : UInt16 → Registers) :
      (Value.ofNat w.toNat).decodeWord.map f = .ok (f w) := by
    rw [decodeWord_ofNat]
    rfl
  have byte (b : UInt8) (f : UInt8 → Registers) :
      (Value.ofNat b.toNat).decodeByte.map f = .ok (f b) := by
    rw [decodeByte_ofNat]
    rfl
  have flag (b : Bool) (f : Bool → Registers) : (Value.bool b).decodeBool.map f = .ok (f b) := rfl
  have entries : Value.decodeEntries fields .powerOn []
      [("ar", .ofNat r.ar.toNat), ("current_opcode", .ofNat r.opcode.toNat), ("hlt", .bool r.halted),
       ("ic", .ofNat r.ic.toNat), ("r0", .ofNat r.r0.toNat), ("r1", .ofNat r.r1.toNat),
       ("r2", .ofNat r.r2.toNat), ("r3", .ofNat r.r3.toNat)] =
      .ok (r, ["r3", "r2", "r1", "r0", "ic", "hlt", "current_opcode", "ar"]) := by
    rw [decodeEntries_field fields "ar" rfl (word ..),
      decodeEntries_field fields "current_opcode" rfl (byte ..),
      decodeEntries_field fields "hlt" rfl (flag ..),
      decodeEntries_field fields "ic" rfl (word ..),
      decodeEntries_field fields "r0" rfl (byte ..),
      decodeEntries_field fields "r1" rfl (byte ..),
      decodeEntries_field fields "r2" rfl (byte ..),
      decodeEntries_field fields "r3" rfl (byte ..)]
    rfl
  exact decodeStruct_object _ entries rfl

/-- **The banks are decoded from what they are written as.** -/
theorem BusImage.ofJson_toJson (i : BusImage) : ofJson i.toJson = .ok i := by
  have bytes (bytes : Array UInt8) (f : Array UInt8 → BusImage) :
      (bytesOfJson (bytesToJson bytes)).map f = .ok (f bytes) := by
    rw [bytesOfJson_bytesToJson]
    rfl
  have entries : Value.decodeEntries fields ⟨#[], #[], #[]⟩ []
      [("io", bytesToJson i.io), ("ram", bytesToJson i.ram), ("video", bytesToJson i.video)] =
      .ok (i, ["video", "ram", "io"]) := by
    rw [decodeEntries_field fields "io" rfl (bytes ..),
      decodeEntries_field fields "ram" rfl (bytes ..),
      decodeEntries_field fields "video" rfl (bytes ..)]
    rfl
  exact decodeStruct_object _ entries rfl

/-! ## 2. States as plain values -/

theorem plain_ofNat {depth n : Nat} (h : n < 0x10000000000000000) : Plain depth (.ofNat n) :=
  .integer n (by omega) (by omega)

theorem plain_byte {depth : Nat} (b : UInt8) : Plain depth (.ofNat b.toNat) :=
  plain_ofNat (Nat.lt_trans b.toNat_lt (by decide))

theorem plain_word {depth : Nat} (w : UInt16) : Plain depth (.ofNat w.toNat) :=
  plain_ofNat (Nat.lt_trans w.toNat_lt (by decide))

theorem plain_bytes {depth : Nat} (bytes : Array UInt8) : Plain (depth + 1) (bytesToJson bytes) := by
  refine .array _ fun v hv => ?_
  obtain ⟨b, -, rfl⟩ := List.mem_map.mp hv
  exact plain_byte b

/-- Keys that rise make the entries of an object rise. -/
theorem plain_object {depth : Nat} {entries : List (String × Value)} (keys : List String)
    (same : entries.map Prod.fst = keys) (rising : keys.Pairwise (· < ·))
    (values : ∀ entry ∈ entries, Plain depth entry.2) : Plain (depth + 1) (.object entries) := by
  rw [← same] at rising
  exact .object entries (List.pairwise_map.mp rising) values

theorem Registers.plain_toJson {depth : Nat} (r : Registers) : Plain (depth + 1) r.toJson := by
  refine plain_object ["ar", "current_opcode", "hlt", "ic", "r0", "r1", "r2", "r3"] rfl (by decide) ?_
  simp only [List.forall_mem_cons]
  exact ⟨plain_word r.ar, plain_byte r.opcode, .bool r.halted, plain_word r.ic, plain_byte r.r0,
    plain_byte r.r1, plain_byte r.r2, plain_byte r.r3, nofun⟩

theorem BusImage.plain_toJson {depth : Nat} (i : BusImage) : Plain (depth + 2) i.toJson := by
  refine plain_object ["io", "ram", "video"] rfl (by decide) ?_
  simp only [List.forall_mem_cons]
  exact ⟨plain_bytes i.io, plain_bytes i.ram, plain_bytes i.video, nofun⟩

namespace Machine

/-- **The state of a machine is a value that its text keeps.** -/
theorem plain_toJson {depth : Nat} (m : Machine) : Plain (depth + 3) m.toJson := by
  refine plain_object ["bus", "cycles", "registers", "system", "version"] rfl (by decide) ?_
  simp only [List.forall_mem_cons]
  exact ⟨(BusImage.ofBus m.bus).plain_toJson, plain_ofNat m.cpu.cycles.toNat_lt,
    m.registers.plain_toJson, .string systemName, plain_ofNat (by decide), nofun⟩

/-- **The text of a state holds the state.** -/
theorem parse_pretty_toJson (m : Machine) : Value.parse m.toJson.pretty = .ok m.toJson :=
  Json.parse_pretty m.plain_toJson

/-! ## 3. Restoring -/

/-- A value is a state when its parts are. -/
theorem readState_of_parts {v : Value} {regs : Registers} {image : BusImage} {bus : Bus}
    (version : (v.get "version").natural? = some stateVersion)
    (system : (v.get "system").text? = some systemName)
    (registers : Registers.ofJson (v.get "registers") = .ok regs)
    (arrays : BusImage.ofJson (v.get "bus") = .ok image) (banks : image.toBus? = some bus) :
    readState v = .ok (regs, bus) := by
  unfold readState
  rw [if_neg (not_not_intro version), if_neg (not_not_intro system)]
  simp only [registers, arrays, banks]

theorem registers_of_toJson (m : Machine) :
    Registers.ofJson (m.toJson.get "registers") = .ok m.registers := by
  have part : m.toJson.get "registers" = m.registers.toJson := rfl
  rw [part]
  exact Registers.ofJson_toJson m.registers

theorem banks_of_toJson (m : Machine) :
    BusImage.ofJson (m.toJson.get "bus") = .ok (.ofBus m.bus) := by
  have part : m.toJson.get "bus" = (BusImage.ofBus m.bus).toJson := rfl
  rw [part]
  exact BusImage.ofJson_toJson (.ofBus m.bus)

theorem readState_toJson (m : Machine) : readState m.toJson = .ok (m.registers, m.bus) :=
  readState_of_parts (natural?_ofNat (by decide)) rfl (registers_of_toJson m) (banks_of_toJson m)
    (BusImage.toBus?_ofBus m.bus)

theorem restore_of_readState {v : Value} {c : Cpu Bus} (t : Machine)
    (read : readState v = .ok (c.regs, c.memory))
    (counter : (v.get "cycles").natural? = some c.cycles.toNat) :
    t.restore v = .ok (t.withCpu fun _ => c).redraw := by
  unfold restore
  rw [read, counter]
  simp only [Option.getD_some, UInt64.ofNat_toNat]
  rfl

/-- **A restored state brings the processor and the memory that were saved, and shows them; all else
    is that of the machine that restores.** -/
theorem restore_toJson (t s : Machine) :
    t.restore s.toJson = .ok (t.withCpu fun _ => s.cpu).redraw :=
  restore_of_readState t (readState_toJson s) (natural?_ofNat s.cpu.cycles.toNat_lt)

end Machine

end Retro24
