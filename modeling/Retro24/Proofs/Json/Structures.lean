/-
  File:      Retro24/Proofs/Json/Structures.lean
  Subject:   Exactly which values a structure is decoded from.

  * `Exact`: a decoder accepts a value exactly when it is what the decoded datum is written as.
    Bytes, words, truth values and lists of them are decoded exactly.
  * `valuesUnder`, `Gives`: what the entries of an object say under a key.
  * `Tracks`: a key of a structure and the part of it that the key fills, and no other.
  * `gives_of_decodeStruct`, `decodeStruct_total`: an object is decoded exactly when it gives every
    field, whatever else it holds.
  * `decodeInOrder_cons_iff`, `decodeInOrder_nil_iff`: an array is decoded element by element, and
    has neither more nor fewer of them than there are fields.
  * `Holds`, `decodeStruct_eq_ok_iff`: the objects and the arrays that hold a structure are what it
    is decoded from, and nothing else is.
-/
import Retro24.Json.Decoding

namespace Retro24.Json

variable {α β σ : Type}

/-! ## 1. Exact decoders -/

/-- A decoder accepts a value exactly when it is what the decoded datum is written as. -/
def Exact (decode : Value → Decoded α) (item : α → Value) : Prop :=
  ∀ v x, decode v = .ok x ↔ v = item x

theorem map_eq_ok_iff {ε : Type} {x : Except ε α} {f : α → β} {y : β} :
    x.map f = .ok y ↔ ∃ a, x = .ok a ∧ f a = y := by
  cases x with
  | error e => exact ⟨nofun, nofun⟩
  | ok a =>
    constructor
    · intro h
      exact ⟨a, rfl, Except.ok.inj h⟩
    · rintro ⟨_, ⟨⟩, rfl⟩
      rfl

theorem decodeNat_eq_ok_iff {v : Value} {bound n : Nat} {expected : String} :
    v.decodeNat bound expected = .ok n ↔ v = .ofNat n ∧ n < bound := by
  constructor
  · intro h
    unfold Value.decodeNat at h
    split at h
    · next i =>
      split at h
      · next inside =>
        cases h
        refine ⟨?_, by omega⟩
        rw [Value.ofNat, Int.toNat_of_nonneg inside.1]
      · cases h
    · cases h
  · rintro ⟨rfl, below⟩
    have inside : (0 : Int) ≤ n ∧ (n : Int) < bound := by omega
    unfold Value.ofNat Value.decodeNat
    exact if_pos inside

/-- What a byte is written as. -/
def Value.ofByte (b : UInt8) : Value := .ofNat b.toNat

/-- What a word of sixteen bits is written as. -/
def Value.ofWord (w : UInt16) : Value := .ofNat w.toNat

theorem exact_decodeByte : Exact Value.decodeByte Value.ofByte := by
  intro v b
  rw [Value.decodeByte, map_eq_ok_iff]
  constructor
  · rintro ⟨n, decoded, rfl⟩
    obtain ⟨rfl, below⟩ := decodeNat_eq_ok_iff.mp decoded
    exact congrArg Value.ofNat (UInt8.toNat_ofNat_of_lt' below).symm
  · rintro rfl
    exact ⟨b.toNat, decodeNat_eq_ok_iff.mpr ⟨rfl, b.toNat_lt⟩, UInt8.ofNat_toNat⟩

theorem exact_decodeWord : Exact Value.decodeWord Value.ofWord := by
  intro v w
  rw [Value.decodeWord, map_eq_ok_iff]
  constructor
  · rintro ⟨n, decoded, rfl⟩
    obtain ⟨rfl, below⟩ := decodeNat_eq_ok_iff.mp decoded
    exact congrArg Value.ofNat (UInt16.toNat_ofNat_of_lt' below).symm
  · rintro rfl
    exact ⟨w.toNat, decodeNat_eq_ok_iff.mpr ⟨rfl, w.toNat_lt⟩, UInt16.ofNat_toNat⟩

theorem exact_decodeBool : Exact Value.decodeBool .bool := by
  intro v b
  cases v <;> simp [Value.decodeBool]

theorem decodeItems_eq_ok_iff {decode : Value → Decoded α} {item : α → Value}
    (exact : Exact decode item) (done : List α) (vs : List Value) (xs : List α) :
    Value.decodeItems decode done vs = .ok xs ↔
      ∃ more, vs = more.map item ∧ xs = done.reverse ++ more := by
  induction vs generalizing done with
  | nil => 
    simp only [Value.decodeItems, Except.ok.injEq]
    constructor
    · rintro rfl
      exact ⟨[], rfl, (List.append_nil _).symm⟩
    · rintro ⟨more, empty, rfl⟩
      rw [List.map_eq_nil_iff.mp empty.symm, List.append_nil]
  | cons v vs ih =>
    rw [Value.decodeItems]
    cases decoded : decode v with
    | error e =>
      refine ⟨nofun, ?_⟩
      rintro ⟨more, written, -⟩
      obtain ⟨x, rest, -, rfl, -⟩ := List.map_eq_cons_iff.mp written.symm
      rw [(exact (item x) x).mpr rfl] at decoded
      cases decoded
    | ok x =>
      have same := (exact v x).mp decoded
      simp only [ih, List.reverse_cons, List.append_assoc, List.singleton_append]
      constructor
      · rintro ⟨more, rfl, rfl⟩
        exact ⟨x :: more, by rw [List.map_cons, same], rfl⟩
      · rintro ⟨more, written, rfl⟩
        obtain ⟨y, rest, rfl, rfl, rfl⟩ := List.map_eq_cons_iff.mp written.symm
        rw [(exact (item y) y).mpr rfl] at decoded
        cases decoded
        exact ⟨rest, rfl, rfl⟩

theorem exact_decodeList {decode : Value → Decoded α} {item : α → Value}
    (exact : Exact decode item) :
    Exact (Value.decodeList decode) fun xs => .array (xs.map item) := by
  intro v xs
  cases v with
  | array items =>
    rw [Value.decodeList, decodeItems_eq_ok_iff exact, Value.array.injEq]
    simp
  | _ => exact ⟨nofun, nofun⟩

theorem Exact.injective {decode : Value → Decoded α} {item : α → Value}
    (exact : Exact decode item) {x y : α} (same : item x = item y) : x = y := by
  have left := (exact (item x) x).mpr rfl
  rw [(exact (item x) y).mpr same] at left
  exact (Except.ok.inj left).symm

/-! ## 2. What the entries of an object say -/

/-- The values under a key. -/
def valuesUnder (key : String) (entries : List (String × Value)) : List Value :=
  (entries.filter fun entry => entry.1 == key).map Prod.snd

theorem valuesUnder_cons_self (key : String) (v : Value) (entries : List (String × Value)) :
    valuesUnder key ((key, v) :: entries) = v :: valuesUnder key entries := by
  simp [valuesUnder]

theorem valuesUnder_cons_of_ne {key k : String} (v : Value) (entries : List (String × Value))
    (h : k ≠ key) : valuesUnder key ((k, v) :: entries) = valuesUnder key entries := by
  simp [valuesUnder, h]

/-- The entries give `x` to a key: there are values under it, each of them is one that a datum is
    written as, and the last one is that of `x`. -/
def Gives (item : α → Value) (entries : List (String × Value)) (key : String) (x : α) : Prop :=
  ∃ earlier : List α, valuesUnder key entries = (earlier ++ [x]).map item

theorem Gives.unique {decode : Value → Decoded α} {item : α → Value} (exact : Exact decode item)
    {entries : List (String × Value)} {key : String} {x y : α} (h : Gives item entries key x)
    (h' : Gives item entries key y) : x = y := by
  obtain ⟨earlier, values⟩ := h
  obtain ⟨earlier', values'⟩ := h'
  rw [values, List.map_append, List.map_append] at values'
  exact exact.injective (List.cons.inj (List.append_inj_right' values' rfl)).1

/-! ## 3. Structures from objects -/

/-- A key of a structure and the part that it fills: the field of that key takes only values that
    the part is written as, and the other fields leave the part alone. -/
structure Tracks (fields : List (Member σ)) (key : String) (item : α → Value) (part : σ → α) :
    Prop where
  known : key ∈ fields.map Member.name
  fills : ∀ field ∈ fields, ∀ v s s', field.decode v s = .ok s' →
    if field.name = key then v = item (part s') else part s' = part s

variable {fields : List (Member σ)}

/-- The field of a key is one of the fields, with that name. -/
theorem field_of_find? {key : String} {field : Member σ}
    (found : (fields.find? fun f => f.name == key) = some field) :
    field ∈ fields ∧ field.name = key := by
  have named := List.find?_some found
  exact ⟨List.mem_of_find?_eq_some found, eq_of_beq named⟩

/-- Behind the entries of an object, either a key was given what its part holds, or it is not among
    them and its part is what it was. -/
theorem Tracks.entries {key : String} {item : α → Value} {part : σ → α}
    (h : Tracks fields key item part) {draft s : σ} {present names : List String}
    {entries : List (String × Value)}
    (read : Value.decodeEntries fields draft present entries = .ok (s, names)) :
    (Gives item entries key (part s) ∧ key ∈ names) ∨
      (valuesUnder key entries = [] ∧ part s = part draft ∧ (key ∈ names ↔ key ∈ present)) := by
  induction entries generalizing draft present with
  | nil =>
    cases read
    exact .inr ⟨rfl, rfl, Iff.rfl⟩
  | cons entry entries ih =>
    obtain ⟨k, v⟩ := entry
    rw [Value.decodeEntries] at read
    cases found : fields.find? fun f => f.name == k with
    | none =>
      rw [found] at read
      have other : k ≠ key := by
        rintro rfl
        obtain ⟨field, inside, name⟩ := List.mem_map.mp h.known
        exact absurd (beq_of_eq name) (by simpa using List.find?_eq_none.mp found field inside)
      rw [Gives, valuesUnder_cons_of_ne v entries other]
      exact ih read
    | some field =>
      obtain ⟨inside, rfl⟩ := field_of_find? found
      rw [found] at read
      cases decoded : field.decode v draft with
      | error e =>
        simp only [decoded] at read
        cases read
      | ok draft' =>
        simp only [decoded] at read
        have fills := h.fills field inside v draft draft' decoded
        by_cases same : field.name = key
        · rw [if_pos same] at fills
          subst same
          rw [Gives, valuesUnder_cons_self]
          left
          rcases ih read with ⟨⟨earlier, values⟩, named⟩ | ⟨none, kept, named⟩
          · exact ⟨⟨part draft' :: earlier, by rw [values, fills]; rfl⟩, named⟩
          · exact ⟨⟨[], by rw [none, fills, kept]; rfl⟩, named.mpr List.mem_cons_self⟩
        · rw [if_neg same] at fills
          rw [Gives, valuesUnder_cons_of_ne v entries same]
          rcases ih read with given | ⟨none, kept, named⟩
          · exact .inl given
          · refine .inr ⟨none, kept.trans fills, named.trans ?_⟩
            rw [List.mem_cons, or_iff_right (Ne.symm same)]

/-- **An object that is decoded gives every key what the structure holds there.** -/
theorem gives_of_decodeStruct {key name : String} {item : α → Value} {part : σ → α}
    (h : Tracks fields key item part) {blank s : σ} {entries : List (String × Value)}
    (read : (Value.object entries).decodeStruct name fields blank = .ok s) :
    Gives item entries key (part s) := by
  rw [Value.decodeStruct] at read
  cases decoded : Value.decodeEntries fields blank [] entries with
  | error e =>
    rw [decoded] at read
    cases read
  | ok result =>
    obtain ⟨draft, names⟩ := result
    simp only [decoded] at read
    cases missing : fields.find? fun f => !names.contains f.name with
    | some field =>
      rw [missing] at read
      cases read
    | none =>
      rw [missing] at read
      cases read
      rcases h.entries decoded with given | ⟨-, -, named⟩
      · exact given.1
      · obtain ⟨field, inside, rfl⟩ := List.mem_map.mp h.known
        have present := List.find?_eq_none.mp missing field inside
        simp [named] at present

theorem decodeEntries_total {entries : List (String × Value)} (draft : σ) (present : List String)
    (each : ∀ field ∈ fields, ∀ v ∈ valuesUnder field.name entries, ∀ s,
      ∃ s', field.decode v s = .ok s') :
    ∃ s names, Value.decodeEntries fields draft present entries = .ok (s, names) ∧
      ∀ field ∈ fields, field.name ∈ present ∨ valuesUnder field.name entries ≠ [] →
        field.name ∈ names := by
  induction entries generalizing draft present with
  | nil =>
    refine ⟨draft, present, rfl, fun field _ given => ?_⟩
    rcases given with earlier | none
    · exact earlier
    · exact absurd rfl none
  | cons entry entries ih =>
    obtain ⟨k, v⟩ := entry
    have rest : ∀ field ∈ fields, ∀ w ∈ valuesUnder field.name entries, ∀ s,
        ∃ s', field.decode w s = .ok s' := by
      intro field inside w under
      refine each field inside w ?_
      by_cases same : k = field.name
      · rw [same, valuesUnder_cons_self]
        exact List.mem_cons_of_mem v under
      · rw [valuesUnder_cons_of_ne v entries same]
        exact under
    rw [Value.decodeEntries]
    cases found : fields.find? fun f => f.name == k with
    | none =>
      obtain ⟨s, names, read, complete⟩ := ih draft present rest
      refine ⟨s, names, read, fun field inside given => complete field inside ?_⟩
      have other : k ≠ field.name := by
        rintro rfl
        exact absurd (beq_self_eq_true field.name) (List.find?_eq_none.mp found field inside)
      rw [valuesUnder_cons_of_ne v entries other] at given
      exact given
    | some field =>
      obtain ⟨inside, rfl⟩ := field_of_find? found
      have first : v ∈ valuesUnder field.name ((field.name, v) :: entries) := by
        rw [valuesUnder_cons_self]
        exact List.mem_cons_self
      obtain ⟨draft', decoded⟩ := each field inside v first draft
      obtain ⟨s, names, read, complete⟩ := ih draft' (field.name :: present) rest
      simp only [decoded]
      refine ⟨s, names, read, fun other inside' given => complete other inside' ?_⟩
      by_cases same : field.name = other.name
      · exact .inl (same ▸ List.mem_cons_self)
      · rw [valuesUnder_cons_of_ne v entries same] at given
        exact given.imp (List.mem_cons_of_mem field.name) id

/-- **An object is decoded when every field has values there and takes each of them.** -/
theorem decodeStruct_total {entries : List (String × Value)} (name : String) (blank : σ)
    (each : ∀ field ∈ fields, valuesUnder field.name entries ≠ [] ∧
      ∀ v ∈ valuesUnder field.name entries, ∀ s, ∃ s', field.decode v s = .ok s') :
    ∃ s, (Value.object entries).decodeStruct name fields blank = .ok s := by
  obtain ⟨s, names, read, complete⟩ :=
    decodeEntries_total blank [] fun field inside => (each field inside).2
  refine ⟨s, ?_⟩
  have none : (fields.find? fun f => !names.contains f.name) = none := by
    rw [List.find?_eq_none]
    intro field inside
    simpa using complete field inside (.inr (each field inside).1)
  simp only [Value.decodeStruct, read, none]

/-- What an object gives to a key is what a field needs that decodes exactly. -/
theorem Gives.needed {decode : Value → Decoded α} {item : α → Value} (exact : Exact decode item)
    {entries : List (String × Value)} {key : String} {x : α} (h : Gives item entries key x)
    (set : σ → α → σ) :
    valuesUnder key entries ≠ [] ∧
      ∀ v ∈ valuesUnder key entries, ∀ s, ∃ s', (decode v).map (set s) = .ok s' := by
  obtain ⟨earlier, values⟩ := h
  rw [values]
  refine ⟨by simp, fun v inside s => ?_⟩
  obtain ⟨y, -, rfl⟩ := List.mem_map.mp inside
  exact ⟨set s y, map_eq_ok_iff.mpr ⟨y, (exact (item y) y).mpr rfl, rfl⟩⟩

/-! ## 4. Structures from arrays -/

theorem decodeInOrder_nil_iff {expected : String} {index : Nat} {draft s : σ} {vs : List Value} :
    Value.decodeInOrder expected index draft [] vs = .ok s ↔ vs = [] ∧ draft = s := by
  cases vs with
  | nil => simp [Value.decodeInOrder]
  | cons v vs => simp [Value.decodeInOrder]

/-- A field that decodes exactly takes the next element. -/
theorem decodeInOrder_cons_iff {decode : Value → Decoded α} {item : α → Value}
    (exact : Exact decode item) {key expected : String} {index : Nat} {draft s : σ}
    {set : σ → α → σ} {vs : List Value} :
    Value.decodeInOrder expected index draft (⟨key, fun v s => (decode v).map (set s)⟩ :: fields) vs =
        .ok s ↔
      ∃ x rest, vs = item x :: rest ∧
        Value.decodeInOrder expected (index + 1) (set draft x) fields rest = .ok s := by
  cases vs with
  | nil => simp [Value.decodeInOrder]
  | cons v vs =>
    simp only [Value.decodeInOrder]
    cases decoded : decode v with
    | error e =>
      refine ⟨nofun, ?_⟩
      rintro ⟨x, rest, same, -⟩
      rw [(List.cons.inj same).1, (exact (item x) x).mpr rfl] at decoded
      cases decoded
    | ok x =>
      rw [(exact v x).mp decoded]
      constructor
      · intro behind
        exact ⟨x, vs, rfl, behind⟩
      · rintro ⟨y, rest, same, behind⟩
        obtain ⟨written, rfl⟩ := List.cons.inj same
        rw [exact.injective written]
        exact behind

/-! ## 5. Structures -/

/-- The values that hold a structure: the objects that give its fields, and the array of them in
    order. -/
inductive Holds (inObject : List (String × Value) → Prop) (inOrder : List Value) : Value → Prop where
  | object {entries : List (String × Value)} (given : inObject entries) :
      Holds inObject inOrder (.object entries)
  | array : Holds inObject inOrder (.array inOrder)

/-- **A structure is decoded from the values that hold it, and from no others**, provided that its
    fields take what an object gives, that an object gives what it is decoded to and nothing else,
    and that an array is decoded to what its elements are written as. -/
theorem decodeStruct_eq_ok_iff {name : String} {blank : σ}
    {inObject : σ → List (String × Value) → Prop} {inOrder : σ → List Value}
    (needed : ∀ x entries, inObject x entries → ∀ field ∈ fields,
      valuesUnder field.name entries ≠ [] ∧
        ∀ v ∈ valuesUnder field.name entries, ∀ s, ∃ s', field.decode v s = .ok s')
    (given : ∀ x entries, (Value.object entries).decodeStruct name fields blank = .ok x →
      inObject x entries)
    (unique : ∀ x y entries, inObject x entries → inObject y entries → x = y)
    (ordered : ∀ x items, (Value.array items).decodeStruct name fields blank = .ok x ↔
      items = inOrder x) (v : Value) (x : σ) :
    v.decodeStruct name fields blank = .ok x ↔ Holds (inObject x) (inOrder x) v := by
  constructor
  · intro decoded
    cases v with
    | object entries => exact .object (given x entries decoded)
    | array items =>
      rw [(ordered x items).mp decoded]
      exact .array
    | _ => cases decoded
  · rintro (⟨inside⟩ | _)
    · obtain ⟨y, decoded⟩ := decodeStruct_total name blank (needed x _ inside)
      rw [unique x y _ inside (given y _ decoded)]
      exact decoded
    · exact (ordered x _).mpr rfl

end Retro24.Json
