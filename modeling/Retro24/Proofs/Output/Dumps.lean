/-
  File:      Retro24/Proofs/Output/Dumps.lean
  Subject:   Dumps are read back, and list the bytes of memory at their addresses.

  * `Hex.Upper`: the upper-case hexadecimal text of a number, with at least so many digits and no more
    than it needs; `upper_padded`: padded numbers are such texts.
  * `lineText`, `parseLine?_lineText`: a line without its end, which is read back.
  * `numbered`: pieces of memory with the addresses of their lines; `parse?_text`: the text of a dump
    is read as the numbered pieces of its bytes.
  * `located`, `listing`: bytes with an address each; the lines of a dump list every byte once, in the
    order of the addresses (`listing_numbered`).
  * `dumps_read_back`: the statement about every dump, and about the dumps of regions in a session.
-/
import Mathlib.Tactic.Ring
import Retro24.Proofs.Listings.Disassembly
import Retro24.Proofs.Memory.Image
import Retro24.Proofs.Output.Pieces
import Retro24.Proofs.Session.Settings

namespace Retro24

/-! ## 1. Numbers in upper-case hexadecimal -/

namespace Hex

/-- The digits of hexadecimal numbers with capital letters. -/
def capitals : List Char := "0123456789ABCDEF".toList

/-- A text of at least `width` upper-case digits that stands for a number, and of no more than that
    unless the number needs them. -/
structure Upper (width n : Nat) (cs : List Char) : Prop where
  capitals : ∀ c ∈ cs, c ∈ capitals
  value : number? cs = some n
  enough : width ≤ cs.length
  needed : cs.length ≤ width ∨ cs.head? ≠ some '0'

theorem digit_mem_capitals {k : Nat} (small : k < 16) : digit k ∈ capitals := by
  have : ∀ k : Fin 16, digit k.val ∈ capitals := by decide
  exact this ⟨k, small⟩

theorem digit_eq_zero {k : Nat} (small : k < 16) (zero : digit k = '0') : k = 0 := by
  have : ∀ k : Fin 16, digit k.val = '0' → k.val = 0 := by decide
  exact this ⟨k, small⟩ zero

theorem digits_subset (n : Nat) : ∀ c ∈ digits n, c ∈ capitals := by
  induction n using digits.induct with
  | case1 n small =>
    rw [digits, if_pos small]
    simpa using digit_mem_capitals small
  | case2 n large ih =>
    rw [digits, if_neg large]
    intro c inside
    rcases List.mem_append.mp inside with front | last
    · exact ih c front
    · rw [List.mem_singleton.mp last]
      exact digit_mem_capitals (Nat.mod_lt n (by decide))

theorem digits_ne_nil (n : Nat) : digits n ≠ [] := by
  rw [digits]
  split
  · exact List.cons_ne_nil _ _
  · exact List.append_ne_nil_of_right_ne_nil _ (List.cons_ne_nil _ _)

/-- Only zero is written with a zero in front. -/
theorem head_digits {n : Nat} (zero : (digits n).head? = some '0') : n = 0 := by
  induction n using digits.induct with
  | case1 n small =>
    rw [digits, if_pos small] at zero
    exact digit_eq_zero small (Option.some.inj zero)
  | case2 n large ih =>
    obtain ⟨c, cs, front⟩ := List.exists_cons_of_ne_nil (digits_ne_nil (n / 16))
    rw [digits, if_neg large, front] at zero
    rw [front] at ih
    have := ih zero
    omega

/-- **The digits of a number stand for it.** -/
theorem valueFrom?_digits (n acc : Nat) (cs : List Char) :
    valueFrom? acc (digits n ++ cs) = valueFrom? (16 ^ (digits n).length * acc + n) cs := by
  induction n using digits.induct generalizing acc cs with
  | case1 n small =>
    rw [digits, if_pos small]
    exact valueFrom?_digit small acc cs
  | case2 n large ih =>
    have value : 16 * (16 ^ (digits (n / 16)).length * acc + n / 16) + n % 16 =
        16 ^ ((digits (n / 16)).length + 1) * acc + n :=
      calc
        _ = 16 ^ ((digits (n / 16)).length + 1) * acc + (16 * (n / 16) + n % 16) := by ring
        _ = _ := by rw [Nat.div_add_mod]
    rw [digits, if_neg large, List.append_assoc, ih, List.length_append]
    exact (valueFrom?_digit (Nat.mod_lt n (by decide)) _ cs).trans (congrArg (valueFrom? · cs) value)

theorem valueFrom?_zeros (count : Nat) (cs : List Char) :
    valueFrom? 0 (List.replicate count '0' ++ cs) = valueFrom? 0 cs := by
  induction count with
  | zero => rfl
  | succ count ih => exact ih

/-- **Padded numbers are their upper-case texts.** -/
theorem upper_padded {width : Nat} (positive : 0 < width) (n : Nat) :
    Upper width n (padded width n).toList := by
  have text : (padded width n).toList =
      List.replicate (width - (digits n).length) '0' ++ digits n := String.toList_ofList
  rw [text]
  constructor
  · intro c inside
    rcases List.mem_append.mp inside with zero | digit
    · rw [List.eq_of_mem_replicate zero]
      decide
    · exact digits_subset n c digit
  · have filled := List.append_ne_nil_of_right_ne_nil
      (List.replicate (width - (digits n).length) '0') (digits_ne_nil n)
    have value := valueFrom?_digits n 0 []
    rw [List.append_nil, Nat.mul_zero, Nat.zero_add] at value
    unfold number?
    split
    · next none => exact absurd none filled
    · rw [valueFrom?_zeros, value]
      rfl
  · rw [List.length_append, List.length_replicate]
    omega
  · by_cases short : (digits n).length ≤ width
    · left
      rw [List.length_append, List.length_replicate]
      omega
    · right
      rw [Nat.sub_eq_zero_of_le (by omega)]
      intro zero
      rw [head_digits zero, digits, if_pos (by decide)] at short
      exact short positive

end Hex

namespace HexDump

/-! ## 2. Lines -/

/-- A line without its end. -/
def lineText (address : Nat) (bytes : List UInt8) : List Char :=
  (Hex.padded 4 address).toList ++ ':' :: ' ' :: lineBytes bytes

theorem line_eq (address : Nat) (bytes : List UInt8) :
    line address bytes = lineText address bytes ++ ['\n'] := by
  rw [line, lineText, List.append_assoc]
  rfl

theorem byteDigits_subset (b : UInt8) : ∀ c ∈ Hex.byteDigits b, c ∈ Hex.capitals := by
  have bound := b.toNat_lt
  have high := Hex.digit_mem_capitals (k := b.toNat / 16) (by omega)
  have low := Hex.digit_mem_capitals (k := b.toNat % 16) (by omega)
  simp [Hex.byteDigits, high, low]

/-- The bytes of a line are digits and spaces. -/
theorem lineBytes_subset (bytes : List UInt8) :
    ∀ c ∈ lineBytes bytes, c ∈ Hex.capitals ∨ c = ' ' := by
  induction bytes using lineBytes.induct with
  | case1 => nofun
  | case2 b => exact fun c inside => .inl (byteDigits_subset b c inside)
  | case3 b bs filled ih =>
    intro c inside
    rw [lineBytes] at inside
    · rcases List.mem_append.mp inside with digit | behind
      · exact .inl (byteDigits_subset b c digit)
      · rcases List.mem_cons.mp behind with space | other
        · exact .inr space
        · exact ih c other
    · exact filled

/-- **The bytes of a line are read back.** -/
theorem parseBytes?_lineBytes {bytes : List UInt8} (filled : bytes ≠ []) :
    parseBytes? (lineBytes bytes) = some bytes := by
  induction bytes using lineBytes.induct with
  | case1 => exact absurd rfl filled
  | case2 b =>
    have byte : Statement.byte? [Hex.digit (b.toNat / 16), Hex.digit (b.toNat % 16)] = some b :=
      Statement.byte?_byteDigits b
    rw [lineBytes, Hex.byteDigits, parseBytes?, byte]
    rfl
  | case3 b bs more ih =>
    have byte : Statement.byte? [Hex.digit (b.toNat / 16), Hex.digit (b.toNat % 16)] = some b :=
      Statement.byte?_byteDigits b
    rw [lineBytes, Hex.byteDigits]
    · simp only [List.cons_append, List.nil_append, parseBytes?, byte, ih more]
      rfl
    · exact more

theorem colon_not_mem : ':' ∉ Hex.capitals := by decide

theorem newline_not_mem : '\n' ∉ Hex.capitals := by decide

/-- **A line is read back.** -/
theorem parseLine?_lineText (address : Nat) {bytes : List UInt8} (filled : bytes ≠ []) :
    parseLine? (lineText address bytes) = some (address, bytes) := by
  have upper : Hex.Upper 4 address _ := Hex.upper_padded (by decide) address
  have digits : ∀ c ∈ (Hex.padded 4 address).toList, (c != ':') = true := by
    intro c inside
    rw [bne_iff_ne]
    rintro rfl
    exact colon_not_mem (upper.capitals _ inside)
  unfold parseLine? lineText
  rw [List.dropWhile_append_of_pos digits, List.takeWhile_append_of_pos digits]
  simp only [List.dropWhile_cons, List.takeWhile_cons, bne_self_eq_false, Bool.false_eq_true,
    if_false, List.append_nil, upper.value, parseBytes?_lineBytes filled]
  rfl

theorem newline_not_mem_lineText (address : Nat) (bytes : List UInt8) :
    '\n' ∉ lineText address bytes := by
  have upper : Hex.Upper 4 address _ := Hex.upper_padded (by decide) address
  intro inside
  rcases List.mem_append.mp inside with digit | behind
  · exact newline_not_mem (upper.capitals _ digit)
  · simp only [List.mem_cons, Char.reduceEq, false_or] at behind
    rcases lineBytes_subset bytes _ behind with digit | space
    · exact newline_not_mem digit
    · cases space

/-! ## 3. Dumps -/

/-- Pieces of memory with the addresses of their lines, sixteen apart. -/
def numbered (address : Nat) (parts : List (List UInt8)) : List (Nat × List UInt8) :=
  parts.mapIdx fun i part => (address + 16 * i, part)

theorem numbered_cons (address : Nat) (part : List UInt8) (parts : List (List UInt8)) :
    numbered address (part :: parts) = (address, part) :: numbered (address + 16) parts := by
  have onward (i : Nat) : address + 16 * (i + 1) = address + 16 + 16 * i := by omega
  simp only [numbered, List.mapIdx_cons, onward, Nat.mul_zero, Nat.add_zero]

theorem splitLines_append {line : List Char} (one : '\n' ∉ line) (current rest : List Char) :
    splitLines current (line ++ '\n' :: rest) = (current.reverse ++ line) :: splitLines [] rest := by
  induction line generalizing current with
  | nil => rw [List.nil_append, splitLines, if_pos rfl, List.append_nil]
  | cons c line ih =>
    have other : c ≠ '\n' := fun e => one (e ▸ List.mem_cons_self)
    rw [List.cons_append, splitLines, if_neg other,
      ih fun inside => one (List.mem_cons_of_mem c inside), List.reverse_cons, List.append_assoc]
    rfl

/-- **The lines of a dump are those of its pieces.** -/
theorem splitLines_lines (address : Nat) (parts : List (List UInt8)) :
    splitLines [] (lines address parts) =
      (numbered address parts).map fun e => lineText e.1 e.2 := by
  induction parts generalizing address with
  | nil => rfl
  | cons part parts ih =>
    rw [lines, line_eq, List.append_assoc, List.singleton_append,
      splitLines_append (newline_not_mem_lineText address part), ih, numbered_cons, List.map_cons]
    rfl

theorem lines_eq (address : Nat) (parts : List (List UInt8)) :
    lines address parts = (splitLines [] (lines address parts)).flatMap (· ++ ['\n']) := by
  rw [splitLines_lines]
  induction parts generalizing address with
  | nil => rfl
  | cons part parts ih => rw [lines, line_eq, numbered_cons, List.map_cons, List.flatMap_cons, ← ih]

/-- **The text of a dump is read as the pieces of its bytes with their addresses.** -/
theorem parse?_text (base : UInt16) (bytes : List UInt8) :
    parse? (text base bytes) = some (numbered base.toNat (pieces 16 bytes)) := by
  have read (address : Nat) (parts : List (List UInt8)) (filled : ∀ part ∈ parts, part ≠ []) :
      ((numbered address parts).map fun e => lineText e.1 e.2).mapM parseLine? =
        some (numbered address parts) := by
    induction parts generalizing address with
    | nil => rfl
    | cons part parts ih =>
      rw [numbered_cons, List.map_cons, List.mapM_cons,
        parseLine?_lineText address (filled part List.mem_cons_self),
        ih _ fun other inside => filled other (List.mem_cons_of_mem part inside)]
      rfl
  have lines : (text base bytes).toList = lines base.toNat (pieces 16 bytes) :=
    String.toList_ofList
  rw [parse?, lines, splitLines_lines, read]
  intro part inside empty
  obtain ⟨i, found⟩ := List.mem_iff_getElem?.mp inside
  obtain ⟨length, below⟩ := length_piece (by decide) found
  rw [empty] at length
  change 0 = _ at length
  omega

/-! ## 4. Addresses of bytes -/

/-- Bytes with their addresses, the first of which is `start`. -/
def located (start : Nat) (bytes : List UInt8) : List (Nat × UInt8) :=
  (List.range' start bytes.length).zip bytes

/-- The bytes of the lines of a dump with their addresses. -/
def listing (entries : List (Nat × List UInt8)) : List (Nat × UInt8) :=
  entries.flatMap fun e => located e.1 e.2

theorem located_append (start : Nat) (xs ys : List UInt8) :
    located start (xs ++ ys) = located start xs ++ located (start + xs.length) ys := by
  rw [located, List.length_append, ← List.range'_append_1, List.zip_append List.length_range']
  rfl

/-- **Every byte is listed once**, at the address that follows the one before. -/
theorem listing_numbered (address : Nat) (bytes : List UInt8) :
    listing (numbered address (pieces 16 bytes)) = located address bytes := by
  induction bytes using pieces.induct 16 generalizing address with
  | case1 bytes none =>
    rw [none.resolve_left (by decide), pieces_nil]
    rfl
  | case2 bytes some ih =>
    have filled : bytes ≠ [] := fun empty => some (.inr empty)
    have front := located_append address (bytes.take 16) (bytes.drop 16)
    rw [List.take_append_drop] at front
    rw [pieces_of_ne_nil (by decide) filled, numbered_cons, listing, List.flatMap_cons, front]
    congr 1
    refine (ih (address + 16)).trans ?_
    by_cases last : bytes.drop 16 = []
    · rw [last]
      rfl
    · rw [List.length_take_of_le]
      have := List.length_pos_iff.mpr last
      rw [List.length_drop] at this
      omega

/-- Bytes of memory with their addresses. -/
theorem located_span {M : Type} [Memory M] (m : M) (start length : Nat) :
    located start (Memory.span m start length) =
      (List.range' start length).map fun a => (a, Memory.read m (UInt16.ofNat a)) := by
  rw [located, Memory.length_span, Memory.span, List.map_prod_left_eq_zip]

theorem map_snd_numbered (address : Nat) (parts : List (List UInt8)) :
    (numbered address parts).map Prod.snd = parts := by
  induction parts generalizing address with
  | nil => rfl
  | cons part parts ih => rw [numbered_cons, List.map_cons, ih]

/-- A line of a dump by its number. -/
theorem getElem?_numbered {address i : Nat} {parts : List (List UInt8)} {e : Nat × List UInt8}
    (found : (numbered address parts)[i]? = some e) :
    e.1 = address + 16 * i ∧ parts[i]? = some e.2 := by
  rw [numbered, List.getElem?_mapIdx, Option.map_eq_some_iff] at found
  obtain ⟨part, found, rfl⟩ := found
  exact ⟨rfl, found⟩

/-- What the lines of a dump say about its bytes. -/
structure Dumped (base : UInt16) (bytes : List UInt8) (dump : String)
    (entries : List (Nat × List UInt8)) : Prop where
  parsed : parse? dump = some entries
  joined : entries.flatMap Prod.snd = bytes
  start : bytes ≠ [] → entries.head?.map Prod.fst = some base.toNat
  ended : dump.toList = (splitLines [] dump.toList).flatMap (· ++ ['\n'])
  address {i : Nat} {e : Nat × List UInt8} (found : entries[i]? = some e) :
    e.1 = base.toNat + 16 * i
  written {i : Nat} {e : Nat × List UInt8} (found : entries[i]? = some e) :
    ∃ digits, Hex.Upper 4 e.1 digits ∧
      (splitLines [] dump.toList)[i]? = some (digits ++ ':' :: ' ' :: lineBytes e.2)
  full {i : Nat} {e : Nat × List UInt8} (found : entries[i]? = some e)
    (more : i + 1 < entries.length) : e.2.length = 16
  filled {e : Nat × List UInt8} (inside : e ∈ entries) : 1 ≤ e.2.length ∧ e.2.length ≤ 16

/-- **A dump is read back.** -/
theorem dumped_text (base : UInt16) (bytes : List UInt8) :
    Dumped base bytes (text base bytes) (numbered base.toNat (pieces 16 bytes)) where
  parsed := parse?_text base bytes
  joined := by rw [List.flatMap_def, map_snd_numbered, flatten_pieces (by decide)]
  start filled := by
    rw [pieces_of_ne_nil (by decide) filled, numbered_cons]
    rfl
  ended := by
    rw [text, String.toList_ofList]
    exact lines_eq _ _
  address found := (getElem?_numbered found).1
  written {i e} found := by
    refine ⟨_, Hex.upper_padded (by decide) e.1, ?_⟩
    rw [text, String.toList_ofList, splitLines_lines, List.getElem?_map, found]
    rfl
  full {i e} found more := by
    obtain ⟨length, -⟩ := length_piece (by decide) (getElem?_numbered found).2
    obtain ⟨-, next⟩ := getElem?_numbered (List.getElem?_eq_getElem more)
    obtain ⟨-, below⟩ := length_piece (by decide) next
    omega
  filled {e} inside := by
    obtain ⟨i, found⟩ := List.mem_iff_getElem?.mp inside
    obtain ⟨length, below⟩ := length_piece (by decide) (getElem?_numbered found).2
    omega

end HexDump

/-! ## 5. Regions -/

namespace Session

/-- A region that is asked for is printed as a dump. -/
theorem on_dump {name : String} {region : Region} (known : Region.ofName? name = some region)
    (o : Output) (t : FileTree) :
    (dump name : Step (StateM FileTree) Unit).on o t =
      ((.ok (), ⟨o.text ++ HexDump.text region.start (o.console.machine.bus.region region).toList,
        o.console⟩), t) := by
  unfold dump
  rw [known]
  rfl

/-- **Dumps are read back.** Every byte list and every base have a dump whose lines are read as
    addresses and bytes: the addresses are sixteen apart from the base on and stand in front as at
    least four capital digits, every line but the last has sixteen bytes and the last at least one,
    and all the bytes together are the list. A session can be asked for every region, and prints
    such a dump; it lists the addresses of the region in order, once each, with the bytes that are
    read there. -/
theorem dumps_read_back :
    (∀ (base : UInt16) (bytes : List UInt8), ∃ entries,
      HexDump.Dumped base bytes (HexDump.text base bytes) entries) ∧
    ∀ region : Region, (∃ name, Region.ofName? name = some region) ∧
      ∀ (name : String) (o : Output) (t : FileTree), Region.ofName? name = some region →
      ∃ printed entries,
        (dump name : Step (StateM FileTree) Unit).on o t =
          ((.ok (), ⟨o.text ++ printed, o.console⟩), t) ∧
        HexDump.parse? printed = some entries ∧
        HexDump.listing entries = (List.range' region.start.toNat region.size).map fun a =>
          (a, o.console.machine.bus.read (UInt16.ofNat a)) := by
  refine ⟨fun base bytes => ⟨_, HexDump.dumped_text base bytes⟩, fun region => ⟨?_, ?_⟩⟩
  · cases region
    · exact ⟨"io", by decide⟩
    · exact ⟨"ram", by decide⟩
    · exact ⟨"brightness", by decide⟩
    · exact ⟨"color", by decide⟩
  intro name o t known
  refine ⟨_, _, on_dump known o t, HexDump.parse?_text _ _, ?_⟩
  rw [HexDump.listing_numbered, Bus.toList_region, HexDump.located_span]
  rfl

/-- The color plane under one of its names, as it is after switching on. -/
theorem dumps_read_back_colour : ∃ printed entries,
    (dump "colour" : Step (StateM FileTree) Unit).on ⟨"", ⟨.powerOn, .blank none⟩⟩ .empty =
      ((.ok (), ⟨printed, ⟨.powerOn, .blank none⟩⟩), .empty) ∧
    HexDump.parse? printed = some entries ∧
    HexDump.listing entries = (List.range' 0xF000 4096).map fun a =>
      (a, Machine.powerOn.bus.read (UInt16.ofNat a)) := by
  obtain ⟨printed, entries, done, parsed, listed⟩ :=
    (dumps_read_back.2 .color).2 "colour" ⟨"", ⟨.powerOn, .blank none⟩⟩ .empty (by decide)
  rw [String.empty_append] at done
  exact ⟨printed, entries, done, parsed, listed⟩

end Session
end Retro24
