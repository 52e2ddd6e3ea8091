/-
  File:      Retro24/Proofs/Output/Pieces.lean
  Subject:   Lists cut into pieces of one length, and lists that are made of blocks of one length.

  * `pieces_of_ne_nil`: the first piece and those behind it; `flatten_pieces`: together they are the
    list.
  * `getElem?_pieces`: the pieces by their number, and `getElem?_piece` the elements in them. All but
    the last one are full (`length_piece`, `length_of_mem_pieces`).
  * `getElem?_flatMap`: an element of a list of blocks, by its block and its place in it.
-/
import Retro24.Frame

namespace Retro24

variable {α β : Type} {size : Nat}

/-! ## 1. Pieces -/

theorem pieces_nil (size : Nat) : pieces size ([] : List α) = [] := by
  rw [pieces, dif_pos (.inr rfl)]

theorem pieces_of_ne_nil (positive : 0 < size) {xs : List α} (filled : xs ≠ []) :
    pieces size xs = xs.take size :: pieces size (xs.drop size) := by
  rw [pieces, dif_neg]
  rintro (zero | empty)
  · exact Nat.ne_of_gt positive zero
  · exact filled empty

/-- **Nothing is lost**: the pieces behind one another are the list. -/
theorem flatten_pieces (positive : 0 < size) (xs : List α) : (pieces size xs).flatten = xs := by
  induction xs using pieces.induct size with
  | case1 xs none =>
    rw [none.resolve_left (Nat.ne_of_gt positive), pieces_nil, List.flatten_nil]
  | case2 xs some ih =>
    rw [pieces_of_ne_nil positive fun empty => some (.inr empty), List.flatten_cons, ih,
      List.take_append_drop]

/-- **The pieces by their number.** -/
theorem getElem?_pieces (positive : 0 < size) (xs : List α) (i : Nat) :
    (pieces size xs)[i]? =
      if size * i < xs.length then some ((xs.drop (size * i)).take size) else none := by
  induction xs using pieces.induct size generalizing i with
  | case1 xs none =>
    rw [none.resolve_left (Nat.ne_of_gt positive), pieces_nil]
    rfl
  | case2 xs some ih =>
    have filled : xs ≠ [] := fun empty => some (.inr empty)
    rw [pieces_of_ne_nil positive filled]
    cases i with
    | zero => rw [Nat.mul_zero, if_pos (List.length_pos_iff.mpr filled)]; rfl
    | succ i =>
      have next : size * (i + 1) = size + size * i := by rw [Nat.mul_succ, Nat.add_comm]
      rw [List.getElem?_cons_succ, ih, List.length_drop, List.drop_drop, next]
      congr 1
      rw [eq_iff_iff]
      omega

/-- An element of a list, by its piece and its place in it. -/
theorem getElem?_piece (xs : List α) (i : Nat) {j : Nat} (inside : j < size) :
    (pieces size xs)[i]?.bind (·[j]?) = xs[size * i + j]? := by
  rw [getElem?_pieces (Nat.zero_lt_of_lt inside)]
  split
  · rw [Option.bind_some, List.getElem?_take_of_lt inside, List.getElem?_drop]
  · next beyond =>
    rw [Option.bind_none, List.getElem?_eq_none (by omega)]

theorem length_piece {xs : List α} {piece : List α} {i : Nat} (positive : 0 < size)
    (found : (pieces size xs)[i]? = some piece) :
    piece.length = min size (xs.length - size * i) ∧ size * i < xs.length := by
  rw [getElem?_pieces positive] at found
  split at found
  · next inside =>
    cases found
    rw [List.length_take, List.length_drop]
    exact ⟨rfl, inside⟩
  · cases found

/-- The pieces of a list that comes out even are all full. -/
theorem length_of_mem_pieces {xs : List α} {count : Nat} (positive : 0 < size)
    (even : xs.length = size * count) {piece : List α} (inside : piece ∈ pieces size xs) :
    piece.length = size := by
  obtain ⟨i, found⟩ := List.mem_iff_getElem?.mp inside
  obtain ⟨length, below⟩ := length_piece positive found
  have first : i + 1 ≤ count := by
    rw [even] at below
    exact Nat.lt_of_mul_lt_mul_left below
  have whole : size * i + size ≤ size * count := Nat.mul_le_mul_left size first
  omega

/-! ## 2. Blocks -/

/-- **An element of a list of blocks.** -/
theorem getElem?_flatMap {f : α → List β} {xs : List α} (blocks : ∀ x ∈ xs, (f x).length = size)
    (i : Nat) {j : Nat} (inside : j < size) :
    (xs.flatMap f)[size * i + j]? = xs[i]?.bind fun x => (f x)[j]? := by
  induction xs generalizing i with
  | nil => rfl
  | cons x xs ih =>
    have first : (f x).length = size := blocks x List.mem_cons_self
    rw [List.flatMap_cons]
    cases i with
    | zero =>
      rw [Nat.mul_zero, Nat.zero_add, List.getElem?_append_left (first.symm ▸ inside)]
      rfl
    | succ i =>
      have behind : (f x).length ≤ size * (i + 1) + j := by
        rw [first, Nat.mul_succ]
        omega
      have place : size * (i + 1) + j - (f x).length = size * i + j := by
        rw [first, Nat.mul_succ]
        omega
      rw [List.getElem?_append_right behind, place,
        ih (fun y inside => blocks y (List.mem_cons_of_mem x inside)), List.getElem?_cons_succ]

theorem length_flatMap_blocks {f : α → List β} {xs : List α}
    (blocks : ∀ x ∈ xs, (f x).length = size) : (xs.flatMap f).length = size * xs.length := by
  rw [List.length_flatMap, List.map_congr_left blocks, List.map_const', List.sum_replicate_nat,
    Nat.mul_comm]

end Retro24
